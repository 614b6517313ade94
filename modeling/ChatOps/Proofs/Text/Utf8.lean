/-
UTF-8, both ways: octets are read as a text exactly when they are the octets of that text. What is
refused is therefore no text at all.

The forms of one character stand between the two: what is written has one of the four forms, and
what is read has one of them. The windows of the second octet make every form the shortest.
-/
import ChatOps.Text.Utf8
import Mathlib.Tactic.SplitIfs

namespace ChatOps.Text

/-! ## The forms of a character -/

/-- The lead octet `a` asks for so many octets after it, and `b` may be the first of them. -/
def Leads (count : Nat) (a b : UInt8) : Prop :=
  ∃ least greatest, tail? a = some (count, least, greatest) ∧ least ≤ b ∧ b ≤ greatest

/-- The octets of a character, by their number. -/
inductive Form : List UInt8 → Char → Prop
  | one {a : UInt8} : a < 0x80 → Form [a] (Char.ofNat a.toNat)
  | two {a b : UInt8} : Leads 1 a b → Form [a, b] (Char.ofNat (a.toNat % 0x20 * 0x40 + low6 b))
  | three {a b c : UInt8} : Leads 2 a b → isContinuation c = true →
      Form [a, b, c] (Char.ofNat (a.toNat % 0x10 * 0x1000 + low6 b * 0x40 + low6 c))
  | four {a b c d : UInt8} : Leads 3 a b → isContinuation c = true → isContinuation d = true →
      Form [a, b, c, d]
        (Char.ofNat (a.toNat % 0x08 * 0x40000 + low6 b * 0x1000 + low6 c * 0x40 + low6 d))

/-- The table of lead octets in numbers: the length of each form, and its second octet. -/
theorem leads_iff {count : Nat} {a b : UInt8} :
    Leads count a b ↔ 0x80 ≤ b.toNat ∧ b.toNat ≤ 0xBF ∧
      (count = 1 ∧ 0xC2 ≤ a.toNat ∧ a.toNat ≤ 0xDF ∨
      count = 2 ∧ 0xE0 ≤ a.toNat ∧ a.toNat ≤ 0xEF ∧ (a.toNat = 0xE0 → 0xA0 ≤ b.toNat) ∧
        (a.toNat = 0xED → b.toNat ≤ 0x9F) ∨
      count = 3 ∧ 0xF0 ≤ a.toNat ∧ a.toNat ≤ 0xF4 ∧ (a.toNat = 0xF0 → 0x90 ≤ b.toNat) ∧
        (a.toNat = 0xF4 → b.toNat ≤ 0x8F)) := by
  unfold Leads tail?
  simp only [UInt8.le_iff_toNat_le, ← UInt8.toNat_inj, UInt8.toNat_ofNat]
  constructor
  · rintro ⟨least, greatest, h, hl, hg⟩
    split_ifs at h
    all_goals
      cases h
      simp only [UInt8.toNat_ofNat] at hl hg
      omega
  · rintro ⟨hb, hb', h⟩
    split_ifs
    all_goals
      rcases h with ⟨rfl, h⟩ | ⟨rfl, h⟩ | ⟨rfl, h⟩
      -- the rows of another length do not apply to this lead octet
      all_goals try omega
      all_goals
        refine ⟨_, _, rfl, ?_, ?_⟩
        all_goals
          simp only [UInt8.toNat_ofNat]
          omega

theorem not_lt_of_leads {count : Nat} {a b : UInt8} (h : Leads count a b) : ¬ a < 0x80 := by
  rw [leads_iff] at h
  simp only [UInt8.lt_iff_toNat_lt, UInt8.toNat_ofNat]
  omega

theorem isContinuation_iff {b : UInt8} :
    isContinuation b = true ↔ 0x80 ≤ b.toNat ∧ b.toNat ≤ 0xBF := by
  simp only [isContinuation, Bool.and_eq_true, decide_eq_true_eq, UInt8.le_iff_toNat_le,
    UInt8.toNat_ofNat]

/-! ## Writing -/

theorem toNat_ofNat {n : Nat} (h : n.isValidChar) : (Char.ofNat n).toNat = n := by
  rw [Char.ofNat, dif_pos h]
  rfl

theorem ofNat_eq_iff {n : Nat} {a : UInt8} : UInt8.ofNat n = a ↔ n % 256 = a.toNat := by
  rw [← UInt8.toNat_inj, UInt8.toNat_ofNat']

/-- A form is the one that is written. -/
theorem Form.encode {os : List UInt8} {c : Char} (h : Form os c) :
    String.utf8EncodeChar c = os := by
  cases h with
  | @one a h =>
    simp only [UInt8.lt_iff_toNat_lt, UInt8.toNat_ofNat] at h
    simp only [String.utf8EncodeChar, Char.toNat_val, toNat_ofNat (n := a.toNat) (.inl (by omega))]
    rw [if_pos (by omega), UInt8.ofNat_toNat]
  | @two a b h =>
    rw [leads_iff] at h
    have hv : (a.toNat % 0x20 * 0x40 + low6 b).isValidChar := by
      unfold low6 Nat.isValidChar; omega
    simp only [String.utf8EncodeChar, Char.toNat_val, toNat_ofNat hv]
    unfold low6
    rw [if_neg (by omega), if_pos (by omega)]
    simp only [List.cons.injEq, ofNat_eq_iff, and_true]
    omega
  | @three a b c h hc =>
    rw [leads_iff] at h
    rw [isContinuation_iff] at hc
    have hv : (a.toNat % 0x10 * 0x1000 + low6 b * 0x40 + low6 c).isValidChar := by
      unfold low6 Nat.isValidChar; omega
    simp only [String.utf8EncodeChar, Char.toNat_val, toNat_ofNat hv]
    unfold low6
    rw [if_neg (by omega), if_neg (by omega), if_pos (by omega)]
    simp only [List.cons.injEq, ofNat_eq_iff, and_true]
    omega
  | @four a b c d h hc hd =>
    rw [leads_iff] at h
    rw [isContinuation_iff] at hc hd
    have hv : (a.toNat % 0x08 * 0x40000 + low6 b * 0x1000 + low6 c * 0x40 + low6 d).isValidChar := by
      unfold low6 Nat.isValidChar; omega
    simp only [String.utf8EncodeChar, Char.toNat_val, toNat_ofNat hv]
    unfold low6
    rw [if_neg (by omega), if_neg (by omega), if_neg (by omega)]
    simp only [List.cons.injEq, ofNat_eq_iff, and_true]
    omega

/-- What is written for a character is one of its forms. -/
theorem form_encode (c : Char) : Form (String.utf8EncodeChar c) c := by
  have hv := c.valid
  have key : ∀ {os : List UInt8} {n : Nat}, n = c.val.toNat → Form os (Char.ofNat n) → Form os c := by
    rintro os _ rfl h
    rwa [show Char.ofNat c.val.toNat = c from Char.ofNat_toNat c] at h
  unfold UInt32.isValidChar Nat.isValidChar at hv
  unfold String.utf8EncodeChar
  dsimp only
  generalize hn : c.val.toNat = n at hv key ⊢
  split_ifs
  · refine key ?_ (.one ?_)
    · simp only [UInt8.toNat_ofNat']; omega
    · simp only [UInt8.lt_iff_toNat_lt, UInt8.toNat_ofNat', UInt8.toNat_ofNat]; omega
  · refine key ?_ (.two ?_)
    · simp only [low6, UInt8.toNat_ofNat']; omega
    · rw [leads_iff, UInt8.toNat_ofNat', UInt8.toNat_ofNat']; omega
  · refine key ?_ (.three ?_ ?_)
    · simp only [low6, UInt8.toNat_ofNat']; omega
    · rw [leads_iff, UInt8.toNat_ofNat', UInt8.toNat_ofNat']; omega
    · simp only [isContinuation_iff, UInt8.toNat_ofNat']; omega
  · refine key ?_ (.four ?_ ?_ ?_)
    · simp only [low6, UInt8.toNat_ofNat']; omega
    · rw [leads_iff, UInt8.toNat_ofNat', UInt8.toNat_ofNat']; omega
    · simp only [isContinuation_iff, UInt8.toNat_ofNat']; omega
    · simp only [isContinuation_iff, UInt8.toNat_ofNat']; omega

/-- Octets below 0x80 stand for themselves alone. -/
theorem eq_ofNat_of_mem_encode {b : UInt8} {c : Char} (h : b ∈ String.utf8EncodeChar c)
    (hb : b < 0x80) : c = Char.ofNat b.toNat := by
  have hcontinuation : ∀ {a : UInt8}, isContinuation a = true → ¬ a < 0x80 := by
    intro a ha
    rw [isContinuation_iff] at ha
    simp only [UInt8.lt_iff_toNat_lt, UInt8.toNat_ofNat]
    omega
  have hsecond : ∀ {count : Nat} {a b : UInt8}, Leads count a b → ¬ b < 0x80 := by
    intro count a b hl
    rw [leads_iff] at hl
    simp only [UInt8.lt_iff_toNat_lt, UInt8.toNat_ofNat]
    omega
  have hform := form_encode c
  generalize String.utf8EncodeChar c = octets at h hform
  cases hform with
  | one => rw [List.mem_singleton.1 h]
  | two hl =>
    simp only [List.mem_cons, List.not_mem_nil, or_false] at h
    rcases h with rfl | rfl
    · exact absurd hb (not_lt_of_leads hl)
    · exact absurd hb (hsecond hl)
  | three hl hc =>
    simp only [List.mem_cons, List.not_mem_nil, or_false] at h
    rcases h with rfl | rfl | rfl
    · exact absurd hb (not_lt_of_leads hl)
    · exact absurd hb (hsecond hl)
    · exact absurd hb (hcontinuation hc)
  | four hl hc hd =>
    simp only [List.mem_cons, List.not_mem_nil, or_false] at h
    rcases h with rfl | rfl | rfl | rfl
    · exact absurd hb (not_lt_of_leads hl)
    · exact absurd hb (hsecond hl)
    · exact absurd hb (hcontinuation hc)
    · exact absurd hb (hcontinuation hd)

theorem mem_of_mem_encodeUtf8 {b : UInt8} {s : String} (h : b ∈ encodeUtf8 s) (hb : b < 0x80) :
    Char.ofNat b.toNat ∈ s.toList := by
  obtain ⟨c, hc, hmem⟩ := List.mem_flatMap.1 h
  rwa [← eq_ofNat_of_mem_encode hmem hb]

/-! ## Reading -/

/-- A form in front of other octets is read as its character. -/
theorem Form.decodeFrom_append {os : List UInt8} {c : Char} (h : Form os c) (position : Nat)
    (rest : List UInt8) :
    decodeFrom position (os ++ rest) = (decodeFrom (position + os.length) rest).map (c :: ·) := by
  cases h with
  | one h =>
    rw [List.singleton_append, decodeFrom.eq_def]
    simp [h]
  | two h =>
    have ha := not_lt_of_leads h
    obtain ⟨least, greatest, ht, hb⟩ := h
    rw [List.cons_append, List.cons_append, decodeFrom.eq_def]
    simp [ha, ht, hb]
  | three h hc =>
    have ha := not_lt_of_leads h
    obtain ⟨least, greatest, ht, hb⟩ := h
    rw [List.cons_append, List.cons_append, List.cons_append, decodeFrom.eq_def]
    simp [ha, ht, hb, hc]
  | four h hc hd =>
    have ha := not_lt_of_leads h
    obtain ⟨least, greatest, ht, hb⟩ := h
    rw [List.cons_append, List.cons_append, List.cons_append, List.cons_append, decodeFrom.eq_def]
    simp [ha, ht, hb, hc, hd]

theorem map_cons_eq_ok {ε : Type} {x : Except ε (List Char)} {c : Char} {cs : List Char}
    (h : x.map (c :: ·) = .ok cs) : ∃ ds, x = .ok ds ∧ cs = c :: ds := by
  cases x with
  | error e => cases h
  | ok ds => cases h; exact ⟨ds, rfl, rfl⟩

/-- Octets that are read are the forms of the characters, one after another. -/
theorem eq_flatMap_of_decodeFrom {position : Nat} {octets : List UInt8} {cs : List Char}
    (h : decodeFrom position octets = .ok cs) : octets = cs.flatMap String.utf8EncodeChar := by
  have step : ∀ {os rest : List UInt8} {c : Char} {x : Except Utf8Fault (List Char)} {cs : List Char},
      Form os c → x.map (c :: ·) = .ok cs →
      (∀ ds, x = .ok ds → rest = ds.flatMap String.utf8EncodeChar) →
      os ++ rest = cs.flatMap String.utf8EncodeChar := by
    intro os rest c x cs hf hx ih
    obtain ⟨ds, hds, rfl⟩ := map_cons_eq_ok hx
    rw [List.flatMap_cons, hf.encode, ← ih ds hds]
  fun_induction decodeFrom position octets generalizing cs with
  | case1 => cases h; rfl
  | case2 position a rest ha ih => exact step (.one ha) h fun ds => ih
  | case6 =>
    rename_i least greatest _ _ hb _ ht ih
    exact step (.two ⟨least, greatest, ht, Decidable.not_not.1 hb⟩) h fun ds => ih
  | case9 =>
    rename_i least greatest _ hb _ _ hc _ ht _ ih
    exact step (.three ⟨least, greatest, ht, Decidable.not_not.1 hb⟩ (Decidable.not_not.1 hc)) h fun ds => ih
  | case12 =>
    rename_i a _ count least greatest b ht hb _ _ hc _ _ _ hd _ ih
    -- the lengths one and two are excluded, so the form has four octets
    have hl : Leads count a b := ⟨least, greatest, ht, Decidable.not_not.1 hb⟩
    have h3 : count = 3 := by
      have := leads_iff.1 hl
      omega
    exact step (.four (h3 ▸ hl) (Decidable.not_not.1 hc) (Decidable.not_not.1 hd)) h fun ds => ih
  | _ => cases h

theorem decodeFrom_flatMap (position : Nat) (cs : List Char) :
    decodeFrom position (cs.flatMap String.utf8EncodeChar) = .ok cs := by
  induction cs generalizing position with
  | nil => rfl
  | cons c cs ih =>
    rw [List.flatMap_cons, (form_encode c).decodeFrom_append, ih]
    rfl

/-- Octets are read as a text exactly when they are what is written for it. -/
theorem decodeUtf8_eq_ok_iff {octets : List UInt8} {cs : List Char} :
    decodeUtf8 octets = .ok cs ↔ octets = encodeUtf8 (String.ofList cs) := by
  rw [encodeUtf8, String.toList_ofList]
  constructor
  · exact eq_flatMap_of_decodeFrom
  · rintro rfl
    exact decodeFrom_flatMap 0 cs

end ChatOps.Text
