/-
Case and blanks. Folding the case of a text, be it of its ASCII letters or of all letters, makes no
character blank and no blank anything else. So a text is a word when it agrees with a word but for
case.
-/
import ChatOps.Proofs.Text.Utf8
import ChatOps.Text.AsciiCase
import ChatOps.Text.Lowercase
import ChatOps.Text.Words

namespace ChatOps

open Text

/-! ## ASCII letters -/

theorem isUpper_iff_toNat {c : Char} : c.isUpper = true ↔ 0x41 ≤ c.toNat ∧ c.toNat ≤ 0x5A :=
  decide_eq_true_iff (p := c.val ≥ 'A'.val ∧ c.val ≤ 'Z'.val)

theorem isLower_iff_toNat {c : Char} : c.isLower = true ↔ 0x61 ≤ c.toNat ∧ c.toNat ≤ 0x7A := by
  show (decide (c.val ≥ 'a'.val) && decide (c.val ≤ 'z'.val)) = true ↔ _
  rw [Bool.and_eq_true, decide_eq_true_eq, decide_eq_true_eq]
  rfl

theorem isAlpha_iff_toNat {c : Char} : c.isAlpha = true ↔
    (0x41 ≤ c.toNat ∧ c.toNat ≤ 0x5A) ∨ (0x61 ≤ c.toNat ∧ c.toNat ≤ 0x7A) := by
  rw [← isUpper_iff_toNat, ← isLower_iff_toNat]
  exact Bool.or_eq_true_iff

/-- The small letters stand 0x20 behind the capital ones. -/
theorem toNat_toLower (c : Char) : c.toLower.toNat =
    if 0x41 ≤ c.toNat ∧ c.toNat ≤ 0x5A then c.toNat + 0x20 else c.toNat := by
  unfold Char.toLower
  split
  · rename_i h
    have hupper : 0x41 ≤ c.toNat ∧ c.toNat ≤ 0x5A := h
    rw [if_pos hupper]
    show (c.val + 0x20).toNat = _
    rw [UInt32.toNat_add, Char.toNat_val, show (0x20 : UInt32).toNat = 0x20 from rfl]
    omega
  · rename_i h
    exact (if_neg h).symm

theorem isBlank_eq_false_of_isAlpha {c : Char} (h : c.isAlpha = true) : isBlank c = false := by
  rw [isAlpha_iff_toNat] at h
  simp only [isBlank, Bool.or_eq_false_iff, Bool.and_eq_false_iff, beq_eq_false_iff_ne,
    decide_eq_false_iff_not]
  omega

theorem isAlpha_toLower (c : Char) : c.toLower.isAlpha = c.isAlpha := by
  rw [Bool.eq_iff_iff, isAlpha_iff_toNat, isAlpha_iff_toNat, toNat_toLower]
  split
  · omega
  · rfl

/-- Case is a matter of letters. -/
theorem toLower_of_not_isAlpha {c : Char} (h : c.isAlpha = false) : c.toLower = c := by
  rw [← Char.toNat_inj, toNat_toLower]
  refine if_neg fun hupper => ?_
  rw [isAlpha_iff_toNat.2 (.inl hupper)] at h
  cases h

/-- A character that is no letter is the lowercase of itself alone. -/
theorem toLower_eq_iff {c d : Char} (hd : d.isAlpha = false) : c.toLower = d ↔ c = d := by
  constructor
  · rintro rfl
    rw [isAlpha_toLower] at hd
    exact (toLower_of_not_isAlpha hd).symm
  · rintro rfl
    exact toLower_of_not_isAlpha hd

theorem isBlank_toLower (c : Char) : isBlank c.toLower = isBlank c := by
  cases h : c.isAlpha with
  | true =>
    rw [isBlank_eq_false_of_isAlpha h,
      isBlank_eq_false_of_isAlpha ((isAlpha_toLower c).trans h)]
  | false => rw [toLower_of_not_isAlpha h]

/-- Whether a text holds blanks does not depend on its case. -/
theorem no_blank_of_foldCase {cs ds : List Char} (h : foldCase cs = foldCase ds)
    (hd : ∀ d ∈ ds, isBlank d = false) : ∀ c ∈ cs, isBlank c = false := by
  intro c hc
  have hmem : c.toLower ∈ foldCase ds := by
    rw [← h]
    exact List.mem_map_of_mem hc
  obtain ⟨d, hmem, hcd⟩ := List.mem_map.1 hmem
  rw [← isBlank_toLower, ← hcd, isBlank_toLower]
  exact hd d hmem

/-- A text that agrees with a word but for the case of ASCII letters is a word. -/
theorem isWord_of_foldCase {cs ds : List Char} (h : foldCase cs = foldCase ds) (hd : IsWord ds) :
    IsWord cs := by
  refine ⟨?_, no_blank_of_foldCase h hd.2⟩
  rintro rfl
  exact hd.1 (List.map_eq_nil_iff.1 h.symm)

/-! ## All letters -/

namespace Text

/-- The code points of the blank characters. -/
def blankCodes : List Nat :=
  [0x09, 0x0A, 0x0B, 0x0C, 0x0D, 0x20, 0x85, 0xA0, 0x1680, 0x2000, 0x2001, 0x2002, 0x2003, 0x2004,
    0x2005, 0x2006, 0x2007, 0x2008, 0x2009, 0x200A, 0x2028, 0x2029, 0x202F, 0x205F, 0x3000]

theorem isBlank_iff_mem {c : Char} : isBlank c = true ↔ c.toNat ∈ blankCodes := by
  simp only [isBlank, Bool.or_eq_true, Bool.and_eq_true, decide_eq_true_eq, beq_iff_eq, blankCodes,
    List.mem_cons, List.not_mem_nil, or_false]
  omega

/-- A code point in a run moves to one between the lowercase of the first and that of the last. -/
theorem inRun_bounds {n m : Nat} {run : Nat × Nat × Nat × Nat} (h : inRun n run = some m) :
    run.1 ≤ n ∧ n ≤ run.2.1 ∧ m = run.2.2.2 + (n - run.1) := by
  obtain ⟨first, last, step, target⟩ := run
  rw [inRun] at h
  split at h
  · rename_i hn
    cases h
    exact ⟨hn.1, hn.2.1, rfl⟩
  · cases h

/-- No run holds a blank, and none leads to one. -/
theorem lowercaseRuns_blankCodes : ∀ run ∈ lowercaseRuns, ∀ code ∈ blankCodes,
    (code < run.1 ∨ run.2.1 < code) ∧
      (code < run.2.2.2 ∨ run.2.2.2 + (run.2.1 - run.1) < code) := by
  decide +kernel

theorem lowercaseCode_mem_iff {n : Nat} : lowercaseCode n ∈ blankCodes ↔ n ∈ blankCodes := by
  rw [lowercaseCode]
  cases hrun : lowercaseRuns.findSome? (inRun n) with
  | none => rw [Option.getD_none]
  | some m =>
    obtain ⟨run, hmem, hm⟩ := List.exists_of_findSome?_eq_some hrun
    obtain ⟨hfirst, hlast, rfl⟩ := inRun_bounds hm
    have hno := lowercaseRuns_blankCodes run hmem
    rw [Option.getD_some]
    constructor
    · intro h
      have := (hno _ h).2
      omega
    · intro h
      have := (hno _ h).1
      omega

theorem isBlank_ofNat_lowercaseCode (c : Char) :
    isBlank (Char.ofNat (lowercaseCode c.toNat)) = isBlank c := by
  rw [Bool.eq_iff_iff, isBlank_iff_mem, isBlank_iff_mem, ← lowercaseCode_mem_iff (n := c.toNat)]
  generalize lowercaseCode c.toNat = m
  by_cases hm : m.isValidChar
  · rw [toNat_ofNat hm]
  · have h0 : (Char.ofNat m).toNat ∉ blankCodes := by
      rw [Char.ofNat, dif_neg hm]
      decide
    refine iff_of_false h0 fun hmem => hm ?_
    have hsmall : ∀ code ∈ blankCodes, code < 0xD800 := by decide
    exact .inl (hsmall m hmem)

/-- The lowercase of a character holds a blank only if the character is one. -/
theorem no_blank_lowerChar_iff {c : Char} :
    (∀ d ∈ lowerChar c, isBlank d = false) ↔ isBlank c = false := by
  unfold lowerChar
  split
  · rw [List.forall_mem_singleton, isBlank_toLower]
  · split
    · rename_i h
      subst h
      simp [isBlank]
    · rw [List.forall_mem_singleton, isBlank_ofNat_lowercaseCode]

theorem lowerChar_ne_nil (c : Char) : lowerChar c ≠ [] := by
  unfold lowerChar
  split
  · exact List.cons_ne_nil _ _
  · split
    · exact List.cons_ne_nil _ _
    · exact List.cons_ne_nil _ _

theorem no_blank_lowerAfter_iff {before cs : List Char} :
    (∀ d ∈ lowerAfter before cs, isBlank d = false) ↔ ∀ c ∈ cs, isBlank c = false := by
  induction cs generalizing before with
  | nil => exact iff_of_true (fun d h => nomatch h) (fun c h => nomatch h)
  | cons c cs ih =>
    rw [lowerAfter, List.forall_mem_append, ih, List.forall_mem_cons]
    refine and_congr_left fun _ => ?_
    split
    · -- neither form of the small sigma is blank, nor is the capital
      rename_i h
      subst h
      split
      · simp [isBlank]
      · simp [isBlank]
    · exact no_blank_lowerChar_iff

theorem lower_eq_nil_iff {cs : List Char} : lower cs = [] ↔ cs = [] := by
  cases cs with
  | nil => exact iff_of_true rfl rfl
  | cons c cs =>
    refine iff_of_false (fun h => ?_) (List.cons_ne_nil c cs)
    rw [lower, lowerAfter, List.append_eq_nil_iff] at h
    have hc := h.1
    split at hc
    · split at hc
      · cases hc
      · cases hc
    · exact lowerChar_ne_nil c hc

theorem isWord_lower_iff {cs : List Char} : IsWord (lower cs) ↔ IsWord cs := by
  rw [IsWord, IsWord, ne_eq, lower_eq_nil_iff, lower, no_blank_lowerAfter_iff]

/-- A name that agrees with a word but for case is a word. -/
theorem isWord_of_lowercase {s t : String} (h : lowercase s = lowercase t)
    (ht : IsWord t.toList) : IsWord s.toList := by
  rw [← isWord_lower_iff, ← toList_lowercase, h, toList_lowercase, isWord_lower_iff]
  exact ht

end Text

end ChatOps
