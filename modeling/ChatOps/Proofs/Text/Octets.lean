/-
Heads of a text, octet by octet. An octet of a longer form is never a letter, so folding the case of
ASCII letters octet by octet is folding it character by character, and octets that agree with those
of a head end where a character ends. It makes no difference whether a head is taken off a text by
its octets or by its characters.
-/
import ChatOps.Proofs.Text.Case
import ChatOps.Proofs.Text.Utf8
import ChatOps.Text.AsciiCase

namespace ChatOps.Text

/-- An octet that is an ASCII letter in lowercase, any other as it is. -/
def foldOctet (b : UInt8) : UInt8 := if 0x41 ≤ b ∧ b ≤ 0x5A then b + 0x20 else b

/-- What is left of a text behind as many octets as a head has. These must end where a character
ends, and be the octets of the head but for the case of ASCII letters. -/
def dropOctets? (head text : String) : Option String :=
  let size := (encodeUtf8 head).length
  let front := (encodeUtf8 text).take size
  match decodeUtf8 front, decodeUtf8 ((encodeUtf8 text).drop size) with
  | .ok _, .ok rest =>
    if front.map foldOctet = (encodeUtf8 head).map foldOctet then some (String.ofList rest) else none
  | _, _ => none

/-! ## Octets of a text -/

theorem encodeUtf8_inj {s t : String} (h : encodeUtf8 s = encodeUtf8 t) : s = t := by
  have hread : decodeUtf8 (encodeUtf8 s) = .ok s.toList :=
    decodeUtf8_eq_ok_iff.2 (by rw [String.ofList_toList])
  have hread' : decodeUtf8 (encodeUtf8 t) = .ok t.toList :=
    decodeUtf8_eq_ok_iff.2 (by rw [String.ofList_toList])
  rw [h, hread', Except.ok.injEq] at hread
  exact (String.toList_inj.1 hread).symm

/-! ## Case -/

/-- Folding the octets of a character is folding the character. -/
theorem map_foldOctet_encode (c : Char) :
    (String.utf8EncodeChar c).map foldOctet = String.utf8EncodeChar c.toLower := by
  by_cases h : 0x41 ≤ c.toNat ∧ c.toNat ≤ 0x5A
  · have hupper : ∀ n < 0x5B, 0x41 ≤ n → (String.utf8EncodeChar (Char.ofNat n)).map foldOctet =
        String.utf8EncodeChar (Char.ofNat n).toLower := by
      decide +kernel
    have hc := hupper c.toNat (by omega) h.1
    rwa [Char.ofNat_toNat] at hc
  · have hlower : c.toLower = c := Char.toNat_inj.1 (by rw [toNat_toLower, if_neg h])
    rw [hlower]
    -- an octet that is an uppercase letter would stand for itself, and the character is none
    have hsame : ∀ b ∈ String.utf8EncodeChar c, foldOctet b = b := by
      intro b hb
      refine if_neg fun hletter => h ?_
      simp only [UInt8.le_iff_toNat_le, UInt8.toNat_ofNat] at hletter
      have hbelow : b < 0x80 := by
        simp only [UInt8.lt_iff_toNat_lt, UInt8.toNat_ofNat]
        omega
      rw [eq_ofNat_of_mem_encode hb hbelow, toNat_ofNat (.inl (by omega))]
      exact hletter
    exact (List.map_congr_left hsame).trans (List.map_id _)

/-- Folding the octets of a text is folding the text. -/
theorem map_foldOctet_encodeUtf8 (s : String) :
    (encodeUtf8 s).map foldOctet = encodeUtf8 (String.ofList (foldCase s.toList)) := by
  rw [encodeUtf8, encodeUtf8, String.toList_ofList, foldCase, List.flatMap_map, List.map_flatMap]
  simp only [map_foldOctet_encode]

theorem map_foldOctet_eq_iff {s t : String} :
    (encodeUtf8 s).map foldOctet = (encodeUtf8 t).map foldOctet ↔
      foldCase s.toList = foldCase t.toList := by
  rw [map_foldOctet_encodeUtf8, map_foldOctet_encodeUtf8]
  constructor
  · intro h
    exact String.ofList_inj.1 (encodeUtf8_inj h)
  · intro h
    rw [h]

/-! ## Heads -/

/-- A head is taken off a text by its octets exactly as it is by its characters. -/
theorem dropOctets?_eq (head text : String) :
    dropOctets? head text = (dropHead? head.toList text.toList).map String.ofList := by
  ext rest
  rw [Option.map_eq_some_iff]
  constructor
  · intro h
    unfold dropOctets? at h
    dsimp only at h
    split at h
    · rename_i front back hfront hback
      rw [decodeUtf8_eq_ok_iff] at hfront hback
      rw [Option.ite_none_right_eq_some, Option.some.injEq, hfront, map_foldOctet_eq_iff,
        String.toList_ofList] at h
      obtain ⟨hfold, rfl⟩ := h
      refine ⟨back, dropHead?_eq_some_iff.2 ⟨front, ?_, hfold⟩, rfl⟩
      have htext : text = String.ofList front ++ String.ofList back := by
        refine encodeUtf8_inj ?_
        rw [encodeUtf8_append, ← hfront, ← hback, List.take_append_drop]
      rw [htext, String.toList_append, String.toList_ofList, String.toList_ofList]
    · cases h
  · rintro ⟨back, hdrop, rfl⟩
    obtain ⟨front, htext, hfold⟩ := dropHead?_eq_some_iff.1 hdrop
    have hoctets : (encodeUtf8 (String.ofList front)).map foldOctet =
        (encodeUtf8 head).map foldOctet := by
      rw [map_foldOctet_eq_iff, String.toList_ofList, hfold]
    have hsize : (encodeUtf8 (String.ofList front)).length = (encodeUtf8 head).length := by
      have := congrArg List.length hoctets
      rwa [List.length_map, List.length_map] at this
    have hencode : encodeUtf8 text =
        encodeUtf8 (String.ofList front) ++ encodeUtf8 (String.ofList back) := by
      rw [← encodeUtf8_append, ← String.ofList_append, ← htext, String.ofList_toList]
    unfold dropOctets?
    dsimp only
    rw [hencode, ← hsize, List.take_left, List.drop_left, decodeUtf8_eq_ok_iff.2 rfl,
      decodeUtf8_eq_ok_iff.2 rfl]
    exact if_pos hoctets

end ChatOps.Text
