/-
Comparing without regard to the case of ASCII letters. Every other character is compared as it is.
-/
namespace ChatOps.Text

/-- A text with its ASCII letters in lowercase. -/
def foldCase (cs : List Char) : List Char := cs.map Char.toLower

/-- Two strings are equal but for the case of ASCII letters. -/
def sameIgnoringCase (s t : String) : Bool := foldCase s.toList == foldCase t.toList

theorem sameIgnoringCase_iff {s t : String} :
    sameIgnoringCase s t = true ↔ foldCase s.toList = foldCase t.toList := beq_iff_eq

@[simp] theorem sameIgnoringCase_refl (s : String) : sameIgnoringCase s s = true :=
  sameIgnoringCase_iff.2 rfl

theorem sameIgnoringCase_symm {s t : String} (h : sameIgnoringCase s t = true) :
    sameIgnoringCase t s = true :=
  sameIgnoringCase_iff.2 (sameIgnoringCase_iff.1 h).symm

theorem sameIgnoringCase_trans {s t u : String} (h : sameIgnoringCase s t = true)
    (h' : sameIgnoringCase t u = true) : sameIgnoringCase s u = true :=
  sameIgnoringCase_iff.2 ((sameIgnoringCase_iff.1 h).trans (sameIgnoringCase_iff.1 h'))

/-- What is left of a text after a head given up to the case of ASCII letters. -/
def dropHead? : List Char → List Char → Option (List Char)
  | [], cs => some cs
  | _ :: _, [] => none
  | h :: hs, c :: cs => if h.toLower = c.toLower then dropHead? hs cs else none

theorem dropHead?_eq_some_iff {head cs rest : List Char} :
    dropHead? head cs = some rest ↔ ∃ h, cs = h ++ rest ∧ foldCase h = foldCase head := by
  induction head generalizing cs with
  | nil =>
    constructor
    · intro h; exact ⟨[], by simpa [dropHead?] using h, rfl⟩
    · rintro ⟨h, rfl, hh⟩
      have : h = [] := by simpa [foldCase] using hh
      simp [this, dropHead?]
  | cons a head ih =>
    cases cs with
    | nil =>
      simp only [dropHead?, reduceCtorEq, false_iff]
      rintro ⟨h, hnil, hh⟩
      have : h = [] := (List.append_eq_nil_iff.1 hnil.symm).1
      simp [this, foldCase] at hh
    | cons c cs =>
      simp only [dropHead?]
      constructor
      · intro h
        split at h
        · rename_i hac
          obtain ⟨h', rfl, hh⟩ := ih.1 h
          exact ⟨c :: h', rfl, by simp only [foldCase, List.map_cons] at hh ⊢; rw [hh, hac]⟩
        · cases h
      · rintro ⟨h', hcs, hh⟩
        cases h' with
        | nil => simp [foldCase] at hh
        | cons d h' =>
          simp only [foldCase, List.map_cons, List.cons.injEq, List.cons_append] at hh hcs
          obtain ⟨rfl, rfl⟩ := hcs
          rw [if_pos hh.1.symm]
          exact ih.2 ⟨h', rfl, hh.2⟩

end ChatOps.Text
