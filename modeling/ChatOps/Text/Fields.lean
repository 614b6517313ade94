/-
Fields: the pieces of a list between its separators. There is always one more field than there are
separators, no field holds a separator, and the fields with the separators between them are the
list again.
-/
namespace ChatOps.Text

variable {α : Type}

/-- The pieces between the elements that satisfy `sep`. -/
def fields (sep : α → Bool) : List α → List (List α)
  | [] => [[]]
  | a :: as => if sep a then [] :: fields sep as else (fields sep as).modifyHead (a :: ·)

theorem fields_ne_nil (sep : α → Bool) (as : List α) : fields sep as ≠ [] := by
  induction as with
  | nil => simp [fields]
  | cons a as ih =>
    unfold fields
    split
    · simp
    · cases h : fields sep as with
      | nil => exact absurd h ih
      | cons f fs => simp

theorem length_fields (sep : α → Bool) (as : List α) :
    (fields sep as).length = as.countP sep + 1 := by
  induction as with
  | nil => simp [fields]
  | cons a as ih =>
    unfold fields
    split
    · rename_i h; simp [ih, h]
    · rename_i h; simp [ih, h]

/-- No field holds a separator. -/
theorem not_sep_of_mem_fields (sep : α → Bool) (as : List α) :
    ∀ f ∈ fields sep as, ∀ a ∈ f, sep a = false := by
  induction as with
  | nil => simp [fields]
  | cons a as ih =>
    unfold fields
    split
    · intro f hf
      rcases List.mem_cons.1 hf with rfl | hf
      · simp
      · exact ih f hf
    · rename_i h
      cases hfs : fields sep as with
      | nil => exact absurd hfs (fields_ne_nil sep as)
      | cons g gs =>
        intro f hf
        rw [hfs] at ih
        simp only [List.modifyHead_cons, List.mem_cons] at hf
        rcases hf with rfl | hf
        · intro b hb
          rcases List.mem_cons.1 hb with rfl | hb
          · simpa using h
          · exact ih g (by simp) b hb
        · exact ih f (by simp [hf])

/-- A list without separators is its only field. -/
theorem fields_of_no_sep {sep : α → Bool} {as : List α} (h : ∀ a ∈ as, sep a = false) :
    fields sep as = [as] := by
  induction as with
  | nil => rfl
  | cons a as ih =>
    rw [fields, h a (by simp), ih fun b hb => h b (by simp [hb])]
    rfl

/-- The first separator ends the first field. -/
theorem fields_append_sep {sep : α → Bool} {as : List α} (h : ∀ a ∈ as, sep a = false) {s : α}
    (hs : sep s = true) (bs : List α) : fields sep (as ++ s :: bs) = as :: fields sep bs := by
  induction as with
  | nil => simp [fields, hs]
  | cons a as ih =>
    rw [List.cons_append, fields, h a (by simp), ih fun b hb => h b (by simp [hb])]
    rfl

/-- The fields around one separator, joined by it, are the list again. -/
theorem intercalate_fields [DecidableEq α] (s : α) (as : List α) :
    [s].intercalate (fields (· == s) as) = as := by
  induction as with
  | nil => simp [fields, List.intercalate]
  | cons a as ih =>
    cases hfs : fields (· == s) as with
    | nil => exact absurd hfs (fields_ne_nil _ as)
    | cons g gs =>
      rw [hfs] at ih
      unfold fields
      split
      · rename_i h
        rw [hfs, show s = a from (beq_iff_eq.1 h).symm]
        rw [show s = a from (beq_iff_eq.1 h).symm] at ih
        simpa [List.intercalate] using ih
      · rw [hfs]
        cases gs <;> simpa [List.intercalate] using ih

/-- Lists without the separator, joined by it, have just these fields. -/
theorem fields_intercalate [DecidableEq α] {s : α} {ls : List (List α)} (hne : ls ≠ [])
    (h : ∀ l ∈ ls, s ∉ l) : fields (· == s) ([s].intercalate ls) = ls := by
  induction ls with
  | nil => exact absurd rfl hne
  | cons l ls ih =>
    rw [List.forall_mem_cons] at h
    have hl : ∀ a ∈ l, (a == s) = false := by
      intro a ha
      rw [beq_eq_false_iff_ne]
      rintro rfl
      exact h.1 ha
    cases ls with
    | nil => rw [List.intercalate_singleton, fields_of_no_sep hl]
    | cons l' ls =>
      rw [List.intercalate_cons_cons, List.append_assoc, List.singleton_append,
        fields_append_sep hl (beq_self_eq_true s), ih (List.cons_ne_nil l' ls) h.2]

end ChatOps.Text
