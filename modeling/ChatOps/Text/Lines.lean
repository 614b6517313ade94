/-
Lines of octets. A line is everything up to and with the next line feed; the last one may lack it.
-/
namespace ChatOps.Text

/-- The lines of an input, each with the line feed that ends it. -/
def lines : List UInt8 → List (List UInt8)
  | [] => []
  | b :: bs =>
    if b = 10 then [b] :: lines bs
    else match lines bs with
      | [] => [[b]]
      | l :: ls => (b :: l) :: ls

/-- Nothing is lost between the lines. -/
theorem flatten_lines (bs : List UInt8) : (lines bs).flatten = bs := by
  induction bs with
  | nil => rfl
  | cons b bs ih =>
    unfold lines
    split
    · simp [ih]
    · split
      · rename_i h; rw [h] at ih; simpa using ih
      · rename_i h; rw [h] at ih; simpa using ih

/-- An input that ends with a line feed, or none at all, shares no line with what follows. -/
theorem lines_append {as : List UInt8} (h : as = [] ∨ as.getLast? = some 10) (bs : List UInt8) :
    lines (as ++ bs) = lines as ++ lines bs := by
  induction as with
  | nil => rfl
  | cons a as ih =>
    by_cases ha : a = 10
    · have : as = [] ∨ as.getLast? = some 10 := by
        cases as with
        | nil => exact .inl rfl
        | cons c cs => right; simpa using h
      simp [lines, ha, ih this]
    · have has : as ≠ [] := by
        rintro rfl
        simp [ha] at h
      have hl : as.getLast? = some 10 := by
        cases as with
        | nil => exact absurd rfl has
        | cons c cs => simpa using h
      simp only [List.cons_append, lines, ha, if_false, ih (.inr hl)]
      cases hls : lines as with
      | nil =>
        have := flatten_lines as
        rw [hls] at this
        exact absurd this.symm has
      | cons l ls => rfl

/-- A line without its line feed and one carriage return before it. -/
def chomp : List UInt8 → List UInt8
  | [] => []
  | [10] => []
  | [13, 10] => []
  | b :: bs => b :: chomp bs

end ChatOps.Text
