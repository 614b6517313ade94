/-
The lines of an input, said without the way they are found: a line ends at the first line feed,
one carriage return before the line feed goes with it, and what follows the last line feed is a
line of its own unless it is empty. Every input has exactly one reading into such lines.
-/
import ChatOps.Text.Lines

namespace ChatOps.Text

/-- A line without the carriage return it may end with. -/
def dropReturn (line : List UInt8) : List UInt8 :=
  if line.getLast? = some 13 then line.dropLast else line

/-- The lines of an input are these, their endings left out. -/
inductive Lined : List UInt8 → List (List UInt8) → Prop
  | nil : Lined [] []
  /-- The last line may lack its line feed, and then keeps a carriage return. -/
  | unended {line : List UInt8} : line ≠ [] → 10 ∉ line → Lined line [line]
  | cons {line rest : List UInt8} {ls : List (List UInt8)} : 10 ∉ line → Lined rest ls →
      Lined (line ++ 10 :: rest) (dropReturn line :: ls)

/-! ## Splitting -/

theorem lines_unended {line : List UInt8} (hne : line ≠ []) (h : 10 ∉ line) :
    lines line = [line] := by
  induction line with
  | nil => exact absurd rfl hne
  | cons b bs ih =>
    rw [List.mem_cons, not_or] at h
    obtain ⟨hb, hbs⟩ := h
    rw [lines, if_neg (Ne.symm hb)]
    cases bs with
    | nil => rfl
    | cons c cs => rw [ih (by simp) hbs]

theorem lines_cons {line : List UInt8} (h : 10 ∉ line) (rest : List UInt8) :
    lines (line ++ 10 :: rest) = (line ++ [10]) :: lines rest := by
  induction line with
  | nil => simp [lines]
  | cons b bs ih =>
    rw [List.mem_cons, not_or] at h
    obtain ⟨hb, hbs⟩ := h
    rw [List.cons_append, lines, if_neg (Ne.symm hb), ih hbs]
    rfl

/-! ## Endings -/

theorem chomp_unended {line : List UInt8} (h : 10 ∉ line) : chomp line = line := by
  induction line with
  | nil => rfl
  | cons b bs ih =>
    rw [List.mem_cons, not_or] at h
    obtain ⟨hb, hbs⟩ := h
    rw [chomp, ih hbs]
    · rintro rfl; exact absurd rfl hb
    · rintro rfl rfl; simp at hbs

theorem dropReturn_cons {b : UInt8} {bs : List UInt8} (h : bs ≠ []) :
    dropReturn (b :: bs) = b :: dropReturn bs := by
  unfold dropReturn
  rw [List.getLast?_cons_of_ne_nil h, List.dropLast_cons_of_ne_nil h]
  split <;> rfl

theorem chomp_append_feed {line : List UInt8} (h : 10 ∉ line) :
    chomp (line ++ [10]) = dropReturn line := by
  induction line with
  | nil => rfl
  | cons b bs ih =>
    rw [List.mem_cons, not_or] at h
    obtain ⟨hb, hbs⟩ := h
    cases bs with
    | nil =>
      by_cases h13 : b = 13
      · subst h13; rfl
      · simp [chomp, dropReturn, h13]
    | cons c cs =>
      rw [dropReturn_cons (by simp), ← ih hbs, List.cons_append, chomp]
      · simp
      · simp

/-! ## The reading -/

theorem Lined.eq {input : List UInt8} {ls : List (List UInt8)} (h : Lined input ls) :
    ls = (lines input).map chomp := by
  induction h with
  | nil => rfl
  | unended hne h => rw [lines_unended hne h, List.map_singleton, chomp_unended h]
  | cons h _ ih => rw [lines_cons h, List.map_cons, chomp_append_feed h, ih]

/-- Either the input holds no line feed, or the first one ends its first line. -/
theorem eq_append_feed_of_mem {input : List UInt8} (h : 10 ∈ input) :
    ∃ line rest, input = line ++ 10 :: rest ∧ 10 ∉ line := by
  induction input with
  | nil => cases h
  | cons b bs ih =>
    by_cases hb : b = 10
    · exact ⟨[], bs, by rw [hb]; rfl, by simp⟩
    · obtain ⟨line, rest, rfl, hl⟩ := ih (by simpa [Ne.symm hb] using h)
      exact ⟨b :: line, rest, rfl, by simp [Ne.symm hb, hl]⟩

theorem lined_lines (input : List UInt8) : Lined input ((lines input).map chomp) := by
  by_cases h : 10 ∈ input
  · obtain ⟨line, rest, rfl, hl⟩ := eq_append_feed_of_mem h
    rw [lines_cons hl, List.map_cons, chomp_append_feed hl]
    exact .cons hl (lined_lines rest)
  · cases input with
    | nil => exact .nil
    | cons b bs =>
      rw [lines_unended (by simp) h, List.map_singleton, chomp_unended h]
      exact .unended (by simp) h
termination_by input.length
decreasing_by
  subst_vars
  rw [List.length_append, List.length_cons]
  omega

/-- An input has exactly one reading into lines. -/
theorem lined_iff {input : List UInt8} {ls : List (List UInt8)} :
    Lined input ls ↔ ls = (lines input).map chomp := by
  constructor
  · exact Lined.eq
  · rintro rfl
    exact lined_lines input

end ChatOps.Text
