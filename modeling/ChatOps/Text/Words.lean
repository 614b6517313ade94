/-
Words: the maximal runs of characters that are not blank. Quoting has no meaning here.
-/
import ChatOps.Text.Blank
import ChatOps.Text.Fields

namespace ChatOps.Text

/-- The words of a text, in order. -/
def words (cs : List Char) : List (List Char) := (fields isBlank cs).filter (!·.isEmpty)

/-- A non-empty run of characters that are not blank. -/
def IsWord (w : List Char) : Prop := w ≠ [] ∧ ∀ c ∈ w, isBlank c = false

instance (w : List Char) : Decidable (IsWord w) :=
  decidable_of_iff (w ≠ [] ∧ w.all (!isBlank ·) = true) (by simp [IsWord])

theorem isWord_of_mem_words {cs w : List Char} (h : w ∈ words cs) : IsWord w := by
  obtain ⟨hf, hw⟩ := List.mem_filter.1 h
  exact ⟨by simpa using hw, not_sep_of_mem_fields isBlank cs w hf⟩

@[simp] theorem words_nil : words [] = [] := rfl

/-- A leading blank makes no difference. -/
theorem words_blank {c : Char} (h : isBlank c = true) (cs : List Char) :
    words (c :: cs) = words cs := by
  simp [words, fields, h]

theorem words_of_isWord {w : List Char} (h : IsWord w) : words w = [w] := by
  simp [words, fields_of_no_sep h.2, h.1]

end ChatOps.Text
