/-
Words written side by side with a blank between them are the words of that text again. So a
message is made of its words, and a text of words is a message with these words.
-/
import ChatOps.Message.Token
import ChatOps.Text.Decimal

namespace ChatOps

namespace Text

theorem isBlank_space : isBlank ' ' = true := by decide

/-- A separator parts the fields before it from those behind it. -/
theorem fields_append_cons {α : Type} {sep : α → Bool} {s : α} (hs : sep s = true)
    (as bs : List α) : fields sep (as ++ s :: bs) = fields sep as ++ fields sep bs := by
  induction as with
  | nil => simp [fields, hs]
  | cons a as ih =>
    rw [List.cons_append, fields, fields, ih]
    split
    · rfl
    · cases h : fields sep as with
      | nil => exact absurd h (fields_ne_nil sep as)
      | cons f fs => rfl

/-- A blank parts the words before it from those behind it. -/
theorem words_append_cons {c : Char} (hc : isBlank c = true) (cs ds : List Char) :
    words (cs ++ c :: ds) = words cs ++ words ds := by
  rw [words, fields_append_cons hc, List.filter_append]
  rfl

/-- The words of texts with blanks between them are the words of one after the other. -/
theorem words_intercalate (ws : List (List Char)) :
    words ([' '].intercalate ws) = ws.flatMap words := by
  induction ws with
  | nil => rfl
  | cons w ws ih =>
    cases ws with
    | nil => rw [List.intercalate_singleton, List.flatMap_singleton]
    | cons w' ws =>
      rw [List.intercalate_cons_cons, List.append_assoc, List.singleton_append,
        words_append_cons isBlank_space, ih]
      rfl

/-- Blanks in front of a text make no difference to its words. -/
theorem words_blanks_append {blanks : List Char} (h : ∀ c ∈ blanks, isBlank c = true)
    (cs : List Char) : words (blanks ++ cs) = words cs := by
  induction blanks with
  | nil => rfl
  | cons c blanks ih =>
    rw [List.forall_mem_cons] at h
    rw [List.cons_append, words_blank h.1, ih h.2]

theorem not_isBlank_of_isDigit {c : Char} (h : c.isDigit = true) : isBlank c = false := by
  obtain ⟨hlow, hhigh⟩ := isDigit_iff_toNat.1 h
  simp only [isBlank, Bool.or_eq_false_iff, Bool.and_eq_false_iff, beq_eq_false_iff_ne,
    decide_eq_false_iff_not]
  omega

/-- A number is a word. -/
theorem isWord_of_isDigits {cs : List Char} (h : isDigits cs = true) : IsWord cs := by
  obtain ⟨hne, hdigits⟩ := isDigits_iff.1 h
  exact ⟨hne, fun c hc => not_isBlank_of_isDigit (hdigits c hc)⟩

theorem isDigits_showUInt64 (n : UInt64) : isDigits (showUInt64 n).toList = true :=
  (readUInt64?_eq_some_iff.1 (readUInt64?_showUInt64 n)).1

end Text

open Text

/-- The tokens of a text are those of its words. -/
theorem tokenize_congr {text text' : String} (h : words text.toList = words text'.toList) :
    tokenize text = tokenize text' := by
  rw [tokenize, tokenize, h]

/-- Texts with blanks between them have the tokens of one after the other. -/
theorem map_text_tokenize_spaced (texts : List String) :
    (tokenize (" ".intercalate texts)).map Token.text =
      texts.flatMap fun s => (tokenize s).map Token.text := by
  simp only [map_text_tokenize, String.toList_intercalate]
  rw [show " ".toList = [' '] from rfl, words_intercalate, List.map_flatMap, List.flatMap_map]

theorem map_text_tokenize_of_isWord {word : String} (h : IsWord word.toList) :
    (tokenize word).map Token.text = [word] := by
  rw [map_text_tokenize, words_of_isWord h, List.map_singleton, String.ofList_toList]

theorem flatMap_tokenize_of_isWord {ws : List String} (h : ∀ w ∈ ws, IsWord w.toList) :
    (ws.flatMap fun s => (tokenize s).map Token.text) = ws := by
  induction ws with
  | nil => rfl
  | cons w ws ih =>
    rw [List.forall_mem_cons] at h
    rw [List.flatMap_cons, map_text_tokenize_of_isWord h.1, ih h.2, List.singleton_append]

theorem isWord_text_of_mem_tokenize {message : String} {t : Token} (h : t ∈ tokenize message) :
    IsWord t.text.toList := by
  have : t.text ∈ (tokenize message).map Token.text := List.mem_map_of_mem h
  rw [map_text_tokenize] at this
  obtain ⟨w, hw, ht⟩ := List.mem_map.1 this
  rw [← ht, String.toList_ofList]
  exact isWord_of_mem_words hw

end ChatOps
