/-
A text is its words with blanks around them, and nothing else is read of it. Words may be written
with any blanks in front of them and behind them, if there are some between every two: the text has
just these words, in this order. Every text is written in this way, so a message means the same
however its words are spaced, and it is no matter how the words of a command line are put together
to the texts that it gives.
-/
import ChatOps.CommandLine.Run
import ChatOps.Proofs.Text.Words
import Mathlib.Tactic.ByContra

namespace ChatOps

namespace Text

/-! ## Words with blanks around them -/

/-- Words, and the blanks they are written with. -/
structure Spacing where
  /-- The blanks in front of the first word. -/
  front : List Char
  /-- The words, each with the blanks behind it. -/
  pieces : List (List Char × List Char)
  isBlank_front : ∀ c ∈ front, isBlank c = true
  isWord : ∀ p ∈ pieces, IsWord p.1
  isBlank_behind : ∀ p ∈ pieces, ∀ c ∈ p.2, isBlank c = true
  /-- Only the last word may have no blank behind it. -/
  parted : ∀ p ∈ pieces.dropLast, p.2 ≠ []

namespace Spacing

/-- The words alone. -/
def words (s : Spacing) : List (List Char) := s.pieces.map Prod.fst

/-- The words as they are written. -/
def chars (s : Spacing) : List Char := s.front ++ s.pieces.flatMap fun p => p.1 ++ p.2

/-- The text that is written. -/
def message (s : Spacing) : String := String.ofList s.chars

end Spacing

/-! ## Reading -/

/-- Blanks part the words before them from those behind them. -/
theorem words_append_blanks {blanks : List Char} (hne : blanks ≠ [])
    (h : ∀ c ∈ blanks, isBlank c = true) (cs ds : List Char) :
    words (cs ++ blanks ++ ds) = words cs ++ words ds := by
  obtain ⟨c, blanks, rfl⟩ := List.exists_cons_of_ne_nil hne
  rw [List.forall_mem_cons] at h
  rw [List.append_assoc, List.cons_append, words_append_cons h.1, words_blanks_append h.2]

/-- Pieces are parted if the first is, when it is not the only one, and so are the others. -/
theorem forall_dropLast_cons_iff {p : List Char × List Char} {ps : List (List Char × List Char)} :
    (∀ q ∈ (p :: ps).dropLast, q.2 ≠ []) ↔ (ps ≠ [] → p.2 ≠ []) ∧ ∀ q ∈ ps.dropLast, q.2 ≠ [] := by
  cases ps with
  | nil => simp
  | cons q qs => simp

theorem words_pieces {pieces : List (List Char × List Char)} (hword : ∀ p ∈ pieces, IsWord p.1)
    (hblank : ∀ p ∈ pieces, ∀ c ∈ p.2, isBlank c = true)
    (hparted : ∀ p ∈ pieces.dropLast, p.2 ≠ []) :
    words (pieces.flatMap fun p => p.1 ++ p.2) = pieces.map Prod.fst := by
  induction pieces with
  | nil => rfl
  | cons p ps ih =>
    obtain ⟨w, blanks⟩ := p
    rw [List.forall_mem_cons] at hword hblank
    rw [forall_dropLast_cons_iff] at hparted
    rw [List.flatMap_cons, List.map_cons]
    by_cases hblanks : blanks = []
    · -- no word can follow
      have hps : ps = [] := by
        by_contra hps
        exact hparted.1 hps hblanks
      subst hblanks hps
      simpa using words_of_isWord hword.1
    · rw [words_append_blanks hblanks hblank.1, words_of_isWord hword.1,
        ih hword.2 hblank.2 hparted.2, List.singleton_append]

namespace Spacing

theorem words_chars (s : Spacing) : Text.words s.chars = s.words := by
  rw [chars, words_blanks_append s.isBlank_front,
    words_pieces s.isWord s.isBlank_behind s.parted, words]

/-- Every text is written with some spacing. -/
theorem exists_chars_eq (cs : List Char) : ∃ s : Spacing, s.chars = cs := by
  induction cs with
  | nil => exact ⟨⟨[], [], by simp, by simp, by simp, by simp⟩, rfl⟩
  | cons c cs ih =>
    obtain ⟨⟨front, pieces, hfront, hword, hblank, hparted⟩, rfl⟩ := ih
    by_cases hc : isBlank c = true
    · exact ⟨⟨c :: front, pieces, List.forall_mem_cons.2 ⟨hc, hfront⟩, hword, hblank, hparted⟩, rfl⟩
    · rw [Bool.not_eq_true] at hc
      by_cases hjoin : front = [] ∧ pieces ≠ []
      · -- the character begins the first word
        obtain ⟨rfl, hne⟩ := hjoin
        obtain ⟨⟨w, blanks⟩, ps, rfl⟩ := List.exists_cons_of_ne_nil hne
        rw [List.forall_mem_cons] at hword hblank
        rw [forall_dropLast_cons_iff] at hparted
        refine ⟨⟨[], (c :: w, blanks) :: ps, by simp, ?_, ?_, ?_⟩, rfl⟩
        · refine List.forall_mem_cons.2 ⟨⟨by simp, ?_⟩, hword.2⟩
          exact List.forall_mem_cons.2 ⟨hc, hword.1.2⟩
        · exact List.forall_mem_cons.2 hblank
        · exact forall_dropLast_cons_iff.2 hparted
      · -- the character is a word by itself
        refine ⟨⟨[], ([c], front) :: pieces, by simp, ?_, ?_, ?_⟩, by simp [chars]⟩
        · exact List.forall_mem_cons.2 ⟨⟨by simp, by simpa using hc⟩, hword⟩
        · exact List.forall_mem_cons.2 ⟨hfront, hblank⟩
        · exact forall_dropLast_cons_iff.2 ⟨fun hne h => hjoin ⟨h, hne⟩, hparted⟩

end Spacing

end Text

open Text

/-! ## Messages -/

theorem tokenize_message (s : Spacing) :
    tokenize s.message = s.words.zipIdx.map fun (w, i) => ⟨String.ofList w, i⟩ := by
  rw [tokenize, Spacing.message, String.toList_ofList, s.words_chars]

theorem map_text_tokenize_eq_iff {message message' : String} :
    (tokenize message).map Token.text = (tokenize message').map Token.text ↔
      words message.toList = words message'.toList := by
  rw [map_text_tokenize, map_text_tokenize, List.map_inj_right fun _ _ => String.ofList_inj.1]

/-- Messages of the same words mean the same. -/
theorem Registry.parse_congr (r : Registry) {message message' : String}
    (h : words message.toList = words message'.toList) : r.parse message = r.parse message' := by
  rw [parse, parse, tokenize_congr h]

/-- Spacing words out and reading them are inverse. Words written with any blanks around them, some
between every two, are read as just these words, counted from zero, and every text is written so.
Blanks between two texts part their words, so messages that differ in their blanks only mean the
same, and so do the texts of a command line that have the same words one after the other. -/
theorem tokenize_spacing :
    (∀ s : Spacing,
      tokenize s.message = s.words.zipIdx.map fun (w, i) => ⟨String.ofList w, i⟩) ∧
    (∀ text : String, ∃ s : Spacing, s.message = text ∧
      s.words.map String.ofList = (tokenize text).map Token.text) ∧
    (∀ a b blanks : String, blanks ≠ "" → (∀ c ∈ blanks.toList, isBlank c = true) →
      (tokenize (a ++ blanks ++ b)).map Token.text =
        (tokenize a).map Token.text ++ (tokenize b).map Token.text) ∧
    (∀ (r : Registry) (s s' : Spacing), s.words = s'.words →
      r.parse s.message = r.parse s'.message) ∧
    ∀ (r : Registry) (config : Config) (input : List UInt8) (json : Bool)
      (texts texts' : List String),
      (texts.flatMap fun s => (tokenize s).map Token.text) =
        (texts'.flatMap fun s => (tokenize s).map Token.text) →
      (CommandLine.Task.parse texts json).run r config input =
        (CommandLine.Task.parse texts' json).run r config input := by
  refine ⟨tokenize_message, fun text => ?_, fun a b blanks hne hblank => ?_,
    fun r s s' h => ?_, fun r config input json texts texts' h => ?_⟩
  · obtain ⟨s, hs⟩ := Spacing.exists_chars_eq text.toList
    refine ⟨s, by rw [Spacing.message, hs, String.ofList_toList], ?_⟩
    rw [map_text_tokenize, ← hs, s.words_chars]
  · rw [map_text_tokenize, map_text_tokenize, map_text_tokenize, String.toList_append,
      String.toList_append, words_append_blanks (by simpa using hne) hblank, List.map_append]
  · refine r.parse_congr ?_
    rw [Spacing.message, Spacing.message, String.toList_ofList, String.toList_ofList, s.words_chars,
      s'.words_chars, h]
  · have hparse : r.parse (" ".intercalate texts) = r.parse (" ".intercalate texts') := by
      refine r.parse_congr (map_text_tokenize_eq_iff.1 ?_)
      rw [map_text_tokenize_spaced, map_text_tokenize_spaced, h]
    rw [CommandLine.Task.run, CommandLine.Task.run, hparse]

/-- Two words between blanks of several kinds, and as one text or two of a command line. -/
theorem tokenize_spacing_get :
    tokenize " get\u3000\tpod/web\n" = [⟨"get", 0⟩, ⟨"pod/web", 1⟩] ∧
      (tokenize ("get" ++ "\u3000" ++ "pod/web")).map Token.text = ["get", "pod/web"] ∧
      Builtin.registry.parse " get\u3000\tpod/web\n" = Builtin.registry.parse "get pod/web" ∧
      (CommandLine.Task.parse ["get pod/web"] true).run Builtin.registry {} [] =
        (CommandLine.Task.parse ["get", " pod/web"] true).run Builtin.registry {} [] := by
  let wide : Spacing :=
    ⟨[' '], [("get".toList, ['\u3000', '\t']), ("pod/web".toList, ['\n'])], by simp [isBlank],
      by decide, by simp [isBlank], by decide⟩
  let narrow : Spacing :=
    ⟨[], [("get".toList, [' ']), ("pod/web".toList, [])], by simp, by decide, by simp [isBlank],
      by decide⟩
  have hwide : wide.message = " get\u3000\tpod/web\n" := by decide
  have hnarrow : narrow.message = "get pod/web" := by decide
  obtain ⟨htokens, -, hparted, hparse, htask⟩ := tokenize_spacing
  refine ⟨?_, ?_, ?_, htask _ _ _ _ _ _ (by decide)⟩
  · rw [← hwide, htokens]
    decide
  · rw [hparted "get" "pod/web" "\u3000" (by decide) (by simp [isBlank])]
    decide
  · rw [← hwide, ← hnarrow]
    exact hparse _ wide narrow rfl

end ChatOps
