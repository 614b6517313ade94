/-
The subcommands of a command. They are declared in any number of calls, and names may come again in
another case; a name is kept if no name before it is the same but for case. Each name is looked for
among those that are kept so far, which finds the same as looking among all that were declared.
-/
import ChatOps.Command.Basic
import Mathlib.Data.List.Induction

namespace ChatOps

namespace Text

/-! ## First spellings -/

/-- None of these names is the word in some case. -/
def IsNew (names : List String) (word : String) : Prop :=
  ∀ name ∈ names, sameIgnoringCase name word = false

instance (names : List String) (word : String) : Decidable (IsNew names word) :=
  inferInstanceAs (Decidable (∀ name ∈ names, sameIgnoringCase name word = false))

/-- The names that are new where they stand, in order. -/
def firstSpellings (names : List String) : List String :=
  (names.zipIdx.filter fun (name, i) => IsNew (names.take i) name).map Prod.fst

/-- Of these names the first that is the word in some case. -/
def IsFirstSpelling (names : List String) (word found : String) : Prop :=
  ∃ before after, names = before ++ found :: after ∧ sameIgnoringCase found word = true ∧
    IsNew before word

variable {names : List String} {word found : String}

theorem not_isNew_iff : ¬ IsNew names word ↔ ∃ name ∈ names, sameIgnoringCase name word = true := by
  simp only [IsNew, not_forall, Bool.not_eq_false, exists_prop]

/-- A word that is new is new in every case. -/
theorem IsNew.congr (h : IsNew names word) (hsame : sameIgnoringCase word found = true) :
    IsNew names found := by
  intro name hname
  have hno := h name hname
  rw [← Bool.not_eq_true] at hno ⊢
  exact fun hyes => hno (sameIgnoringCase_trans hyes (sameIgnoringCase_symm hsame))

/-- Search from the front finds the first spelling. -/
theorem find?_sameIgnoringCase_eq_some_iff :
    names.find? (sameIgnoringCase · word) = some found ↔ IsFirstSpelling names word found := by
  rw [List.find?_eq_some_iff_append]
  simp only [Bool.not_eq_true']
  constructor
  · rintro ⟨hsame, before, after, hnames, hnew⟩
    exact ⟨before, after, hnames, hsame, hnew⟩
  · rintro ⟨before, after, hnames, hsame, hnew⟩
    exact ⟨hsame, before, after, hnames, hnew⟩

/-- One name more is kept if it is new. Names are declared at the end, so what is kept is followed
from there. -/
theorem firstSpellings_concat (names : List String) (name : String) :
    firstSpellings (names ++ [name]) =
      firstSpellings names ++ if IsNew names name then [name] else [] := by
  have hfront : (names.zipIdx.filter fun (s, i) => IsNew ((names ++ [name]).take i) s) =
      names.zipIdx.filter fun (s, i) => IsNew (names.take i) s := by
    refine List.filter_congr fun (s, i) hmem => ?_
    have hlt : i < names.length := List.snd_lt_of_mem_zipIdx hmem
    simp only [List.take_append_of_le_length (Nat.le_of_lt hlt)]
  rw [firstSpellings, List.zipIdx_append, List.filter_append, List.map_append, hfront,
    ← firstSpellings]
  split
  · rename_i hnew
    simp [hnew]
  · rename_i hold
    simp [hold]

theorem firstSpellings_subset (names : List String) : firstSpellings names ⊆ names := by
  intro name hname
  obtain ⟨⟨name, i⟩, hmem, rfl⟩ := List.mem_map.1 hname
  exact List.fst_mem_of_mem_zipIdx (List.mem_filter.1 hmem).1

/-- No two of the names that are kept are the same but for case. -/
theorem pairwise_firstSpellings (names : List String) :
    (firstSpellings names).Pairwise fun s t => sameIgnoringCase s t = false := by
  induction names using List.reverseRecOn with
  | nil => exact .nil
  | append_singleton names name ih =>
    rw [firstSpellings_concat]
    split
    · rename_i hnew
      refine List.pairwise_append.2 ⟨ih, List.pairwise_singleton _ _, fun s hs t ht => ?_⟩
      obtain rfl := List.mem_singleton.1 ht
      exact hnew s (firstSpellings_subset names hs)
    · rwa [List.append_nil]

/-- A search finds the same among the names that are kept as among all. -/
theorem find?_firstSpellings (names : List String) (word : String) :
    (firstSpellings names).find? (sameIgnoringCase · word) =
      names.find? (sameIgnoringCase · word) := by
  induction names using List.reverseRecOn with
  | nil => rfl
  | append_singleton names name ih =>
    rw [firstSpellings_concat, List.find?_append, List.find?_append, ih]
    split
    · rfl
    · rename_i hold
      rw [List.find?_nil, Option.or_none]
      by_cases hsame : sameIgnoringCase name word = true
      · -- the name is dropped because of one that is found before it
        obtain ⟨earlier, hearlier, hname⟩ := not_isNew_iff.1 hold
        have hfound : (names.find? (sameIgnoringCase · word)).isSome = true :=
          List.find?_isSome.2 ⟨earlier, hearlier, sameIgnoringCase_trans hname hsame⟩
        exact (Option.or_of_isSome hfound).symm
      · have hnone : [name].find? (sameIgnoringCase · word) = none := by simp [hsame]
        rw [hnone, Option.or_none]

/-- Some name is kept if there is any. -/
theorem firstSpellings_eq_nil_iff : firstSpellings names = [] ↔ names = [] := by
  constructor
  · intro h
    refine List.eq_nil_iff_forall_not_mem.2 fun name hname => ?_
    have hfind := find?_firstSpellings names name
    rw [h, List.find?_nil, eq_comm, List.find?_eq_none] at hfind
    exact hfind name hname (sameIgnoringCase_refl name)
  · rintro rfl
    rfl

end Text

open Text

namespace Command

variable {c : Command} {word found : String} {names : List String}

/-! ## Finding a subcommand -/

theorem findSubcommand?_eq_some_iff :
    c.findSubcommand? word = some found ↔ IsFirstSpelling c.subcommands word found :=
  find?_sameIgnoringCase_eq_some_iff

/-- A subcommand is found under its own spelling again. -/
theorem findSubcommand?_of_eq_some (h : c.findSubcommand? word = some found) :
    found ∈ c.subcommands ∧ sameIgnoringCase found word = true ∧
      c.findSubcommand? found = some found := by
  obtain ⟨before, after, hc, hsame, hnew⟩ := findSubcommand?_eq_some_iff.1 h
  refine ⟨List.mem_of_find?_eq_some h, hsame, findSubcommand?_eq_some_iff.2 ?_⟩
  exact ⟨before, after, hc, sameIgnoringCase_refl found, hnew.congr (sameIgnoringCase_symm hsame)⟩

/-- Of subcommands that differ in more than case, a word finds the one it spells. -/
theorem findSubcommand?_of_mem
    (hc : c.subcommands.Pairwise fun s t => sameIgnoringCase s t = false)
    (hmem : found ∈ c.subcommands) (hsame : sameIgnoringCase found word = true) :
    c.findSubcommand? word = some found := by
  obtain ⟨before, after, h⟩ := List.append_of_mem hmem
  rw [h, List.pairwise_append] at hc
  have hnew : IsNew before found := fun s hs => hc.2.2 s hs found List.mem_cons_self
  exact findSubcommand?_eq_some_iff.2 ⟨before, after, h, hsame, hnew.congr hsame⟩

/-! ## Declaring subcommands -/

/-- The command after calls that declare subcommands, one after the other. -/
def afterDeclarations (c : Command) (calls : List (List String)) : Command :=
  calls.foldl withSubcommands c

/-- What is kept of the declared names finds what they all would. -/
theorem findSubcommand?_of_declared (h : c.subcommands = firstSpellings names) (word : String) :
    c.findSubcommand? word = names.find? (sameIgnoringCase · word) := by
  rw [findSubcommand?, h, find?_firstSpellings]

/-- Declaring a name keeps the first spellings, and changes nothing else. -/
theorem withSubcommand_of_declared (h : c.subcommands = firstSpellings names) (word : String) :
    c.withSubcommand word = { c with subcommands := firstSpellings (names ++ [word]) } := by
  rw [withSubcommand, findSubcommand?_of_declared h, firstSpellings_concat, ← h]
  by_cases hnew : IsNew names word
  · have hnone : ¬ (names.find? (sameIgnoringCase · word)).isSome = true := by
      rw [List.find?_isSome, ← not_isNew_iff, not_not]
      exact hnew
    rw [if_neg hnone, if_pos hnew]
  · have hsome : (names.find? (sameIgnoringCase · word)).isSome = true :=
      List.find?_isSome.2 (not_isNew_iff.1 hnew)
    rw [if_pos hsome, if_neg hnew, List.append_nil]

theorem withSubcommands_of_declared (h : c.subcommands = firstSpellings names)
    (words : List String) :
    c.withSubcommands words = { c with subcommands := firstSpellings (names ++ words) } := by
  induction words generalizing c names with
  | nil => rw [List.append_nil, ← h]; rfl
  | cons word words ih =>
    have hword := withSubcommand_of_declared h word
    rw [withSubcommands, List.foldl_cons, hword, ← withSubcommands, ih rfl, List.append_assoc,
      List.singleton_append]

/-- It makes no difference how names are split over calls. -/
theorem afterDeclarations_eq (c : Command) (calls : List (List String)) :
    c.afterDeclarations calls = c.withSubcommands calls.flatten :=
  List.foldl_flatten.symm

/-- Of all the names declared, the first spellings are kept. -/
theorem afterDeclarations_of_nil (hc : c.subcommands = []) (calls : List (List String)) :
    c.afterDeclarations calls = { c with subcommands := firstSpellings calls.flatten } := by
  have hnone : c.subcommands = firstSpellings [] := hc
  rw [afterDeclarations_eq, withSubcommands_of_declared hnone, List.nil_append]

end Command

end ChatOps
