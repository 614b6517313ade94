/-
Understanding a message, said all at once: its first word names a command, the subcommand is taken
if there is one to take, and the arguments bind what is left.
-/
import ChatOps.Proofs.Command.Subcommands
import ChatOps.Proofs.Message.Binding
import ChatOps.Registry.Parse

namespace ChatOps

open Text

namespace Command

variable {c : Command} {tokens left : List Token}

theorem takeSubcommand_eq_ok_iff {subcommand : Option String} :
    c.takeSubcommand tokens = .ok (subcommand, left) ↔
      (c.subcommands = [] ∧ subcommand = none ∧ left = tokens) ∨
        ∃ t found, tokens = t :: left ∧ c.findSubcommand? t.text = some found ∧
          subcommand = some found := by
  unfold takeSubcommand
  by_cases hc : c.subcommands = []
  · rw [if_pos hc, Except.ok.injEq, Prod.mk.injEq]
    constructor
    · rintro ⟨rfl, rfl⟩
      exact .inl ⟨hc, rfl, rfl⟩
    · rintro (⟨-, rfl, rfl⟩ | ⟨t, found, -, hf, -⟩)
      · exact ⟨rfl, rfl⟩
      · rw [findSubcommand?, hc] at hf
        cases hf
  · rw [if_neg hc]
    cases tokens with
    | nil => simp [hc]
    | cons t tokens =>
      rw [List.head?_cons, Option.bind_some]
      cases hf : c.findSubcommand? t.text with
      | none =>
        constructor
        · rintro ⟨⟩
        · rintro (⟨hc', -, -⟩ | ⟨t', found, ht, hf', -⟩)
          · exact absurd hc' hc
          · cases ht
            rw [hf] at hf'
            cases hf'
      | some found =>
        constructor
        · rintro ⟨⟩
          exact .inr ⟨t, found, rfl, hf, rfl⟩
        · rintro (⟨hc', -, -⟩ | ⟨t', found', ht, hf', rfl⟩)
          · exact absurd hc' hc
          · cases ht
            rw [hf] at hf'
            cases hf'
            rfl

/-- A subcommand is taken in its declared spelling, which is found again. -/
theorem takeSubcommand_reread {own : List Token} {subcommand : Option String}
    (h : c.takeSubcommand tokens = .ok (subcommand, left))
    (hown : own.map Token.text = subcommand.toList) (rest : List Token) :
    c.takeSubcommand (own ++ rest) = .ok (subcommand, rest) := by
  rw [takeSubcommand_eq_ok_iff]
  rcases takeSubcommand_eq_ok_iff.1 h with ⟨hc, rfl, -⟩ | ⟨t, found, -, hf, rfl⟩
  · obtain rfl := List.map_eq_nil_iff.1 hown
    exact .inl ⟨hc, rfl, rfl⟩
  · obtain ⟨u, rfl, rfl⟩ := List.map_eq_singleton_iff.1 hown
    exact .inr ⟨u, u.text, rfl, (findSubcommand?_of_eq_some hf).2.2, rfl⟩

theorem takeSubcommand_subset {subcommand : Option String}
    (h : c.takeSubcommand tokens = .ok (subcommand, left)) :
    (∀ word ∈ subcommand, word ∈ c.subcommands) ∧ left ⊆ tokens := by
  rcases takeSubcommand_eq_ok_iff.1 h with ⟨-, rfl, rfl⟩ | ⟨t, found, rfl, hf, rfl⟩
  · exact ⟨by simp, List.Subset.refl _⟩
  · exact ⟨by simpa using (findSubcommand?_of_eq_some hf).1, List.subset_cons_self _ _⟩

end Command

namespace Registry

theorem parse_eq_ok_iff {r : Registry} {message : String} {request : Request} :
    r.parse message = .ok request ↔
      ∃ head rest left vs dropped, tokenize message = head :: rest ∧
        r.find? head.text = some request.command ∧
        request.command.takeSubcommand rest = .ok (request.subcommand, left) ∧
        request.command.TakesFrom 0 request.command.arguments left vs dropped ∧
        (request.command.trailing = .reject → dropped = []) ∧
        request.augments =
          NameMap.ofList ((request.command.arguments.map Argument.name).zip vs) := by
  rw [parse]
  unfold parseTokens
  cases tokenize message with
  | nil =>
    constructor
    · rintro ⟨⟩
    · rintro ⟨_, _, _, _, _, ⟨⟩, _⟩
  | cons head rest =>
    simp only [List.cons.injEq]
    cases hf : r.find? head.text with
    | none =>
      constructor
      · rintro ⟨⟩
      · rintro ⟨_, _, _, _, _, ⟨rfl, rfl⟩, hf', -⟩
        rw [hf] at hf'
        cases hf'
    | some command =>
      simp only [Except.bind_eq_ok_iff, Prod.exists, Command.bind_eq_ok_iff]
      constructor
      · rintro ⟨subcommand, left, hs, augments, ⟨vs, dropped, ht, hd, hm⟩, h⟩
        cases h
        exact ⟨head, rest, left, vs, dropped, ⟨rfl, rfl⟩, hf, hs, ht, hd, hm⟩
      · rintro ⟨_, _, left, vs, dropped, ⟨rfl, rfl⟩, hf', hs, ht, hd, hm⟩
        rw [hf] at hf'
        cases hf'
        exact ⟨_, left, hs, _, ⟨vs, dropped, ht, hd, hm⟩, rfl⟩

end Registry

end ChatOps
