/-
Subcommands, from their declaration to a request and back. A command keeps the first spellings of
the names that were declared, a message that is understood has named one of them, and the canonical
text of its request names the same one again, whatever becomes of its arguments.
-/
import ChatOps.Proofs.Builtin.Registry
import ChatOps.Proofs.Registry.Rereading

namespace ChatOps

open Text

variable {r : Registry} {message : String} {request : Request}

namespace Registry

/-- The second word of a message names the subcommand, if the command asks for one. -/
theorem subcommand_of_parse (h : r.parse message = .ok request) :
    (request.command.subcommands = [] ∧ request.subcommand = none) ∨
      ∃ t found, (tokenize message)[1]? = some t ∧
        request.command.findSubcommand? t.text = some found ∧ request.subcommand = some found := by
  obtain ⟨head, rest, left, vs, dropped, htokens, -, hsub, -⟩ := parse_eq_ok_iff.1 h
  rcases Command.takeSubcommand_eq_ok_iff.1 hsub with ⟨hc, hnone, -⟩ | ⟨t, found, rfl, hfound, hs⟩
  · exact .inl ⟨hc, hnone⟩
  · exact .inr ⟨t, found, by rw [htokens]; rfl, hfound, hs⟩

/-- A request names a subcommand exactly if its command has any. -/
theorem subcommand_eq_none_iff (h : r.parse message = .ok request) :
    request.subcommand = none ↔ request.command.subcommands = [] := by
  rcases subcommand_of_parse h with ⟨hc, hnone⟩ | ⟨t, found, -, hfound, hs⟩
  · exact iff_of_true hnone hc
  · have hmem := (Command.findSubcommand?_of_eq_some hfound).1
    rw [hs]
    exact iff_of_false nofun (List.ne_nil_of_mem hmem)

/-- The second word of canonical text is the subcommand in its own spelling, and names it. -/
theorem Reachable.takeSubcommand_canonicalText (hr : r.Reachable)
    (h : r.parse message = .ok request) {found : String} (hfound : request.subcommand = some found) :
    ∃ t rest, (tokenize request.canonicalText).tail = t :: rest ∧ t.text = found ∧
      request.command.takeSubcommand (t :: rest) = .ok (some found, rest) := by
  obtain ⟨head, own, args, htokens, -, hown, -, hsub⟩ := hr.resolve_canonicalText h
  rw [hfound] at hown hsub
  obtain ⟨t, rfl, ht⟩ := List.map_eq_singleton_iff.1 hown
  exact ⟨t, args, by rw [htokens]; rfl, ht, hsub⟩

end Registry

namespace Command

/-- What declaring subcommands comes to, in any calls and of any names. The command keeps the first
spellings in their order, no two of them the same but for case, and it makes no difference how the
names are split over the calls; a word finds a subcommand exactly if a declared name is that word in
some case, and finds the first such name. So the subcommand of a request is the first declared name
that the second word of the message spells, and the canonical text of the request resolves to the
same command and the same subcommand, whatever its arguments come to. -/
theorem subcommands_of_calls {c : Command} (hc : c.subcommands = []) (calls : List (List String)) :
    c.afterDeclarations calls = { c with subcommands := firstSpellings calls.flatten } ∧
    (c.afterDeclarations calls).subcommands.Pairwise (fun s t => sameIgnoringCase s t = false) ∧
    (∀ calls', calls'.flatten = calls.flatten →
      c.afterDeclarations calls' = c.afterDeclarations calls) ∧
    (∀ word,
      ((∃ found, (c.afterDeclarations calls).findSubcommand? word = some found) ↔
        ∃ name ∈ calls.flatten, sameIgnoringCase name word = true) ∧
      ∀ found, (c.afterDeclarations calls).findSubcommand? word = some found ↔
        IsFirstSpelling calls.flatten word found) ∧
    ∀ (r : Registry) (message : String) (request : Request), r.Reachable →
      r.parse message = .ok request → request.command = c.afterDeclarations calls →
      (request.subcommand = none ↔ calls.flatten = []) ∧
      (∀ found, request.subcommand = some found →
        (∃ t, (tokenize message)[1]? = some t ∧ IsFirstSpelling calls.flatten t.text found) ∧
        ∃ t rest, (tokenize request.canonicalText).tail = t :: rest ∧ t.text = found ∧
          request.command.takeSubcommand (t :: rest) = .ok (some found, rest)) ∧
      r.parse request.canonicalText =
        (request.command.bind (tokenize request.canonicalText).length
          ((tokenize request.canonicalText).drop (request.subcommand.toList.length + 1))).map
          fun augments => ⟨request.command, request.subcommand, augments⟩ := by
  have hbuilt := afterDeclarations_of_nil hc calls
  have hkept : (c.afterDeclarations calls).subcommands = firstSpellings calls.flatten := by
    rw [hbuilt]
  have hfind : ∀ word found, (c.afterDeclarations calls).findSubcommand? word = some found ↔
      IsFirstSpelling calls.flatten word found := by
    intro word found
    rw [findSubcommand?_of_declared hkept, find?_sameIgnoringCase_eq_some_iff]
  refine ⟨hbuilt, ?_, fun calls' h => ?_, fun word => ⟨?_, hfind word⟩,
    fun r message request hr h hcommand => ⟨?_, fun found hfound => ⟨?_, ?_⟩, ?_⟩⟩
  · rw [hkept]
    exact pairwise_firstSpellings calls.flatten
  · rw [afterDeclarations_eq, afterDeclarations_eq, h]
  · rw [findSubcommand?_of_declared hkept, ← Option.isSome_iff_exists, List.find?_isSome]
  · rw [Registry.subcommand_eq_none_iff h, hcommand, hkept, firstSpellings_eq_nil_iff]
  · rcases Registry.subcommand_of_parse h with ⟨-, hnone⟩ | ⟨t, found', ht, hword, hs⟩
    · rw [hnone] at hfound
      cases hfound
    · rw [hfound, Option.some.injEq] at hs
      rw [hcommand, ← hs] at hword
      exact ⟨t, ht, (hfind _ _).1 hword⟩
  · exact hr.takeSubcommand_canonicalText h hfound
  · exact hr.parse_canonicalText_eq h

/-- The subcommands of `rollout`, some of them declared again in another case. -/
theorem subcommands_of_calls_rollout :
    let bare : Command := { Builtin.rollout with subcommands := [] }
    let calls := [["status", "pause", "STATUS"], ["resume", "history", "Pause", "undo"]]
    bare.subcommands = [] ∧ bare.afterDeclarations calls = Builtin.rollout ∧
      bare.afterDeclarations [calls.flatten] = Builtin.rollout ∧
      Builtin.rollout.findSubcommand? "pAUSE" = some "pause" ∧
      ∃ request : Request, Builtin.registry.parse "rollout STATUS pod/web" = .ok request ∧
        request.subcommand = some "status" ∧ request.canonicalText = "rollout status pod/web" ∧
        ∃ t rest, (tokenize request.canonicalText).tail = t :: rest ∧ t.text = "status" ∧
          Builtin.rollout.takeSubcommand (t :: rest) = .ok (some "status", rest) := by
  intro bare calls
  have hbuilt : bare.afterDeclarations calls = Builtin.rollout := by decide +kernel
  obtain ⟨-, -, hsplit, hfind, hdispatch⟩ := subcommands_of_calls (c := bare) rfl calls
  have hparse : Builtin.registry.parse "rollout STATUS pod/web" = .ok
      ⟨Builtin.rollout, some "status", .ofList [("query", .query ⟨"pod", "web", none⟩)]⟩ := by
    decide +kernel
  obtain ⟨-, hnamed, -⟩ := hdispatch _ _ _ Builtin.reachable_registry hparse hbuilt.symm
  rw [hbuilt] at hsplit hfind
  refine ⟨rfl, hbuilt, hsplit _ (by decide), ?_, _, hparse, rfl, by decide +kernel, ?_⟩
  · exact ((hfind "pAUSE").2 "pause").2 ⟨["status"], _, rfl, by decide, by decide⟩
  · exact (hnamed "status" rfl).2

end Command

end ChatOps
