/-
The registries that registration makes. Each command stands under the lowercase of its name, and no
two of its arguments claim one keyword.
-/
import ChatOps.Builtin
import ChatOps.Proofs.Message.Binding

namespace ChatOps

open Text

/-- No word is a keyword of two of these arguments. -/
def Argument.Unambiguous (as : List Argument) : Prop :=
  as.Pairwise fun a b => ∀ word ∈ a.reserved, word ∉ b.reserved

theorem Command.unambiguous_of_ambiguousKeyword? {c : Command} (h : c.ambiguousKeyword? = none) :
    Argument.Unambiguous c.arguments := by
  rw [ambiguousKeyword?, Option.map_eq_none_iff, List.find?_eq_none] at h
  refine List.pairwise_iff_getElem.2 fun i j hi hj hij word hwi hwj => ?_
  refine h (word, i) ?_ ?_
  · rw [keywordPlaces, List.mem_flatMap]
    exact ⟨(c.arguments[i], i), List.mk_mem_zipIdx_iff_getElem?.2 (List.getElem?_eq_getElem hi),
      List.mem_map_of_mem hwi⟩
  · exact isReservedElsewhere_iff.2 ⟨j, _, List.getElem?_eq_getElem hj, by omega, hwj⟩

namespace Registry

/-- The registries that are made by registering commands, one after the other. -/
inductive Reachable : Registry → Prop
  | empty : Reachable .empty
  | register {r r' : Registry} {c : Command} : Reachable r → r.register c = .ok r' → Reachable r'

/-- The invariant of registration. -/
structure WF (r : Registry) : Prop where
  key : ∀ key c, r.commands.get? key = some c → key = lowercase c.name
  unambiguous : ∀ key c, r.commands.get? key = some c → Argument.Unambiguous c.arguments

theorem empty_wf : empty.WF := by
  constructor
  · rintro key c ⟨⟩
  · rintro key c ⟨⟩

/-- A command that is registered is new and unambiguous. -/
theorem register_eq_ok_iff {r r' : Registry} {c : Command} :
    r.register c = .ok r' ↔
      r.commands.contains (lowercase c.name) = false ∧ c.ambiguousKeyword? = none ∧
        r' = ⟨r.commands.insert (lowercase c.name) c⟩ := by
  unfold register
  split
  · rename_i h
    simp [h]
  · rename_i h
    rw [Bool.not_eq_true] at h
    split
    · rename_i hk
      simp [hk]
    · rename_i hk
      simp [h, hk, eq_comm]

theorem register_wf {r r' : Registry} {c : Command} (hr : r.WF) (h : r.register c = .ok r') :
    r'.WF := by
  obtain ⟨-, hc, rfl⟩ := register_eq_ok_iff.1 h
  constructor
  · intro key d hd
    rw [NameMap.get?_insert] at hd
    split at hd
    · cases hd
      assumption
    · exact hr.key key d hd
  · intro key d hd
    rw [NameMap.get?_insert] at hd
    split at hd
    · cases hd
      exact Command.unambiguous_of_ambiguousKeyword? hc
    · exact hr.unambiguous key d hd

theorem Reachable.wf {r : Registry} (h : r.Reachable) : r.WF := by
  induction h with
  | empty => exact empty_wf
  | register _ hreg ih => exact register_wf ih hreg

theorem Reachable.registerAll {r r' : Registry} (hr : r.Reachable) {cs : List Command}
    {log : List LogEvent} (h : r.registerAll cs = .ok (r', log)) : r'.Reachable := by
  induction cs generalizing r log with
  | nil =>
    cases h
    exact hr
  | cons c cs ih =>
    rw [Registry.registerAll] at h
    simp only [Except.bind_eq_ok_iff, Prod.exists] at h
    obtain ⟨r₁, hc, r₂, log₂, hcs, hlast⟩ := h
    cases hlast
    exact ih (hr.register hc) hcs

end Registry

end ChatOps
