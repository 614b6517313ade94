/-
The registry of the built-in commands: filling it succeeds, and it holds each of them under its
name and nothing else.
-/
import ChatOps.Proofs.NameMap
import ChatOps.Proofs.Registry.Reachable

namespace ChatOps

open Text

namespace Builtin

/-- Filling the registry succeeds. -/
theorem load_eq_registry : ∃ log, load = .ok (registry, log) := by
  have h : load.isOk = true := by decide +kernel
  unfold registry
  cases hl : load with
  | error e =>
    rw [hl] at h
    cases h
  | ok p => exact ⟨p.2, rfl⟩

theorem reachable_registry : registry.Reachable := by
  obtain ⟨log, h⟩ := load_eq_registry
  rw [load] at h
  simp only [Except.bind_eq_ok_iff, Prod.exists] at h
  obtain ⟨r, log', hall, hlast⟩ := h
  cases hlast
  exact Registry.Reachable.empty.registerAll hall

theorem entries_registry :
    registry.commands.entries =
      [config, describe, get, help, logs, rollout, scale, track, version].map
        fun c => (c.name, c) := by
  decide +kernel

/-- A word finds the built-in command that its lowercase names. -/
theorem find?_eq_some_iff {word : String} {c : Command} :
    registry.find? word = some c ↔ c ∈ commands ∧ lowercase word = c.name := by
  have hperm : [config, describe, get, help, logs, rollout, scale, track, version].Perm commands := by
    decide +kernel
  rw [Registry.find?, NameMap.get?_eq_some_iff, entries_registry, List.mem_map]
  constructor
  · rintro ⟨d, hd, h⟩
    rw [Prod.mk.injEq] at h
    obtain ⟨hname, rfl⟩ := h
    exact ⟨hperm.mem_iff.1 hd, hname.symm⟩
  · rintro ⟨hc, hname⟩
    exact ⟨c, hperm.mem_iff.2 hc, by rw [hname]⟩

end Builtin

end ChatOps
