/-
The round trip of canonical text: what a message is understood as can be written out in full, and
is understood as the same again. This holds of every registry that registration makes, for every
command that can be written out; the built-in commands are such.
-/
import ChatOps.Proofs.Builtin.Registry
import ChatOps.Proofs.Registry.Rereading

namespace ChatOps

open Text

namespace Registry

/-- The canonical text of a request is understood as this request. -/
theorem Reachable.parse_canonicalText {r : Registry} (hr : r.Reachable) {message : String}
    {request : Request} (h : r.parse message = .ok request) (hc : request.command.IsWritable) :
    r.parse request.canonicalText = .ok request := by
  have hread : request.IsReread := (hr.isReread_iff h hc.names).2 (hr.not_isMisread h hc)
  exact hr.parse_canonicalText_of_isReread h hc.names hread

end Registry

/-- Every built-in command can be written out. -/
theorem Builtin.isWritable_of_mem_commands : ∀ c ∈ Builtin.commands, c.IsWritable := by
  decide +kernel

/-- Canonical text is understood as the request it was written for: in every registry that
registration makes, for every command that can be written out, and so for whatever the built-in
registry understands. -/
theorem canonicalText_roundTrip :
    (∀ r : Registry, r.Reachable → ∀ (message : String) (request : Request),
      r.parse message = .ok request → request.command.IsWritable →
      r.parse request.canonicalText = .ok request) ∧
    Builtin.registry.Reachable ∧
    (∀ c ∈ Builtin.commands, c.IsWritable) ∧
    ∀ (message : String) (request : Request), Builtin.registry.parse message = .ok request →
      Builtin.registry.parse request.canonicalText = .ok request := by
  refine ⟨fun r hr message request => hr.parse_canonicalText, Builtin.reachable_registry,
    Builtin.isWritable_of_mem_commands, fun message request h => ?_⟩
  obtain ⟨head, rest, left, vs, dropped, -, hfind, -⟩ := Registry.parse_eq_ok_iff.1 h
  have hc := Builtin.isWritable_of_mem_commands _ (Builtin.find?_eq_some_iff.1 hfind).1
  exact Builtin.reachable_registry.parse_canonicalText h hc

/-- The defaults are written out, and nothing changes. -/
theorem canonicalText_roundTrip_logs :
    ∃ request : Request, Builtin.registry.parse "LOGS  pod/web" = .ok request ∧
      request.canonicalText = "logs pod/web bottom 25" ∧
      Builtin.registry.parse "logs pod/web bottom 25" = .ok request := by
  have h : Builtin.registry.parse "LOGS  pod/web" = .ok
      ⟨Builtin.logs, none, .ofList [("query", .query ⟨"pod", "web", none⟩),
        ("direction", .keyword "bottom"), ("lines", .integer 25)]⟩ := by
    decide +kernel
  have htext : Request.canonicalText
      ⟨Builtin.logs, none, .ofList [("query", .query ⟨"pod", "web", none⟩),
        ("direction", .keyword "bottom"), ("lines", .integer 25)]⟩ = "logs pod/web bottom 25" := by
    decide +kernel
  have hagain := canonicalText_roundTrip.2.2.2 _ _ h
  rw [htext] at hagain
  exact ⟨_, h, htext, hagain⟩

end ChatOps
