/-
Requests written as JSON. The kind of a value is not written, but the argument that the value is
bound to has it, and the command that is written says which argument that is. So requests are told
apart by their JSON, and as well by their canonical text.
-/
import ChatOps.Proofs.Json
import ChatOps.Proofs.Registry.Typing

namespace ChatOps

open Text

/-! ## Values -/

/-- Values of one sort are written differently. -/
theorem Argument.HasSort.toJson_inj {kind : ArgumentKind} {v v' : Value} (hv : HasSort kind v)
    (hv' : HasSort kind v') (h : v.toJson = v'.toJson) : v = v' := by
  cases hv with
  | positional =>
    cases hv'
    rw [Json.string.inj h]
  | query =>
    cases hv'
    rw [Query.toJson_inj h]
  | number hany =>
    cases hv' with
    | number =>
      obtain ⟨hn, -⟩ := Json.number.inj h
      rw [UInt64.toNat_inj.1 (Int.ofNat.inj hn)]
    | word => exact absurd rfl hany
    | unset => exact absurd rfl hany
  | word =>
    cases hv' with
    | number hany => exact absurd rfl hany
    | word => rw [Json.string.inj h]
    | unset => cases h
  | unset =>
    cases hv' with
    | number hany => exact absurd rfl hany
    | word => cases h
    | unset => rfl
  | keyword =>
    cases hv'
    rw [Json.string.inj h]
  | list =>
    cases hv'
    have hitems := Json.array.inj h
    rw [List.map_injective_iff.2 (fun _ _ => Json.string.inj) hitems]

theorem Json.ofOption_inj {s s' : Option String} (h : ofOption s = ofOption s') : s = s' := by
  cases s <;> cases s' <;> cases h <;> rfl

/-! ## Requests -/

/-- Well-typed requests for one command that can be written out are written differently. -/
theorem Request.IsWellTyped.toJson_inj {r r' : Request} {words words' : List String}
    (hr : r.IsWellTyped words) (hr' : r'.IsWellTyped words') (hc : r.command.IsWritable)
    (hcommand : r.command = r'.command) (h : r.toJson = r'.toJson) : r = r' := by
  simp only [toJson, Json.object.injEq, List.cons.injEq, Prod.mk.injEq, true_and, and_true] at h
  obtain ⟨-, hsub, haugments⟩ := h
  have haugments : r.augments = r'.augments := by
    refine NameMap.eq_of_map_entries haugments fun name v v' hv hv' hjson => ?_
    have hname := (hr.names name).1 (NameMap.mem_names_iff.2 ⟨v, hv⟩)
    obtain ⟨a, ha, rfl⟩ := List.mem_map.1 hname
    obtain ⟨u, hu, hsort⟩ := hr.hasSort hc ha
    obtain ⟨u', hu', hsort'⟩ := hr'.hasSort (hcommand ▸ hc) (hcommand ▸ ha)
    cases hv.symm.trans hu
    cases hv'.symm.trans hu'
    exact hsort.toJson_inj hsort' hjson
  obtain ⟨c, s, augments⟩ := r
  obtain ⟨c', s', augments'⟩ := r'
  cases hcommand
  cases haugments
  cases Json.ofOption_inj hsub
  rfl

namespace Registry.Reachable

variable {r : Registry} {message message' : String} {request request' : Request}

/-- A command is found under its own name. -/
theorem get?_of_parse (hr : r.Reachable) (h : r.parse message = .ok request) :
    r.commands.get? (lowercase request.command.name) = some request.command := by
  obtain ⟨head, rest, left, vs, dropped, -, hfind, -⟩ := parse_eq_ok_iff.1 h
  rw [← hr.wf.key _ _ hfind]
  exact hfind

theorem toJson_inj (hr : r.Reachable) (h : r.parse message = .ok request)
    (h' : r.parse message' = .ok request') (hc : request.command.IsWritable)
    (hjson : request.toJson = request'.toJson) : request = request' := by
  have hname : request.command.name = request'.command.name := by
    simp only [Request.toJson, Json.object.injEq, List.cons.injEq, Prod.mk.injEq, true_and,
      Json.string.injEq] at hjson
    exact hjson.1
  have hcommand : request.command = request'.command := by
    have hget := hr.get?_of_parse h
    rw [hname, hr.get?_of_parse h', Option.some.injEq] at hget
    exact hget.symm
  exact (isWellTyped_of_parse h).toJson_inj (isWellTyped_of_parse h') hc hcommand hjson

/-- Requests for commands that can be written out are told apart by their JSON, and as well by
their canonical text. -/
theorem encoding_eq_iff (hr : r.Reachable) (h : r.parse message = .ok request)
    (h' : r.parse message' = .ok request') (hc : request.command.IsWritable)
    (hc' : request'.command.IsWritable) :
    (request.toJson.render = request'.toJson.render ↔ request = request') ∧
      (request.canonicalText = request'.canonicalText ↔ request = request') := by
  constructor
  · rw [Json.render_inj]
    constructor
    · exact hr.toJson_inj h h' hc
    · rintro rfl
      rfl
  · constructor
    · intro htext
      have hread := hr.parse_canonicalText h hc
      rw [htext, hr.parse_canonicalText h' hc', Except.ok.injEq] at hread
      exact hread.symm
    · rintro rfl
      rfl

end Registry.Reachable

/-- What the built-in registry understands is written as the same JSON exactly when it is the same
request, and exactly when its canonical text is the same. -/
theorem render_eq_iff {message message' : String} {request request' : Request}
    (h : Builtin.registry.parse message = .ok request)
    (h' : Builtin.registry.parse message' = .ok request') :
    (request.toJson.render = request'.toJson.render ↔ request = request') ∧
      (request.toJson.render = request'.toJson.render ↔
        request.canonicalText = request'.canonicalText) := by
  have hc := Builtin.isWritable_of_mem_commands _ (Builtin.mem_commands_of_parse h)
  have hc' := Builtin.isWritable_of_mem_commands _ (Builtin.mem_commands_of_parse h')
  obtain ⟨hjson, htext⟩ := Builtin.reachable_registry.encoding_eq_iff h h' hc hc'
  exact ⟨hjson, hjson.trans htext.symm⟩

/-- A word that was left out is written as `null`, and the word `null` as a string. -/
theorem render_eq_iff_config :
    ∃ request request' : Request, Builtin.registry.parse "config" = .ok request ∧
      Builtin.registry.parse "config null" = .ok request' ∧
      request.toJson.render ≠ request'.toJson.render ∧
      request.canonicalText ≠ request'.canonicalText := by
  have h : Builtin.registry.parse "config" = .ok
      ⟨Builtin.config, none, .ofList [("key", .unset), ("value", .unset)]⟩ := by
    decide +kernel
  have h' : Builtin.registry.parse "config null" = .ok
      ⟨Builtin.config, none, .ofList [("key", .text "null"), ("value", .unset)]⟩ := by
    decide +kernel
  obtain ⟨hsame, htext⟩ := render_eq_iff h h'
  refine ⟨_, _, h, h', fun hjson => absurd (hsame.1 hjson) ?_,
    fun hcanonical => absurd (hsame.1 (htext.2 hcanonical)) ?_⟩
  all_goals decide +kernel

end ChatOps
