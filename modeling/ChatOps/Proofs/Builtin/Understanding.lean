/-
The built-in registry understands the language of the built-in commands, all of it and nothing
else.
-/
import ChatOps.Proofs.Builtin.Arguments
import ChatOps.Proofs.Builtin.Registry
import ChatOps.Proofs.Registry.Parse

namespace ChatOps

open Text

namespace Builtin

variable {c : Command} {tokens : List Token} {subcommand : Option String}
  {bound : List (String × Value)}

/-- The tokens after the name of a command name this subcommand and give these values. -/
def Understands (c : Command) (tokens : List Token) (subcommand : Option String)
    (bound : List (String × Value)) : Prop :=
  ∃ left vs dropped, c.takeSubcommand tokens = .ok (subcommand, left) ∧
    c.TakesFrom 0 c.arguments left vs dropped ∧ (c.trailing = .reject → dropped = []) ∧
    bound = (c.arguments.map Argument.name).zip vs

/-- A command without subcommands that rejects what is left over. -/
theorem understands_iff (hsub : c.subcommands = []) (hreject : c.trailing = .reject) :
    Understands c tokens subcommand bound ↔
      subcommand = none ∧ ∃ vs, c.TakesFrom 0 c.arguments tokens vs [] ∧
        bound = (c.arguments.map Argument.name).zip vs := by
  rw [Understands, Command.takeSubcommand, if_pos hsub]
  constructor
  · rintro ⟨left, vs, dropped, hs, ht, hd, rfl⟩
    cases hs
    obtain rfl := hd hreject
    exact ⟨rfl, vs, ht, rfl⟩
  · rintro ⟨rfl, vs, ht, rfl⟩
    exact ⟨tokens, vs, [], rfl, ht, fun _ => rfl, rfl⟩

/-! ## The commands -/

/-- A command whose only argument is a query. -/
theorem understands_query_iff (hsub : c.subcommands = []) (hreject : c.trailing = .reject)
    (hargs : c.arguments = [⟨"query", .query⟩]) :
    Understands c tokens subcommand bound ↔
      subcommand = none ∧ ∃ q : Query, tokens.map Token.text = [q.display] ∧ q.WellFormed ∧
        bound = [("query", .query q)] := by
  rw [understands_iff hsub hreject, hargs]
  constructor
  · rintro ⟨rfl, vs, h, rfl⟩
    obtain ⟨q, ht, hq, rfl⟩ := takesFrom_one_query_iff.1 h
    exact ⟨rfl, q, ht, hq, rfl⟩
  · rintro ⟨rfl, q, ht, hq, rfl⟩
    exact ⟨rfl, _, takesFrom_one_query_iff.2 ⟨q, ht, hq, rfl⟩, rfl⟩

/-- A command without arguments that ignores what is left over understands anything. -/
theorem understands_ignore_iff (hsub : c.subcommands = []) (hignore : c.trailing = .ignore)
    (hargs : c.arguments = []) :
    Understands c tokens subcommand bound ↔ subcommand = none ∧ bound = [] := by
  rw [Understands, Command.takeSubcommand, if_pos hsub, hargs, hignore]
  constructor
  · rintro ⟨left, vs, dropped, hs, -, -, rfl⟩
    cases hs
    exact ⟨rfl, rfl⟩
  · rintro ⟨rfl, rfl⟩
    exact ⟨tokens, [], tokens, rfl, .nil, nofun, rfl⟩

theorem understands_get_iff :
    Understands get tokens subcommand bound ↔
      Form get (tokens.map Token.text) subcommand bound := by
  rw [understands_query_iff rfl rfl rfl]
  constructor
  · rintro ⟨rfl, q, ht, hq, rfl⟩
    rw [ht]
    exact .get hq
  · intro h
    -- the other forms belong to other commands
    generalize hc : get = c, ht : tokens.map Token.text = ws at h
    cases h with
    | get hq => exact ⟨rfl, _, rfl, hq, rfl⟩
    | _ => exact absurd hc (by decide)

theorem understands_describe_iff :
    Understands describe tokens subcommand bound ↔
      Form describe (tokens.map Token.text) subcommand bound := by
  rw [understands_query_iff rfl rfl rfl]
  constructor
  · rintro ⟨rfl, q, ht, hq, rfl⟩
    rw [ht]
    exact .describe hq
  · intro h
    generalize hc : describe = c, ht : tokens.map Token.text = ws at h
    cases h with
    | describe hq => exact ⟨rfl, _, rfl, hq, rfl⟩
    | _ => exact absurd hc (by decide)

theorem understands_rollout_iff :
    Understands rollout tokens subcommand bound ↔
      Form rollout (tokens.map Token.text) subcommand bound := by
  constructor
  · rintro ⟨left, vs, dropped, hs, h, hd, rfl⟩
    obtain rfl := hd rfl
    obtain ⟨q, ht, hq, rfl⟩ := takesFrom_one_query_iff.1 h
    rcases Command.takeSubcommand_eq_ok_iff.1 hs with ⟨hnone, -⟩ | ⟨t, found, rfl, hf, rfl⟩
    · cases hnone
    · obtain ⟨hmem, hsame, -⟩ := Command.findSubcommand?_of_eq_some hf
      rw [List.map_cons, ht]
      exact .rollout hmem hsame hq
  · intro h
    generalize hc : rollout = c, hw : tokens.map Token.text = ws at h
    cases h with
    | rollout hmem hsame hq =>
      obtain ⟨t, left, rfl, rfl, ht⟩ := List.map_eq_cons_iff.1 hw
      refine ⟨left, _, [], Command.takeSubcommand_eq_ok_iff.2 (.inr ⟨t, _, rfl, ?_, rfl⟩),
        takesFrom_one_query_iff.2 ⟨_, ht, hq, rfl⟩, fun _ => rfl, rfl⟩
      exact Command.findSubcommand?_of_mem (by decide) hmem hsame
    | _ => exact absurd hc (by decide)

theorem understands_scale_iff :
    Understands scale tokens subcommand bound ↔
      Form scale (tokens.map Token.text) subcommand bound := by
  rw [understands_iff rfl rfl]
  constructor
  · rintro ⟨rfl, vs, h, rfl⟩
    obtain ⟨t, rest, q, ws, rfl, ht, hq, rfl, hrest⟩ := takesFrom_query_iff.1 h
    obtain ⟨v, passed, ws, rfl, hv, hnil⟩ := Command.takesFrom_cons_iff.1 hrest
    obtain ⟨rfl, rfl⟩ := Command.takesFrom_nil_iff.1 hnil
    cases hv with
    | accepted hv =>
      obtain ⟨n, hn, rfl⟩ := validate?_nonNegative_iff.1 hv
      rw [List.map_cons, List.map_singleton, ht]
      exact .scale hq hn
  · intro h
    generalize hc : scale = c, hw : tokens.map Token.text = ws at h
    cases h with
    | scale hq hn =>
      obtain ⟨t, rest, rfl, ht, hrest⟩ := List.map_eq_cons_iff.1 hw
      obtain ⟨u, rfl, rfl⟩ := List.map_eq_singleton_iff.1 hrest
      refine ⟨rfl, _, takesFrom_query_iff.2 ⟨t, _, _, _, rfl, ht, hq, rfl, .cons ?_ .nil⟩, rfl⟩
      exact .accepted (validate?_nonNegative_iff.2 ⟨_, hn, rfl⟩)
    | _ => exact absurd hc (by decide)

theorem logs_arguments :
    logs.arguments = [⟨"query", .query⟩, ⟨"direction", .keywords (Choices.group LogDirection)⟩,
      ⟨"lines", .validated .positive (some (.integer 25))⟩] := rfl

theorem understands_logs_iff :
    Understands logs tokens subcommand bound ↔
      Form logs (tokens.map Token.text) subcommand bound := by
  rw [understands_iff rfl rfl, logs_arguments]
  constructor
  · rintro ⟨rfl, vs, h, rfl⟩
    obtain ⟨t, rest, q, ws, rfl, ht, hq, rfl, hrest⟩ := takesFrom_query_iff.1 h
    obtain ⟨direction, lines, hoptions, rfl⟩ := takesFrom_logOptions_iff.1 hrest
    rw [List.map_cons, ht]
    exact .logs hq hoptions
  · intro h
    generalize hc : logs = c, hw : tokens.map Token.text = ws at h
    cases h with
    | logs hq hoptions =>
      obtain ⟨t, rest, rfl, ht, rfl⟩ := List.map_eq_cons_iff.1 hw
      exact ⟨rfl, _, takesFrom_query_iff.2 ⟨t, rest, _, _, rfl, ht, hq, rfl,
        takesFrom_logOptions_iff.2 ⟨_, _, hoptions, rfl⟩⟩, rfl⟩
    | _ => exact absurd hc (by decide)

theorem understands_version_iff :
    Understands version tokens subcommand bound ↔
      Form version (tokens.map Token.text) subcommand bound := by
  rw [understands_ignore_iff rfl rfl rfl]
  constructor
  · rintro ⟨rfl, rfl⟩
    exact .version
  · intro h
    generalize hc : version = c, tokens.map Token.text = ws at h
    cases h with
    | version => exact ⟨rfl, rfl⟩
    | _ => exact absurd hc (by decide)

theorem understands_help_iff :
    Understands help tokens subcommand bound ↔
      Form help (tokens.map Token.text) subcommand bound := by
  rw [understands_ignore_iff rfl rfl rfl]
  constructor
  · rintro ⟨rfl, rfl⟩
    exact .help
  · intro h
    generalize hc : help = c, tokens.map Token.text = ws at h
    cases h with
    | help => exact ⟨rfl, rfl⟩
    | _ => exact absurd hc (by decide)

/-- The words of the tokens that pass a test of words. -/
theorem map_text_filter (tokens : List Token) (P : String → Prop) [DecidablePred P] :
    (tokens.filter fun t => P t.text).map Token.text = (tokens.map Token.text).filter (P ·) := by
  rw [List.filter_map]
  rfl

theorem understands_track_iff :
    Understands track tokens subcommand bound ↔
      Form track (tokens.map Token.text) subcommand bound := by
  rw [understands_iff rfl rfl, track_arguments]
  constructor
  · rintro ⟨rfl, vs, h, rfl⟩
    obtain ⟨_, _, ws, rfl, hrepo, h1⟩ := Command.takesFrom_cons_iff.1 h
    obtain ⟨_, _, ws, rfl, hchannels, h2⟩ := Command.takesFrom_cons_iff.1 h1
    obtain ⟨_, _, ws, rfl, hauthor, h3⟩ := Command.takesFrom_cons_iff.1 h2
    obtain ⟨_, _, ws, rfl, hresult, h4⟩ := Command.takesFrom_cons_iff.1 h3
    obtain ⟨_, _, ws, rfl, hbranches, h5⟩ := Command.takesFrom_cons_iff.1 h4
    obtain ⟨rfl, rfl⟩ := Command.takesFrom_nil_iff.1 h5
    cases hrepo with
    | @positional _ t _ =>
      obtain ⟨run, channels, rfl, hrun, hne, -, rfl⟩ := takes_channels_iff.1 hchannels
      obtain ⟨author, ha, rfl, rfl⟩ := takes_choice_iff.1 hauthor
      obtain ⟨result, hr, rfl, rfl⟩ := takes_choice_iff.1 hresult
      obtain ⟨branches, hb, hall, rfl⟩ := takes_branches_iff.1 hbranches
      rw [List.map_cons, List.map_append, hrun]
      refine .track hne (trackOptions_of_sorted ha ?_ ?_ fun w hw => (hall w hw).1)
      · rw [← map_text_filter]
        exact hr
      · rw [← map_text_filter, ← map_text_filter]
        exact hb
  · intro h
    generalize hc : track = c, hw : tokens.map Token.text = ws at h
    cases h with
    | @track _ channels words author result branches hne hoptions =>
      obtain ⟨t, rest, rfl, rfl, hrest⟩ := List.map_eq_cons_iff.1 hw
      obtain ⟨run, left, rfl, hrun, hleft⟩ := List.map_eq_append_iff.1 hrest
      obtain ⟨ha, hr, hb, hno⟩ := hoptions.sorted
      refine ⟨rfl, _, .cons .positional (.cons (takes_channels_iff.2
        ⟨run, channels, rfl, hrun, hne, ?_, rfl⟩) (.cons (takes_choice_iff.2
        ⟨author, ?_, rfl, rfl⟩) (.cons (takes_choice_iff.2 ⟨result, ?_, rfl, rfl⟩)
        (.cons (takes_branches_iff.2 ⟨branches, ?_, ?_, rfl⟩) .nil)))), rfl⟩
      · intro u hu channel hchannel
        by_contra
        have hmem : "#" ++ channel ∈ words := by
          rw [← hchannel, ← hleft]
          exact List.mem_map_of_mem (List.mem_of_mem_head? hu)
        exact hoptions.head?_ne_mark hmem (head?_mark channel)
      · rw [hleft]
        exact ha
      · rw [← hleft, ← map_text_filter] at hr
        exact hr
      · rw [← hleft, ← map_text_filter, ← map_text_filter] at hb
        exact hb
      · intro w hw
        refine ⟨hno w hw, ?_⟩
        rw [← hb, List.mem_filter, List.mem_filter, decide_eq_true_eq, decide_eq_true_eq] at hw
        exact ⟨hw.1.2, hw.2⟩
    | _ => exact absurd hc (by decide)

theorem understands_config_iff :
    Understands config tokens subcommand bound ↔
      Form config (tokens.map Token.text) subcommand bound := by
  rw [understands_iff rfl rfl]
  constructor
  · rintro ⟨rfl, vs, h, rfl⟩
    obtain ⟨v, passed, ws, rfl, hv, h⟩ := Command.takesFrom_cons_iff.1 h
    obtain ⟨v', left, ws, rfl, hv', h⟩ := Command.takesFrom_cons_iff.1 h
    obtain ⟨rfl, rfl⟩ := Command.takesFrom_nil_iff.1 h
    rcases takes_optional_iff.1 hv with ⟨t, rfl, rfl⟩ | ⟨rfl, rfl, rfl⟩
    · rcases takes_optional_iff.1 hv' with ⟨u, rfl, rfl⟩ | ⟨rfl, -, rfl⟩
      · exact .configValue
      · exact .configKey
    · rcases takes_optional_iff.1 hv' with ⟨u, hu, -⟩ | ⟨-, -, rfl⟩
      · cases hu
      · exact .configAll
  · intro h
    generalize hc : config = c, hw : tokens.map Token.text = ws at h
    cases h with
    | configAll =>
      obtain rfl := List.map_eq_nil_iff.1 hw
      exact ⟨rfl, _, .cons (takes_optional_iff.2 (.inr ⟨rfl, rfl, rfl⟩))
        (.cons (takes_optional_iff.2 (.inr ⟨rfl, rfl, rfl⟩)) .nil), rfl⟩
    | configKey =>
      obtain ⟨t, rfl, rfl⟩ := List.map_eq_singleton_iff.1 hw
      exact ⟨rfl, _, .cons (takes_optional_iff.2 (.inl ⟨t, rfl, rfl⟩))
        (.cons (takes_optional_iff.2 (.inr ⟨rfl, rfl, rfl⟩)) .nil), rfl⟩
    | configValue =>
      obtain ⟨t, rest, rfl, rfl, hrest⟩ := List.map_eq_cons_iff.1 hw
      obtain ⟨u, rfl, rfl⟩ := List.map_eq_singleton_iff.1 hrest
      exact ⟨rfl, _, .cons (takes_optional_iff.2 (.inl ⟨t, rfl, rfl⟩))
        (.cons (takes_optional_iff.2 (.inl ⟨u, rfl, rfl⟩)) .nil), rfl⟩
    | _ => exact absurd hc (by decide)

/-! ## The registry -/

/-- A built-in command understands exactly the words of its form. -/
theorem understands_iff_form (hc : c ∈ commands) :
    Understands c tokens subcommand bound ↔ Form c (tokens.map Token.text) subcommand bound := by
  simp only [commands, List.mem_cons, List.not_mem_nil, or_false] at hc
  rcases hc with rfl | rfl | rfl | rfl | rfl | rfl | rfl | rfl | rfl
  · exact understands_get_iff
  · exact understands_describe_iff
  · exact understands_rollout_iff
  · exact understands_scale_iff
  · exact understands_logs_iff
  · exact understands_version_iff
  · exact understands_track_iff
  · exact understands_config_iff
  · exact understands_help_iff

/-- The registry of the built-in commands understands a message exactly when its words say
something in their language, and then it understands what they say. -/
theorem parse_eq_ok_iff_asks :
    (∃ log, load = .ok (registry, log)) ∧
      ∀ (message : String) (request : Request), registry.parse message = .ok request ↔
        Asks ((tokenize message).map Token.text) request := by
  refine ⟨load_eq_registry, fun message request => ?_⟩
  rw [Registry.parse_eq_ok_iff]
  constructor
  · rintro ⟨head, rest, left, vs, dropped, htokens, hfind, hsub, htakes, hdropped, haugments⟩
    obtain ⟨hc, hname⟩ := find?_eq_some_iff.1 hfind
    refine ⟨head.text, rest.map Token.text, _, by rw [htokens, List.map_cons], hname, ?_,
      haugments⟩
    exact (understands_iff_form hc).1 ⟨left, vs, dropped, hsub, htakes, hdropped, rfl⟩
  · rintro ⟨word, words, bound, hwords, hname, hform, haugments⟩
    have hc := hform.mem_commands
    obtain ⟨head, rest, htokens, rfl, rfl⟩ := List.map_eq_cons_iff.1 hwords
    obtain ⟨left, vs, dropped, hsub, htakes, hdropped, rfl⟩ := (understands_iff_form hc).2 hform
    exact ⟨head, rest, left, vs, dropped, htokens, find?_eq_some_iff.2 ⟨hc, hname⟩, hsub, htakes,
      hdropped, haugments⟩

/-- A message with its options in the other order, and what it says. -/
theorem parse_eq_ok_iff_asks_logs :
    Asks ["Logs", "pod/web", "40", "top"]
        ⟨logs, none, .ofList [("query", .query ⟨"pod", "web", none⟩),
          ("direction", .keyword "top"), ("lines", .integer 40)]⟩ ∧
      registry.parse "Logs pod/web 40 top" = .ok
        ⟨logs, none, .ofList [("query", .query ⟨"pod", "web", none⟩),
          ("direction", .keyword "top"), ("lines", .integer 40)]⟩ := by
  have h : registry.parse "Logs pod/web 40 top" = .ok
      ⟨logs, none, .ofList [("query", .query ⟨"pod", "web", none⟩),
        ("direction", .keyword "top"), ("lines", .integer 40)]⟩ := by
    decide +kernel
  have hwords : (tokenize "Logs pod/web 40 top").map Token.text = ["Logs", "pod/web", "40", "top"] := by
    decide +kernel
  have hasks := (parse_eq_ok_iff_asks.2 _ _).1 h
  rw [hwords] at hasks
  exact ⟨hasks, h⟩

end Builtin

end ChatOps
