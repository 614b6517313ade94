/-
What canonical text is worth for any command. Registration asks little of a command, so not every
request is understood again from its canonical text. It is when the arguments have names of their
own and none of them is misread: the name and the subcommand are always read back, whatever they are.
-/
import ChatOps.Proofs.Message.Rereading
import ChatOps.Proofs.NameMap
import ChatOps.Proofs.Registry.Parse
import ChatOps.Proofs.Text.Case

namespace ChatOps

open Text

/-- Each argument with a value of its own. -/
theorem filterMap_eq_zip {α β : Type} {f : α → Option (α × β)} {as : List α} {bs : List β}
    (hlen : as.length = bs.length) (h : ∀ p ∈ as.zip bs, f p.1 = some p) :
    as.filterMap f = as.zip bs := by
  induction as generalizing bs with
  | nil => rfl
  | cons a as ih =>
    cases bs with
    | nil => cases hlen
    | cons b bs =>
      rw [List.zip_cons_cons, List.forall_mem_cons] at h
      rw [List.filterMap_cons_some h.1, List.zip_cons_cons, ih (Nat.succ.inj hlen) h.2]

namespace Request

/-- A request of distinct arguments lists them with the values they have bound. -/
theorem entries_eq {request : Request} {vs : List Value}
    (hnames : (request.command.arguments.map Argument.name).Nodup)
    (hlen : request.command.arguments.length = vs.length)
    (h : request.augments =
      NameMap.ofList ((request.command.arguments.map Argument.name).zip vs)) :
    request.entries = request.command.arguments.zip vs := by
  refine filterMap_eq_zip hlen fun p hp => ?_
  have hmem : (p.1.name, p.2) ∈ (request.command.arguments.map Argument.name).zip vs := by
    rw [List.zip_map_left]
    exact List.mem_map_of_mem (f := Prod.map Argument.name id) hp
  rw [get?, h, NameMap.get?_ofList ?_ hmem]
  · rfl
  · rw [List.map_fst_zip (by rw [List.length_map, hlen])]
    exact hnames

end Request

variable {r : Registry} {message : String} {request : Request}

namespace Registry

/-- A name that a word finds is a word. -/
theorem WF.isWord_name (hr : r.WF) {word : String} {c : Command} (h : r.find? word = some c)
    (hword : IsWord word.toList) : IsWord c.name.toList :=
  isWord_of_lowercase (hr.key _ _ h).symm hword

end Registry

/-- A subcommand that a word finds is a word. -/
theorem Command.isWord_of_takeSubcommand {c : Command} {tokens left : List Token}
    {subcommand : Option String} (h : c.takeSubcommand tokens = .ok (subcommand, left))
    (htokens : ∀ t ∈ tokens, IsWord t.text.toList) : ∀ word ∈ subcommand, IsWord word.toList := by
  rcases takeSubcommand_eq_ok_iff.1 h with ⟨-, rfl, -⟩ | ⟨t, found, rfl, hfound, rfl⟩
  · exact fun word hword => nomatch hword
  · rintro _ ⟨⟩
    have hsame := (findSubcommand?_of_eq_some hfound).2.1
    exact isWord_of_foldCase (sameIgnoringCase_iff.1 hsame) (htokens t List.mem_cons_self)

/-- The tokens of canonical text: the name, the subcommand, and the words of the values. -/
theorem Request.map_text_tokenize_canonicalText (hname : IsWord request.command.name.toList)
    (hsub : ∀ word ∈ request.subcommand, IsWord word.toList) :
    (tokenize request.canonicalText).map Token.text =
      request.command.name :: (request.subcommand.toList ++
        request.entries.flatMap writtenWords) := by
  have hhead : ∀ word ∈ request.command.name :: request.subcommand.toList, IsWord word.toList := by
    rw [List.forall_mem_cons]
    exact ⟨hname, fun word hword => hsub word (Option.mem_toList.1 hword)⟩
  rw [canonicalText, map_text_tokenize_spaced, List.flatMap_append,
    flatMap_tokenize_of_isWord hhead, List.flatMap_assoc]
  rfl

/-- The tokens that are left for the arguments are words. -/
theorem isWord_of_mem_left {c : Command} {head : Token} {rest left : List Token}
    {subcommand : Option String} (htokens : tokenize message = head :: rest)
    (hsub : c.takeSubcommand rest = .ok (subcommand, left)) :
    ∀ t ∈ left, IsWord t.text.toList := by
  intro t ht
  have hrest : t ∈ rest := (Command.takeSubcommand_subset hsub).2 ht
  have hmem : t ∈ tokenize message := htokens ▸ List.mem_cons_of_mem head hrest
  exact isWord_text_of_mem_tokenize hmem

namespace Registry

/-- The tokens of canonical text, in the parts that are read one after the other. -/
theorem Reachable.tokenize_canonicalText (hr : r.Reachable) (h : r.parse message = .ok request) :
    ∃ (head : Token) (own args : List Token),
      tokenize request.canonicalText = head :: (own ++ args) ∧
      (tokenize request.canonicalText).drop (request.subcommand.toList.length + 1) = args ∧
      head.text = request.command.name ∧ own.map Token.text = request.subcommand.toList ∧
      args.map Token.text = request.entries.flatMap Request.writtenWords := by
  obtain ⟨head, rest, left, vs, dropped, htokens, hfind, hsub, -⟩ := parse_eq_ok_iff.1 h
  have hwords : ∀ t ∈ head :: rest, IsWord t.text.toList := by
    rw [← htokens]
    exact fun t ht => isWord_text_of_mem_tokenize ht
  rw [List.forall_mem_cons] at hwords
  have htexts := Request.map_text_tokenize_canonicalText (hr.wf.isWord_name hfind hwords.1)
    (Command.isWord_of_takeSubcommand hsub hwords.2)
  obtain ⟨head', rest', htokens', hhead', hrest'⟩ := List.map_eq_cons_iff.1 htexts
  obtain ⟨own, args, rfl, hown, hargs⟩ := List.map_eq_append_iff.1 hrest'
  refine ⟨head', own, args, htokens', ?_, hhead', hown, hargs⟩
  rw [htokens', ← hown, List.length_map, List.drop_succ_cons, List.drop_left]

/-- A request is read back word for word exactly if none of its arguments is misread. -/
theorem Reachable.isReread_iff (hr : r.Reachable) (h : r.parse message = .ok request)
    (hnames : (request.command.arguments.map Argument.name).Nodup) :
    request.IsReread ↔ ¬ request.IsMisread := by
  obtain ⟨-, -, args, -, hdrop, -, -, hargs⟩ := hr.tokenize_canonicalText h
  obtain ⟨head, rest, left, vs, dropped, htokens, hfind, hsub, htakes, -, haugments⟩ :=
    parse_eq_ok_iff.1 h
  have hentries := request.entries_eq hnames htakes.length_eq haugments
  rw [Request.IsReread, Request.IsMisread, hdrop, hentries]
  rw [hentries] at hargs
  exact htakes.rereadsFrom_iff (isWord_of_mem_left htokens hsub) hargs

/-- Canonical text is understood as far as its arguments: its name finds the command again, and the
subcommand is taken in its own spelling. -/
theorem Reachable.resolve_canonicalText (hr : r.Reachable) (h : r.parse message = .ok request) :
    ∃ (head : Token) (own args : List Token),
      tokenize request.canonicalText = head :: (own ++ args) ∧
      (tokenize request.canonicalText).drop (request.subcommand.toList.length + 1) = args ∧
      own.map Token.text = request.subcommand.toList ∧
      r.find? head.text = some request.command ∧
      request.command.takeSubcommand (own ++ args) = .ok (request.subcommand, args) := by
  obtain ⟨head', own, args, htokens', hdrop, hhead', hown, -⟩ := hr.tokenize_canonicalText h
  obtain ⟨head, rest, left, vs, dropped, -, hfind, hsub, -⟩ := parse_eq_ok_iff.1 h
  refine ⟨head', own, args, htokens', hdrop, hown, ?_, Command.takeSubcommand_reread hsub hown args⟩
  rw [hhead', find?, ← hr.wf.key _ _ hfind]
  exact hfind

/-- Nothing but the binding of its arguments decides what canonical text is understood as. -/
theorem Reachable.parse_canonicalText_eq (hr : r.Reachable) (h : r.parse message = .ok request) :
    r.parse request.canonicalText =
      (request.command.bind (tokenize request.canonicalText).length
        ((tokenize request.canonicalText).drop (request.subcommand.toList.length + 1))).map
        fun augments => ⟨request.command, request.subcommand, augments⟩ := by
  obtain ⟨head, own, args, htokens, hdrop, -, hfind, hsub⟩ := hr.resolve_canonicalText h
  rw [hdrop, parse, htokens, parseTokens, hfind]
  dsimp only
  rw [hsub]
  show (request.command.bind (head :: (own ++ args)).length args >>= fun augments =>
    .ok (Request.mk request.command request.subcommand augments)) = _
  cases request.command.bind (head :: (own ++ args)).length args with
  | error e => rfl
  | ok augments => rfl

/-- What is read back word for word is the request again. -/
theorem Reachable.parse_canonicalText_of_isReread (hr : r.Reachable)
    (h : r.parse message = .ok request)
    (hnames : (request.command.arguments.map Argument.name).Nodup) (hread : request.IsReread) :
    r.parse request.canonicalText = .ok request := by
  obtain ⟨head, rest, left, vs, dropped, -, -, -, htakes, -, haugments⟩ := parse_eq_ok_iff.1 h
  have hentries := request.entries_eq hnames htakes.length_eq haugments
  rw [Request.IsReread, hentries] at hread
  have htakes' := hread.takesFrom
  rw [List.map_fst_zip htakes.length_eq.le, List.map_snd_zip htakes.length_eq.ge] at htakes'
  have hbind : ∀ count, request.command.bind count
      ((tokenize request.canonicalText).drop (request.subcommand.toList.length + 1)) =
        .ok request.augments :=
    fun _ => Command.bind_eq_ok_iff.2 ⟨vs, [], htakes', fun _ => rfl, haugments⟩
  rw [hr.parse_canonicalText_eq h, hbind]
  rfl

/-- A command that can be written out has no request that is misread. -/
theorem Reachable.not_isMisread (hr : r.Reachable) (h : r.parse message = .ok request)
    (hc : request.command.IsWritable) : ¬ request.IsMisread := by
  obtain ⟨head, rest, left, vs, dropped, htokens, hfind, hsub, htakes, -, haugments⟩ :=
    parse_eq_ok_iff.1 h
  rw [Request.IsMisread, request.entries_eq hc.names htakes.length_eq haugments]
  exact htakes.not_misreadFrom rfl hc.arguments (hr.wf.unambiguous _ _ hfind)
    (isWord_of_mem_left htokens hsub)

end Registry

/-- What canonical text is worth. In every registry that registration makes, for every command whose
arguments have names of their own, and whatever the values are: the arguments of a request take from
its canonical text exactly the words they were written as if none of them is misread, and only then.
The text is then understood as this request. -/
theorem canonicalText_reread (hr : r.Reachable) (h : r.parse message = .ok request)
    (hnames : (request.command.arguments.map Argument.name).Nodup) :
    (request.IsReread ↔ ¬ request.IsMisread) ∧
      (¬ request.IsMisread → r.parse request.canonicalText = .ok request) := by
  have hexact := hr.isReread_iff h hnames
  refine ⟨hexact, fun hread => ?_⟩
  exact hr.parse_canonicalText_of_isReread h hnames (hexact.2 hread)

namespace Sample

/-- A command that deploys a target, or what was deployed last, at some speed. -/
def deploy : Command where
  name := "deploy"
  arguments :=
    [.optional "target", ⟨"speed", .keywords ⟨[("fast", "fast"), ("slow", "slow")], "fast"⟩⟩]

/-- The registry of this command alone. -/
def registry : Registry := ⟨NameMap.empty.insert (lowercase deploy.name) deploy⟩

theorem register_deploy : Registry.empty.register deploy = .ok registry :=
  Registry.register_eq_ok_iff.2 ⟨by decide +kernel, by decide +kernel, rfl⟩

end Sample

/-- A target keeps its place in front of the speed. -/
theorem canonicalText_reread_deploy :
    ∃ request : Request, Sample.registry.parse "deploy web" = .ok request ∧
      request.canonicalText = "deploy web fast" ∧
      Sample.registry.parse "deploy web fast" = .ok request := by
  have h : Sample.registry.parse "deploy web" = .ok
      ⟨Sample.deploy, none, .ofList [("target", .text "web"), ("speed", .keyword "fast")]⟩ := by
    decide +kernel
  have htext : Request.canonicalText
      ⟨Sample.deploy, none, .ofList [("target", .text "web"), ("speed", .keyword "fast")]⟩ =
        "deploy web fast" := by
    decide +kernel
  have hreachable := Registry.Reachable.empty.register Sample.register_deploy
  have hagain := (canonicalText_reread hreachable h (by decide +kernel)).2 (by decide +kernel)
  rw [htext] at hagain
  exact ⟨_, h, htext, hagain⟩

/-- Without a target the speed is taken for one: it is written out although it is the default. -/
theorem canonicalText_misread_deploy :
    ∃ request other : Request, Registry.empty.register Sample.deploy = .ok Sample.registry ∧
      Sample.registry.parse "deploy" = .ok request ∧ request.canonicalText = "deploy fast" ∧
      Sample.registry.parse "deploy fast" = .ok other ∧ other ≠ request ∧
      (request.command.arguments.map Argument.name).Nodup ∧ request.IsMisread := by
  refine ⟨⟨Sample.deploy, none, .ofList [("target", .unset), ("speed", .keyword "fast")]⟩,
    ⟨Sample.deploy, none, .ofList [("target", .text "fast"), ("speed", .keyword "fast")]⟩,
    Sample.register_deploy, ?_, ?_, ?_, ?_, ?_, ?_⟩
  · decide +kernel
  · decide +kernel
  · decide +kernel
  · decide +kernel
  · decide +kernel
  · decide +kernel

end ChatOps
