/-
What a registry holds after any calls to register commands, some of which fail. Of the commands with
one lowercase name it holds the first that does not claim a keyword twice; so the order of commands
with different names is no matter, and later calls take nothing away from a message that is
understood already.
-/
import ChatOps.Proofs.Builtin.Registry
import ChatOps.Registry.Parse

namespace ChatOps

open Text

/-! ## Keywords that two arguments claim -/

instance (as : List Argument) : Decidable (Argument.Unambiguous as) := by
  unfold Argument.Unambiguous
  infer_instance

namespace Command

/-- The word is a keyword of two arguments. -/
def Shares (c : Command) (word : String) : Prop :=
  ∃ (i j : Nat) (a b : Argument), i < j ∧ c.arguments[i]? = some a ∧ c.arguments[j]? = some b ∧
    word ∈ a.reserved ∧ word ∈ b.reserved

variable {c : Command} {word : String}

theorem unambiguous_iff : Argument.Unambiguous c.arguments ↔ ¬ ∃ word, c.Shares word := by
  rw [Argument.Unambiguous, List.pairwise_iff_getElem]
  constructor
  · rintro h ⟨word, i, j, a, b, hij, ha, hb, hwa, hwb⟩
    obtain ⟨hi, rfl⟩ := List.getElem?_eq_some_iff.1 ha
    obtain ⟨hj, rfl⟩ := List.getElem?_eq_some_iff.1 hb
    exact h i j hi hj hij word hwa hwb
  · intro h i j hi hj hij word hwa hwb
    exact h ⟨word, i, j, _, _, hij, List.getElem?_eq_getElem hi, List.getElem?_eq_getElem hj, hwa,
      hwb⟩

theorem shares_of_ambiguousKeyword? (h : c.ambiguousKeyword? = some word) : c.Shares word := by
  obtain ⟨⟨w, i⟩, hfind, rfl⟩ := Option.map_eq_some_iff.1 h
  have helsewhere := List.find?_some hfind
  obtain ⟨j, b, hb, hji, hwb⟩ := isReservedElsewhere_iff.1 helsewhere
  have hplace := List.mem_of_find?_eq_some hfind
  rw [keywordPlaces, List.mem_flatMap] at hplace
  obtain ⟨⟨a, k⟩, ha, hw⟩ := hplace
  obtain ⟨w', hwa, hw'⟩ := List.mem_map.1 hw
  cases hw'
  rw [List.mk_mem_zipIdx_iff_getElem?] at ha
  rcases Nat.lt_or_gt_of_ne hji with hlt | hlt
  · exact ⟨j, i, b, a, hlt, hb, ha, hwb, hwa⟩
  · exact ⟨i, j, a, b, hlt, ha, hb, hwa, hwb⟩

theorem ambiguousKeyword?_eq_none_iff :
    c.ambiguousKeyword? = none ↔ Argument.Unambiguous c.arguments := by
  constructor
  · exact unambiguous_of_ambiguousKeyword?
  · intro h
    rw [Option.eq_none_iff_forall_ne_some]
    intro word hword
    exact unambiguous_iff.1 h ⟨word, shares_of_ambiguousKeyword? hword⟩

end Command

namespace Registry

/-! ## One call -/

variable {r : Registry} {c : Command}

theorem register_eq_error_iff {e : RegistryError} :
    r.register c = .error e ↔
      (r.commands.contains (lowercase c.name) = true ∧ e = .duplicateCommand c.name) ∨
      (r.commands.contains (lowercase c.name) = false ∧
        ∃ word, c.ambiguousKeyword? = some word ∧ e = .ambiguousKeyword c.name word) := by
  unfold register
  split
  · rename_i h
    simp [h, eq_comm]
  · rename_i h
    rw [Bool.not_eq_true] at h
    split
    · rename_i word hw
      simp [h, hw, eq_comm]
    · rename_i hw
      simp [hw, h]

theorem register_eq_duplicateCommand_iff :
    r.register c = .error (.duplicateCommand c.name) ↔
      r.commands.contains (lowercase c.name) = true := by
  rw [register_eq_error_iff]
  simp

theorem shares_of_register {word : String}
    (h : r.register c = .error (.ambiguousKeyword c.name word)) : c.Shares word := by
  rcases register_eq_error_iff.1 h with ⟨-, ⟨⟩⟩ | ⟨-, _, hword, ⟨⟩⟩
  exact Command.shares_of_ambiguousKeyword? hword

theorem exists_register_eq_ambiguousKeyword_iff :
    (∃ word, r.register c = .error (.ambiguousKeyword c.name word)) ↔
      r.commands.contains (lowercase c.name) = false ∧ ∃ word, c.Shares word := by
  constructor
  · rintro ⟨word, h⟩
    refine ⟨?_, word, shares_of_register h⟩
    rcases register_eq_error_iff.1 h with ⟨-, ⟨⟩⟩ | ⟨hnew, -⟩
    exact hnew
  · rintro ⟨hnew, hshares⟩
    have hsome : c.ambiguousKeyword? ≠ none := by
      rw [Ne, Command.ambiguousKeyword?_eq_none_iff, Command.unambiguous_iff, not_not]
      exact hshares
    obtain ⟨word, hword⟩ := Option.ne_none_iff_exists'.1 hsome
    exact ⟨word, register_eq_error_iff.2 (.inr ⟨hnew, word, hword, rfl⟩)⟩

theorem exists_register_eq_ok_iff :
    (∃ r', r.register c = .ok r') ↔
      r.commands.contains (lowercase c.name) = false ∧ ¬ ∃ word, c.Shares word := by
  simp only [register_eq_ok_iff, Command.ambiguousKeyword?_eq_none_iff, Command.unambiguous_iff]
  constructor
  · rintro ⟨r', hnew, hshares, -⟩
    exact ⟨hnew, hshares⟩
  · rintro ⟨hnew, hshares⟩
    exact ⟨_, hnew, hshares, rfl⟩

/-- The registry after a call to register a command. A call that fails changes nothing. -/
def afterCall (r : Registry) (c : Command) : Registry :=
  match r.register c with
  | .ok r' => r'
  | .error _ => r

/-- The registry after calls to register commands, one after the other. -/
def afterCalls (r : Registry) (cs : List Command) : Registry := cs.foldl afterCall r

/-- What the calls return. -/
def outcomes (r : Registry) : List Command → List (Except RegistryError Registry)
  | [] => []
  | c :: cs => r.register c :: (r.afterCall c).outcomes cs

/-- The command may be held under this name. -/
def Admissible (key : String) (c : Command) : Prop :=
  lowercase c.name = key ∧ Argument.Unambiguous c.arguments

instance (key : String) (c : Command) : Decidable (Admissible key c) := by
  unfold Admissible
  infer_instance

/-- A call leaves what is there, and adds a command that may be held where nothing is. -/
theorem get?_afterCall (r : Registry) (c : Command) (key : String) :
    (r.afterCall c).commands.get? key =
      (r.commands.get? key).or (if Admissible key c then some c else none) := by
  unfold afterCall
  cases h : r.register c with
  | ok r' =>
    obtain ⟨hnew, hambiguous, rfl⟩ := register_eq_ok_iff.1 h
    have hu := Command.ambiguousKeyword?_eq_none_iff.1 hambiguous
    rw [NameMap.get?_insert]
    by_cases hkey : key = lowercase c.name
    · have hnone : r.commands.get? key = none := by
        rwa [hkey, ← Option.isSome_eq_false_iff.trans Option.isNone_iff_eq_none]
      rw [if_pos hkey, hnone, Option.none_or, if_pos ⟨hkey.symm, hu⟩]
    · rw [if_neg hkey, if_neg fun ha => hkey ha.1.symm, Option.or_none]
  | error e =>
    rcases register_eq_error_iff.1 h with ⟨htaken, -⟩ | ⟨-, word, hword, -⟩
    · by_cases hkey : lowercase c.name = key
      · obtain ⟨d, hd⟩ := Option.isSome_iff_exists.1 htaken
        rw [← hkey, hd, Option.some_or]
      · rw [if_neg fun ha => hkey ha.1, Option.or_none]
    · have hno : ¬ Argument.Unambiguous c.arguments := by
        rw [← Command.ambiguousKeyword?_eq_none_iff, hword]
        nofun
      rw [if_neg fun ha => hno ha.2, Option.or_none]

theorem size_afterCall (r : Registry) (c : Command) :
    (r.afterCall c).size = r.size + if (r.register c).isOk then 1 else 0 := by
  unfold afterCall
  cases h : r.register c with
  | ok r' =>
    obtain ⟨hnew, -, rfl⟩ := register_eq_ok_iff.1 h
    exact NameMap.size_insert hnew c
  | error e => rfl

theorem Reachable.afterCall (hr : r.Reachable) (c : Command) : (r.afterCall c).Reachable := by
  unfold Registry.afterCall
  cases h : r.register c with
  | ok r' => exact hr.register h
  | error e => exact hr

/-! ## Any calls -/

theorem afterCalls_append (r : Registry) (cs ds : List Command) :
    r.afterCalls (cs ++ ds) = (r.afterCalls cs).afterCalls ds :=
  List.foldl_append

/-- Calls leave what is there; where nothing is, the first command that may be held is held. -/
theorem get?_afterCalls (r : Registry) (cs : List Command) (key : String) :
    (r.afterCalls cs).commands.get? key =
      (r.commands.get? key).or (cs.find? (Admissible key ·)) := by
  induction cs generalizing r with
  | nil => rw [List.find?_nil, Option.or_none]; rfl
  | cons c cs ih =>
    rw [afterCalls, List.foldl_cons, ← afterCalls, ih, get?_afterCall, Option.or_assoc,
      List.find?_cons]
    by_cases h : Admissible key c
    · simp [h]
    · simp [h]

theorem size_afterCalls (r : Registry) (cs : List Command) :
    (r.afterCalls cs).size = r.size + (r.outcomes cs).countP (·.isOk) := by
  induction cs generalizing r with
  | nil => rfl
  | cons c cs ih =>
    rw [afterCalls, List.foldl_cons, ← afterCalls, ih, size_afterCall, outcomes, List.countP_cons]
    omega

theorem Reachable.afterCalls (hr : r.Reachable) (cs : List Command) :
    (r.afterCalls cs).Reachable := by
  induction cs generalizing r with
  | nil => exact hr
  | cons c cs ih => exact ih (hr.afterCall c)

/-! ## What is held -/

theorem WF.mem_toList_iff (hr : r.WF) :
    c ∈ r.toList ↔ r.commands.get? (lowercase c.name) = some c := by
  rw [toList, NameMap.values, List.mem_map, NameMap.get?_eq_some_iff]
  constructor
  · rintro ⟨⟨key, d⟩, he, rfl⟩
    rwa [← hr.key key d (NameMap.get?_eq_some_iff.2 he)]
  · intro he
    exact ⟨_, he, rfl⟩

theorem WF.lookup_eq_ok_iff (hr : r.WF) {word : String} :
    r.lookup word = .ok c ↔ c ∈ r.toList ∧ lowercase c.name = lowercase word := by
  have hfind : r.lookup word = .ok c ↔ r.find? word = some c := by
    unfold lookup
    cases r.find? word with
    | none => simp
    | some d => simp
  rw [hfind, find?, hr.mem_toList_iff]
  constructor
  · intro h
    have hkey := hr.key _ _ h
    exact ⟨hkey ▸ h, hkey.symm⟩
  · rintro ⟨h, hkey⟩
    exact hkey ▸ h

theorem WF.pairwise_toList (hr : r.WF) :
    r.toList.Pairwise fun a b => lowercase a.name < lowercase b.name := by
  refine List.pairwise_map.2 (r.commands.sorted.imp_of_mem fun {d e} hd he hlt => ?_)
  rwa [← hr.key d.1 d.2 (NameMap.get?_eq_some_iff.2 hd),
    ← hr.key e.1 e.2 (NameMap.get?_eq_some_iff.2 he)]

/-- A call that succeeds adds the command to those that are held. -/
theorem toList_register_perm {r' : Registry} (h : r.register c = .ok r') :
    r'.toList.Perm (c :: r.toList) := by
  obtain ⟨hnew, -, rfl⟩ := register_eq_ok_iff.1 h
  exact (NameMap.entries_insert_perm hnew c).map Prod.snd

/-! ## Order -/

/-- Of commands with different names at most one may be held under a name, wherever it stands. -/
theorem find?_admissible_eq_some_iff {cs : List Command}
    (h : (cs.map (lowercase ·.name)).Nodup) {key : String} :
    cs.find? (Admissible key ·) = some c ↔ c ∈ cs ∧ Admissible key c := by
  constructor
  · intro hc
    exact ⟨List.mem_of_find?_eq_some hc, by simpa using List.find?_some hc⟩
  · rintro ⟨hc, hkey⟩
    cases hd : cs.find? (Admissible key ·) with
    | none =>
      rw [List.find?_eq_none] at hd
      exact absurd hkey (by simpa using hd c hc)
    | some d =>
      have hdkey : Admissible key d := by simpa using List.find?_some hd
      rw [List.inj_on_of_nodup_map h hc (List.mem_of_find?_eq_some hd)
        (hkey.1.trans hdkey.1.symm)]

/-- Registering commands with different names in another order gives the same registry. -/
theorem afterCalls_perm {cs cs' : List Command} (h : cs.Perm cs')
    (hnames : (cs.map (lowercase ·.name)).Nodup) :
    empty.afterCalls cs = empty.afterCalls cs' := by
  have hnames' : (cs'.map (lowercase ·.name)).Nodup := (h.map _).nodup_iff.1 hnames
  have hcommands : (empty.afterCalls cs).commands = (empty.afterCalls cs').commands := by
    refine NameMap.ext_get? fun key => ?_
    rw [get?_afterCalls, get?_afterCalls]
    congr 1
    ext c
    rw [find?_admissible_eq_some_iff hnames, find?_admissible_eq_some_iff hnames', h.mem_iff]
  exact congrArg Registry.mk hcommands

/-! ## Later calls -/

theorem parse_afterCalls {message : String} {head : Token}
    (hhead : (tokenize message).head? = some head) (h : r.find? head.text = some c)
    (cs : List Command) : (r.afterCalls cs).parse message = r.parse message := by
  have hfind : (r.afterCalls cs).find? head.text = some c := by
    rw [find?, get?_afterCalls, ← find?, h, Option.some_or]
  obtain ⟨rest, htokens⟩ := List.head?_eq_some_iff.1 hhead
  rw [parse, parse, htokens, parseTokens, parseTokens, hfind, h]

/-! ## The main result -/

/-- What any calls to register commands leave and return. Under each lowercase name the registry
holds the first command of that name that shares no keyword between two of its arguments, and
nothing else; the next call fails, and changes nothing, exactly when the name is taken or else a
keyword is shared; look-up goes by lowercase names, the commands stand in their order, and every
successful call adds one. So commands with different names may come in any order, and a message
whose first word is known keeps its meaning. -/
theorem registry_of_calls (cs : List Command) :
    (∀ key, (empty.afterCalls cs).commands.get? key = cs.find? (Admissible key ·)) ∧
    (∀ c, c ∈ (empty.afterCalls cs).toList ↔
      cs.find? (Admissible (lowercase c.name) ·) = some c) ∧
    (∀ c,
      ((empty.afterCalls cs).register c = .error (.duplicateCommand c.name) ↔
        ∃ d ∈ cs, Admissible (lowercase c.name) d) ∧
      ((∃ word, (empty.afterCalls cs).register c = .error (.ambiguousKeyword c.name word)) ↔
        (¬ ∃ d ∈ cs, Admissible (lowercase c.name) d) ∧ ∃ word, c.Shares word) ∧
      (∀ word, (empty.afterCalls cs).register c = .error (.ambiguousKeyword c.name word) →
        c.Shares word) ∧
      ((∃ r, (empty.afterCalls cs).register c = .ok r) ↔
        (¬ ∃ d ∈ cs, Admissible (lowercase c.name) d) ∧ ¬ ∃ word, c.Shares word) ∧
      ∀ e, (empty.afterCalls cs).register c = .error e →
        empty.afterCalls (cs ++ [c]) = empty.afterCalls cs) ∧
    (∀ word c, (empty.afterCalls cs).lookup word = .ok c ↔
      c ∈ (empty.afterCalls cs).toList ∧ lowercase c.name = lowercase word) ∧
    (empty.afterCalls cs).toList.Pairwise (fun a b => lowercase a.name < lowercase b.name) ∧
    (empty.afterCalls cs).size = (empty.outcomes cs).countP (·.isOk) ∧
    (∀ cs', cs.Perm cs' → (cs.map (lowercase ·.name)).Nodup →
      empty.afterCalls cs' = empty.afterCalls cs) ∧
    ∀ message head c, (tokenize message).head? = some head →
      (empty.afterCalls cs).find? head.text = some c → ∀ more,
      (empty.afterCalls (cs ++ more)).parse message = (empty.afterCalls cs).parse message := by
  have hwf := (Reachable.empty.afterCalls cs).wf
  have hget : ∀ key, (empty.afterCalls cs).commands.get? key = cs.find? (Admissible key ·) := by
    intro key
    rw [get?_afterCalls, show empty.commands.get? key = none from rfl, Option.none_or]
  have htaken : ∀ c : Command,
      (empty.afterCalls cs).commands.contains (lowercase c.name) = true ↔
        ∃ d ∈ cs, Admissible (lowercase c.name) d := by
    intro c
    rw [NameMap.contains, hget, List.find?_isSome]
    simp only [decide_eq_true_eq]
  have hfree : ∀ c : Command,
      (empty.afterCalls cs).commands.contains (lowercase c.name) = false ↔
        ¬ ∃ d ∈ cs, Admissible (lowercase c.name) d := by
    intro c
    rw [← htaken, Bool.not_eq_true]
  refine ⟨hget, fun c => ?_, fun c => ⟨?_, ?_, fun word => shares_of_register, ?_, fun e he => ?_⟩,
    fun word c => hwf.lookup_eq_ok_iff, hwf.pairwise_toList, ?_, fun cs' h hnames => ?_,
    fun message head c hhead hfind more => ?_⟩
  · rw [hwf.mem_toList_iff, hget]
  · rw [register_eq_duplicateCommand_iff, htaken]
  · rw [exists_register_eq_ambiguousKeyword_iff, hfree]
  · rw [exists_register_eq_ok_iff, hfree]
  · rw [afterCalls_append, afterCalls, List.foldl_cons, List.foldl_nil, afterCall, he]
  · exact (size_afterCalls empty cs).trans (Nat.zero_add _)
  · exact (afterCalls_perm h hnames).symm
  · rw [afterCalls_append]
    exact parse_afterCalls hhead hfind more

/-- A command that claims a keyword twice does not take its name away from the one after it. -/
theorem registry_of_calls_logs :
    let twice : Command :=
      ⟨"Logs", "", [], [.choice "a" LogDirection, .choice "b" LogDirection], .reject⟩
    (empty.afterCalls [twice]).commands.get? "logs" = none ∧
      (∃ word, (empty.afterCalls []).register twice = .error (.ambiguousKeyword "Logs" word)) ∧
      (empty.afterCalls [twice, Builtin.logs]).register twice = .error (.duplicateCommand "Logs") ∧
      empty.afterCalls ([twice, Builtin.logs] ++ [twice]) = empty.afterCalls [twice, Builtin.logs] ∧
      empty.afterCalls [Builtin.logs, Builtin.get] = empty.afterCalls [Builtin.get, Builtin.logs] ∧
      (empty.afterCalls ([twice, Builtin.logs] ++ [Builtin.get])).parse "LOGS pod/web" =
        (empty.afterCalls [twice, Builtin.logs]).parse "LOGS pod/web" := by
  intro twice
  have htwice : ∃ word, twice.Shares word :=
    ⟨"top", 0, 1, _, _, by decide, rfl, rfl, by decide, by decide⟩
  have hlogs : Admissible (lowercase twice.name) Builtin.logs := by decide +kernel
  obtain ⟨hheld, -⟩ := registry_of_calls [twice]
  obtain ⟨-, -, hfirst, -⟩ := registry_of_calls []
  obtain ⟨-, -, hnext, -, -, -, -, hparse⟩ := registry_of_calls [twice, Builtin.logs]
  obtain ⟨-, -, -, -, -, -, hperm, -⟩ := registry_of_calls [Builtin.get, Builtin.logs]
  obtain ⟨hduplicate, -, -, -, hunchanged⟩ := hnext twice
  have htaken := hduplicate.2 ⟨Builtin.logs, by simp, hlogs⟩
  refine ⟨?_, (hfirst twice).2.1.2 ⟨by simp, htwice⟩, htaken, hunchanged _ htaken,
    hperm _ (.swap ..) (by decide +kernel), ?_⟩
  · rw [hheld]
    decide +kernel
  · exact hparse "LOGS pod/web" ⟨"LOGS", 0⟩ Builtin.logs (by decide +kernel) (by decide +kernel) _

end Registry

end ChatOps
