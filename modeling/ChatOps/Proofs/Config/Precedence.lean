/-
Which source decides a setting, and which fault ends a loading. A loading makes its checks in one
order: those of each source, from the lowest rank to the highest, then the rules on what came out.
It fails with what the first check that finds a fault has found. When no check finds any, each
setting has the value of the highest-ranking source that names it, and else its default.

The sources are laid on one another, so both halves go by induction on the sources: laying one more
on top appends its checks and puts it in front of the others in rank.
-/
import ChatOps.Config.Load
import ChatOps.Proofs.Checks
import ChatOps.Text.Words
import Mathlib.Logic.Basic

namespace ChatOps

open Text

/-! ## Settings, one by one -/

/-- A setting. -/
inductive ConfigKey where
  | token
  | logUnhandledEvents
  | botName
  | logLevel
deriving DecidableEq, Repr

namespace ConfigKey

/-- The values of a setting. -/
abbrev Carrier : ConfigKey → Type
  | .token => Option String
  | .logUnhandledEvents => Bool
  | .botName => String
  | .logLevel => String

/-- The settings in the order in which the environment is asked for them. -/
def all : List ConfigKey := [.token, .logUnhandledEvents, .botName, .logLevel]

/-- The environment variable of a setting. -/
def variableName : ConfigKey → String
  | .token => "KUBE_BOT_SLACK_TOKEN"
  | .logUnhandledEvents => "KUBE_BOT_LOG_UNHANDLED_EVENTS"
  | .botName => "KUBE_BOT_NAME"
  | .logLevel => "KUBE_BOT_LOG_LEVEL"

/-- A text that is not empty. -/
def nonEmpty? (s : String) : Option String := if s = "" then none else some s

/-- A truth value, blanks around it allowed. -/
def truth? (s : String) : Option Bool :=
  if trim s.toList = "true".toList then some true
  else if trim s.toList = "false".toList then some false
  else none

/-- What the text of a variable says of its setting. -/
def ofText? : (k : ConfigKey) → String → Option k.Carrier
  | .token, s => (nonEmpty? s).map some
  | .logUnhandledEvents, s => truth? s
  | .botName, s => nonEmpty? s
  | .logLevel, s => nonEmpty? s

/-- Why the text of a variable is refused. -/
def refusal : ConfigKey → String
  | .logUnhandledEvents => "provided string was not `true` or `false`"
  | _ => "cannot be empty - unset the variable or provide a value"

end ConfigKey

/-- The value of a setting. -/
def Config.value (c : Config) : (k : ConfigKey) → k.Carrier
  | .token => c.token
  | .logUnhandledEvents => c.logUnhandledEvents
  | .botName => c.botName
  | .logLevel => c.logLevel

/-- The value that a layer gives a setting. A layer cannot take a token away. -/
def ConfigLayer.value? (l : ConfigLayer) : (k : ConfigKey) → Option k.Carrier
  | .token => l.token.map some
  | .logUnhandledEvents => l.logUnhandledEvents
  | .botName => l.botName
  | .logLevel => l.logLevel

theorem Config.ext_value {c c' : Config} (h : ∀ k, c.value k = c'.value k) : c = c' := by
  obtain ⟨token, logUnhandledEvents, botName, logLevel⟩ := c
  obtain rfl : token = c'.token := h .token
  obtain rfl : logUnhandledEvents = c'.logUnhandledEvents := h .logUnhandledEvents
  obtain rfl : botName = c'.botName := h .botName
  obtain rfl : logLevel = c'.logLevel := h .logLevel
  rfl

theorem Config.value_merge (c : Config) (l : ConfigLayer) (k : ConfigKey) :
    (c.merge l).value k = (l.value? k).getD (c.value k) := by
  cases k with
  | token =>
    show (l.token <|> c.token) = (l.token.map some).getD c.token
    cases l.token <;> rfl
  | logUnhandledEvents => rfl
  | botName => rfl
  | logLevel => rfl

/-! ## Sources -/

/-- What has to be found at the path of a file for the file to count. -/
inductive FileDemand where
  | regularFile
  | anything
  /-- The file counts in any case, so it has to be there. -/
  | nothing
deriving DecidableEq, Repr

/-- A demand is met by what is found at a path. -/
def FileDemand.Met : FileDemand → FileContent → Prop
  | .regularFile, .octets _ => True
  | .regularFile, .unreadable _ => True
  | .regularFile, _ => False
  | .anything, .absent _ => False
  | .anything, _ => True
  | .nothing, _ => True

/-- A source of settings. -/
inductive ConfigSource where
  | file (demand : FileDemand) (f : ConfigFile)
  | environment (env : Environment)
  | named (l : ConfigLayer)

/-- The source names the setting and gives it this value. -/
def ConfigSource.Names (k : ConfigKey) : ConfigSource → k.Carrier → Prop
  | .file demand f, v => demand.Met f.content ∧ ∃ l, f.read = .ok l ∧ l.value? k = some v
  | .environment env, v => ∃ text, env k.variableName = some text ∧ k.ofText? text = some v
  | .named l, v => l.value? k = some v

/-- A setting is decided by the highest-ranking of these sources that names it, and by what was there
before when none does. The sources stand in increasing rank. -/
def IsDecided (start : Config) (sources : List ConfigSource) (k : ConfigKey) (v : k.Carrier) : Prop :=
  IsFirst (ConfigSource.Names k) sources.reverse v ∨
    (∀ source ∈ sources, ∀ w, ¬ source.Names k w) ∧ v = start.value k

/-- A check that is made while settings are loaded. -/
inductive LoadCheck where
  | file (demand : FileDemand) (f : ConfigFile)
  | environment (env : Environment) (k : ConfigKey)
  | botName
  | logLevel

/-- The check finds this fault when settings are loaded from these sources. -/
def LoadCheck.Finds (sources : List ConfigSource) : LoadCheck → ConfigError → Prop
  | .file demand f, e => demand.Met f.content ∧ f.read = .error e
  | .environment env k, e =>
    ∃ text, env k.variableName = some text ∧ k.ofText? text = none ∧ e = .invalid k.variableName k.refusal
  | .botName, e =>
    ∃ name, IsDecided {} sources .botName name ∧ ¬ IsWord name.toList ∧
      e = .invalid "bot.name" s!"'{name}' must be non-empty and contain no whitespace"
  | .logLevel, e =>
    ∃ level, IsDecided {} sources .logLevel level ∧ lowercase level ∉ Config.logLevels ∧
      e = .invalid "logging.level" s!"'{level}' is not one of trace|debug|info|warn|error"

/-- The checks of a source. -/
def ConfigSource.checks : ConfigSource → List LoadCheck
  | .file demand f => [.file demand f]
  | .environment env => ConfigKey.all.map (.environment env)
  | .named _ => []

/-- The checks of a loading, in their order. -/
def loadChecks (sources : List ConfigSource) : List LoadCheck :=
  sources.flatMap ConfigSource.checks ++ [.botName, .logLevel]

/-- A loading from these sources, in increasing rank, comes out as the precedence of sources and the
order of checks demand. -/
structure ObeysPrecedence (sources : List ConfigSource) (outcome : Except ConfigError Config) :
    Prop where
  error_iff : ∀ e, outcome = .error e ↔ IsFirst (LoadCheck.Finds sources) (loadChecks sources) e
  ok_iff : ∀ c, outcome = .ok c ↔
    (∀ check ∈ loadChecks sources, ∀ e, ¬ check.Finds sources e) ∧
      ∀ k, IsDecided {} sources k (c.value k)
  valid : ∀ c, outcome = .ok c → c.validate = .ok ()

/-! ## The source that decides -/

variable {sources : List ConfigSource} {start : Config} {k : ConfigKey}

theorem ConfigSource.Names.unique {source : ConfigSource} {v w : k.Carrier} (h : source.Names k v)
    (h' : source.Names k w) : v = w := by
  cases source with
  | file demand f =>
    obtain ⟨-, l, hl, hv⟩ := h
    obtain ⟨-, l', hl', hw⟩ := h'
    rw [hl] at hl'
    cases hl'
    exact Option.some.inj (hv.symm.trans hw)
  | environment env =>
    obtain ⟨text, ht, hv⟩ := h
    obtain ⟨text', ht', hw⟩ := h'
    rw [ht] at ht'
    cases ht'
    exact Option.some.inj (hv.symm.trans hw)
  | named l => exact Option.some.inj (Eq.trans (Eq.symm h) h')

theorem IsDecided.unique {v w : k.Carrier} (h : IsDecided start sources k v)
    (h' : IsDecided start sources k w) : v = w := by
  have huniq : ∀ (source : ConfigSource) (v w : k.Carrier), source.Names k v → source.Names k w →
      v = w := fun _ _ _ => ConfigSource.Names.unique
  have hno : (∀ source ∈ sources, ∀ w, ¬ source.Names k w) → ∀ u,
      ¬ IsFirst (ConfigSource.Names k) sources.reverse u := by
    intro hnone u hu
    obtain ⟨source, hs, hn⟩ := hu.exists_mem
    exact hnone source (List.mem_reverse.1 hs) u hn
  rcases h with h | ⟨hnone, rfl⟩
  · rcases h' with h' | ⟨hnone, -⟩
    · exact IsFirst.unique huniq h h'
    · exact absurd h (hno hnone v)
  · rcases h' with h' | ⟨-, rfl⟩
    · exact absurd h' (hno hnone w)
    · rfl

theorem isDecided_nil : IsDecided start [] k (start.value k) :=
  .inr ⟨fun _ h => (nomatch h), rfl⟩

/-- A source below the others decides what they leave open. -/
theorem isDecided_cons {source : ConfigSource} {l : ConfigLayer} {v : k.Carrier}
    (hl : ∀ w, l.value? k = some w ↔ source.Names k w)
    (h : IsDecided (start.merge l) sources k v) : IsDecided start (source :: sources) k v := by
  unfold IsDecided
  rw [List.reverse_cons, isFirst_append_iff, isFirst_singleton_iff]
  rcases h with h | ⟨hnone, rfl⟩
  · exact .inl (.inl h)
  · simp only [List.forall_mem_cons]
    rw [Config.value_merge]
    cases hv : l.value? k with
    | some w =>
      have hnone' : ∀ s ∈ sources.reverse, ∀ w, ¬ s.Names k w :=
        fun s hs => hnone s (List.mem_reverse.1 hs)
      exact .inl (.inr ⟨hnone', (hl w).1 hv⟩)
    | none =>
      refine .inr ⟨⟨fun w hw => ?_, hnone⟩, rfl⟩
      rw [(hl w).2 hw] at hv
      cases hv

/-! ## One source -/

section Environment

variable {env : Environment}

/-- What the text of a variable says, or why it is refused. -/
def ConfigKey.read (k : ConfigKey) (text : String) : Except ConfigError (Option k.Carrier) :=
  (k.ofText? text).elim (.error (.invalid k.variableName k.refusal)) fun v => .ok (some v)

/-- What the variable of a setting says. A variable that is not set says nothing. -/
def Environment.reading (env : Environment) (k : ConfigKey) :
    Except ConfigError (Option k.Carrier) :=
  (env k.variableName).elim (.ok none) k.read

theorem makesChecks_reading (env : Environment) (k : ConfigKey) :
    MakesChecks (LoadCheck.Finds sources) [.environment env k] (env.reading k) := by
  refine MakesChecks.single fun e => ?_
  show env.reading k = .error e ↔ ∃ text, env k.variableName = some text ∧
    k.ofText? text = none ∧ e = .invalid k.variableName k.refusal
  unfold Environment.reading ConfigKey.read
  cases env k.variableName with
  | none => simp
  | some text =>
    simp only [Option.elim_some, Option.some.injEq, exists_eq_left']
    cases k.ofText? text with
    | none => simp [eq_comm]
    | some v => simp

theorem reading_eq_ok {v : Option k.Carrier} (h : env.reading k = .ok v) :
    v = (env k.variableName).bind k.ofText? := by
  unfold Environment.reading ConfigKey.read at h
  cases hkey : env k.variableName with
  | none =>
    rw [hkey] at h
    cases h
    rfl
  | some text =>
    rw [hkey, Option.elim_some] at h
    rw [Option.bind_some]
    cases hv : k.ofText? text with
    | none => simp [hv] at h
    | some w =>
      rw [hv] at h
      cases h
      rfl

theorem text_eq_elim (env : Environment) (key : String) :
    env.text key = (env key).elim (.ok none) fun s => (ConfigKey.nonEmpty? s).elim
      (.error (.invalid key "cannot be empty - unset the variable or provide a value"))
      fun s => .ok (some s) := by
  unfold Environment.text
  split
  · rename_i h
    rw [h]
    rfl
  · rename_i h
    rw [h]
    rfl
  · rename_i s hs h
    have hne : s ≠ "" := hs
    rw [h, Option.elim_some, ConfigKey.nonEmpty?, if_neg hne]
    rfl

theorem text_token (env : Environment) :
    env.text Environment.tokenKey = (env.reading .token).map Option.join := by
  rw [text_eq_elim]
  unfold Environment.reading
  show _ = Except.map _ ((env Environment.tokenKey).elim _ _)
  cases env Environment.tokenKey with
  | none => rfl
  | some s =>
    show _ = Except.map _ (((ConfigKey.nonEmpty? s).map some).elim _ _)
    rw [Option.elim_some]
    cases ConfigKey.nonEmpty? s <;> rfl

theorem boolean_eq_reading (env : Environment) :
    env.boolean Environment.logUnhandledEventsKey = env.reading .logUnhandledEvents := by
  unfold Environment.boolean Environment.reading
  show _ = (env Environment.logUnhandledEventsKey).elim _ _
  cases env Environment.logUnhandledEventsKey with
  | none => rfl
  | some s =>
    show _ = (ConfigKey.truth? s).elim _ _
    unfold ConfigKey.truth?
    simp only
    split
    · rfl
    · split <;> rfl

/-- The environment is asked for one variable after the other. -/
theorem Environment.layer_eq (env : Environment) :
    env.layer = (do
      let token ← env.reading .token
      let events ← env.reading .logUnhandledEvents
      let name ← env.reading .botName
      let level ← env.reading .logLevel
      return ⟨token.join, events, name, level⟩) := by
  unfold Environment.layer
  rw [text_token, boolean_eq_reading, show env.text Environment.botNameKey = env.reading .botName from
    text_eq_elim env _, show env.text Environment.logLevelKey = env.reading .logLevel from
    text_eq_elim env _]
  cases env.reading .token <;> rfl

theorem Environment.makesChecks_layer (env : Environment) :
    MakesChecks (LoadCheck.Finds sources) (ConfigKey.all.map (.environment env)) env.layer := by
  rw [Environment.layer_eq]
  exact (makesChecks_reading env .token).bind fun _ _ =>
    (makesChecks_reading env .logUnhandledEvents).bind fun _ _ =>
      (makesChecks_reading env .botName).bind fun _ _ =>
        (makesChecks_reading env .logLevel).bind fun _ _ => .ok _

/-- The layer of the environment gives the settings what their variables say. -/
theorem Environment.value?_layer {l : ConfigLayer} (h : env.layer = .ok l) (k : ConfigKey) :
    l.value? k = (env k.variableName).bind k.ofText? := by
  rw [Environment.layer_eq] at h
  obtain ⟨token, htoken, h⟩ := Except.bind_eq_ok_iff.1 h
  obtain ⟨events, hevents, h⟩ := Except.bind_eq_ok_iff.1 h
  obtain ⟨name, hname, h⟩ := Except.bind_eq_ok_iff.1 h
  obtain ⟨level, hlevel, h⟩ := Except.bind_eq_ok_iff.1 h
  cases h
  cases k with
  | token =>
    show token.join.map some = (env Environment.tokenKey).bind (ConfigKey.ofText? .token)
    rw [reading_eq_ok htoken]
    show ((env Environment.tokenKey).bind (ConfigKey.ofText? .token)).join.map some = _
    cases env Environment.tokenKey with
    | none => rfl
    | some text =>
      show ((ConfigKey.nonEmpty? text).map some).join.map some = (ConfigKey.nonEmpty? text).map some
      cases ConfigKey.nonEmpty? text <;> rfl
  | logUnhandledEvents => exact reading_eq_ok hevents
  | botName => exact reading_eq_ok hname
  | logLevel => exact reading_eq_ok hlevel

end Environment

section File

variable {f : ConfigFile}

/-- The layer of a file. A file that does not count names nothing. -/
def FileDemand.layer (demand : FileDemand) (f : ConfigFile) : Except ConfigError ConfigLayer :=
  match demand with
  | .regularFile => f.readGlobal
  | .anything => f.readProject
  | .nothing => f.read

theorem layer_of_met {demand : FileDemand} (h : demand.Met f.content) :
    demand.layer f = f.read := by
  obtain ⟨path, content⟩ := f
  cases demand with
  | regularFile =>
    cases content with
    | absent => cases h
    | directory => cases h
    | unreadable => rfl
    | octets => rfl
  | anything =>
    cases content with
    | absent => cases h
    | directory => rfl
    | unreadable => rfl
    | octets => rfl
  | nothing => rfl

theorem layer_of_not_met {demand : FileDemand} (h : ¬ demand.Met f.content) :
    demand.layer f = .ok {} := by
  obtain ⟨path, content⟩ := f
  cases demand with
  | regularFile =>
    cases content with
    | absent => rfl
    | directory => rfl
    | unreadable => exact absurd trivial h
    | octets => exact absurd trivial h
  | anything =>
    cases content with
    | absent => rfl
    | directory => exact absurd trivial h
    | unreadable => exact absurd trivial h
    | octets => exact absurd trivial h
  | nothing => exact absurd trivial h

end File

namespace ConfigSource

/-- The layer of a source. -/
def layer : ConfigSource → Except ConfigError ConfigLayer
  | .file demand f => demand.layer f
  | .environment env => env.layer
  | .named l => .ok l

theorem makesChecks_layer (source : ConfigSource) :
    MakesChecks (LoadCheck.Finds sources) source.checks source.layer := by
  cases source with
  | file demand f =>
    refine MakesChecks.single fun e => ?_
    show demand.layer f = .error e ↔ demand.Met f.content ∧ f.read = .error e
    by_cases h : demand.Met f.content
    · rw [layer_of_met h, and_iff_right h]
    · simp [layer_of_not_met h, h]
  | environment env => exact env.makesChecks_layer
  | named l => exact .ok l

theorem value?_eq_some_iff {source : ConfigSource} {l : ConfigLayer} (h : source.layer = .ok l)
    (v : k.Carrier) : l.value? k = some v ↔ source.Names k v := by
  cases source with
  | file demand f =>
    show _ ↔ demand.Met f.content ∧ ∃ l, f.read = .ok l ∧ l.value? k = some v
    replace h : demand.layer f = .ok l := h
    by_cases hmet : demand.Met f.content
    · rw [layer_of_met hmet] at h
      simp [h, hmet]
    · rw [layer_of_not_met hmet] at h
      cases h
      have hnone : ({} : ConfigLayer).value? k = none := by cases k <;> rfl
      simp [hnone, hmet]
  | environment env =>
    show _ ↔ ∃ text, env k.variableName = some text ∧ k.ofText? text = some v
    rw [Environment.value?_layer h, Option.bind_eq_some_iff]
  | named m =>
    cases h
    exact Iff.rfl

end ConfigSource

/-! ## Sources laid on one another -/

/-- The configuration with the layers of these sources laid on it, in order. -/
def Config.lay (c : Config) : List ConfigSource → Except ConfigError Config
  | [] => .ok c
  | source :: sources => do (c.merge (← source.layer)).lay sources

theorem makesChecks_lay {all : List ConfigSource} (c : Config) (sources : List ConfigSource) :
    MakesChecks (LoadCheck.Finds all) (sources.flatMap ConfigSource.checks) (c.lay sources) := by
  induction sources generalizing c with
  | nil => exact .ok c
  | cons source sources ih =>
    rw [List.flatMap_cons]
    exact source.makesChecks_layer.bind fun l _ => ih (c.merge l)

/-- Each setting is decided by the highest source that names it. -/
theorem isDecided_lay {c c' : Config} (h : c.lay sources = .ok c') (k : ConfigKey) :
    IsDecided c sources k (c'.value k) := by
  induction sources generalizing c with
  | nil =>
    cases h
    exact isDecided_nil
  | cons source sources ih =>
    obtain ⟨l, hl, h⟩ := Except.bind_eq_ok_iff.1 h
    exact isDecided_cons (ConfigSource.value?_eq_some_iff hl) (ih h)

theorem lay_named (c : Config) (layers : List ConfigLayer) :
    c.lay (layers.map .named) = .ok (layers.foldl Config.merge c) := by
  induction layers generalizing c with
  | nil => rfl
  | cons l layers ih => exact ih (c.merge l)

/-! ## The rules -/

/-- The bot's name is a word. -/
def Config.nameRule (c : Config) : Except ConfigError Unit :=
  if IsWord c.botName.toList then .ok ()
  else .error (.invalid "bot.name" s!"'{c.botName}' must be non-empty and contain no whitespace")

/-- The log level is known. -/
def Config.levelRule (c : Config) : Except ConfigError Unit :=
  if lowercase c.logLevel ∈ Config.logLevels then .ok ()
  else .error (.invalid "logging.level"
    s!"'{c.logLevel}' is not one of trace|debug|info|warn|error")

theorem Config.validate_eq (c : Config) : c.validate = c.nameRule >>= fun _ => c.levelRule := by
  have hbad : (c.botName.toList = [] ∨ c.botName.toList.any isBlank) ↔
      ¬ IsWord c.botName.toList := by
    rw [IsWord, not_and_or, not_not, List.any_eq_true]
    simp only [not_forall, Bool.not_eq_false, exists_prop]
  have hlevels : s!"'{c.logLevel}' is not one of " ++ "|".intercalate logLevels =
      s!"'{c.logLevel}' is not one of trace|debug|info|warn|error" := by
    rw [show "|".intercalate logLevels = "trace|debug|info|warn|error" from by decide]
    simp only [String.append_assoc]
    rfl
  unfold validate nameRule levelRule
  by_cases hword : IsWord c.botName.toList
  · rw [if_neg fun h => hbad.1 h hword, if_pos hword, hlevels]
    rfl
  · rw [if_pos (hbad.2 hword), if_neg hword]
    rfl

/-- The rules are checked on what was decided, the name before the level. -/
theorem makesChecks_validate {c : Config} (h : ∀ k, IsDecided {} sources k (c.value k)) :
    MakesChecks (LoadCheck.Finds sources) [.botName, .logLevel] c.validate := by
  rw [Config.validate_eq]
  have hname : MakesChecks (LoadCheck.Finds sources) [.botName] c.nameRule := by
    refine MakesChecks.single fun e => ?_
    unfold Config.nameRule
    constructor
    · intro he
      split at he
      · cases he
      · rename_i hword
        cases he
        exact ⟨c.botName, h .botName, hword, rfl⟩
    · rintro ⟨name, hname, hword, rfl⟩
      obtain rfl : name = c.botName := hname.unique (h .botName)
      rw [if_neg hword]
  have hlevel : MakesChecks (LoadCheck.Finds sources) [.logLevel] c.levelRule := by
    refine MakesChecks.single fun e => ?_
    unfold Config.levelRule
    constructor
    · intro he
      split at he
      · cases he
      · rename_i hknown
        cases he
        exact ⟨c.logLevel, h .logLevel, hknown, rfl⟩
    · rintro ⟨level, hlevel, hknown, rfl⟩
      obtain rfl : level = c.logLevel := hlevel.unique (h .logLevel)
      rw [if_neg hknown]
  exact hname.bind fun _ _ => hlevel

/-! ## Loading -/

/-- The configuration of these sources, in increasing rank, if it obeys the rules. -/
def Config.loadAll (sources : List ConfigSource) : Except ConfigError Config := do
  let c ← Config.lay {} sources
  c.validate
  return c

theorem load_eq_loadAll (shared project : ConfigFile) (env : Environment) :
    Config.load shared project env =
      Config.loadAll
        [.file .regularFile shared, .file .anything project, .environment env] := by
  unfold Config.load Config.loadAll Config.finish Config.applyEnvironment
  simp only [Config.lay, ConfigSource.layer, FileDemand.layer]
  cases shared.readGlobal with
  | error e => rfl
  | ok l =>
    cases project.readProject with
    | error e => rfl
    | ok l' => cases env.layer <;> rfl

theorem loadFrom_eq_loadAll (f : ConfigFile) (env : Environment) :
    Config.loadFrom f env = Config.loadAll [.file .nothing f, .environment env] := by
  unfold Config.loadFrom Config.loadAll Config.finish Config.applyEnvironment
  simp only [Config.lay, ConfigSource.layer, FileDemand.layer]
  cases f.read with
  | error e => rfl
  | ok l => cases env.layer <;> rfl

theorem loadAll_eq_ok_iff {c : Config} :
    Config.loadAll sources = .ok c ↔ Config.lay {} sources = .ok c ∧ c.validate = .ok () := by
  unfold Config.loadAll
  simp only [Except.bind_eq_ok_iff]
  constructor
  · rintro ⟨c', hc, _, hv, h⟩
    cases h
    exact ⟨hc, hv⟩
  · rintro ⟨hc, hv⟩
    exact ⟨c, hc, (), hv, rfl⟩

theorem makesChecks_loadAll (sources : List ConfigSource) :
    MakesChecks (LoadCheck.Finds sources) (loadChecks sources) (Config.loadAll sources) := by
  refine (makesChecks_lay {} sources).bind fun c hc => ?_
  rw [← List.append_nil [LoadCheck.botName, LoadCheck.logLevel]]
  exact (makesChecks_validate (isDecided_lay hc)).bind fun _ _ => .ok c

theorem LoadCheck.Finds.unique {check : LoadCheck} {e e' : ConfigError}
    (h : check.Finds sources e) (h' : check.Finds sources e') : e = e' := by
  cases check with
  | file demand f =>
    obtain ⟨-, h⟩ := h
    obtain ⟨-, h'⟩ := h'
    rw [h] at h'
    exact Except.error.inj h'
  | environment env k =>
    obtain ⟨_, -, -, rfl⟩ := h
    obtain ⟨_, -, -, rfl⟩ := h'
    rfl
  | botName =>
    obtain ⟨name, hname, -, rfl⟩ := h
    obtain ⟨name', hname', -, rfl⟩ := h'
    rw [hname.unique hname']
  | logLevel =>
    obtain ⟨level, hlevel, -, rfl⟩ := h
    obtain ⟨level', hlevel', -, rfl⟩ := h'
    rw [hlevel.unique hlevel']

/-- Loading from any sources obeys their precedence. -/
theorem obeysPrecedence_loadAll (sources : List ConfigSource) :
    ObeysPrecedence sources (Config.loadAll sources) := by
  have hchecks := makesChecks_loadAll sources
  refine ⟨fun e => hchecks.eq_error_iff fun _ _ _ => LoadCheck.Finds.unique, fun c => ?_,
    fun c hc => (loadAll_eq_ok_iff.1 hc).2⟩
  constructor
  · intro hc
    exact ⟨hchecks.clear c hc, isDecided_lay (loadAll_eq_ok_iff.1 hc).1⟩
  · rintro ⟨hclear, hdecided⟩
    -- no check finds a fault, so the loading succeeds, and what it decides is unique
    cases hload : Config.loadAll sources with
    | error e =>
      obtain ⟨check, hmem, he⟩ := (hchecks.first e hload).exists_mem
      exact absurd he (hclear check hmem e)
    | ok c' =>
      have hdecided' := isDecided_lay (loadAll_eq_ok_iff.1 hload).1
      rw [Config.ext_value fun k => (hdecided' k).unique (hdecided k)]

/-- Loading settings obeys the order of the checks and the rank of the sources: the file for all
projects counts if it is a file, the file of the project if anything is there, the file that is named
in place of both in any case, and the environment ranks highest. Of layers laid on one another the
last that names a setting decides it. A named file that is not there, and a directory in place of it
or of the file of the project, cannot be read, whatever the environment says. -/
theorem load_precedence :
    (∀ shared project env, ObeysPrecedence
      [.file .regularFile shared, .file .anything project, .environment env]
      (Config.load shared project env)) ∧
    (∀ f env, ObeysPrecedence [.file .nothing f, .environment env] (Config.loadFrom f env)) ∧
    (∀ (start : Config) (layers : List ConfigLayer) (k : ConfigKey),
      IsDecided start (layers.map .named) k ((layers.foldl Config.merge start).value k)) ∧
    (∀ path fault env,
      Config.loadFrom ⟨path, .absent fault⟩ env = .error (.io path fault.message)) ∧
    (∀ path env, Config.loadFrom ⟨path, .directory⟩ env =
      .error (.io path "config path is a directory, not a file")) ∧
    ∀ (shared : ConfigFile) path env, Config.load shared ⟨path, .directory⟩ env =
      shared.readGlobal >>= fun _ =>
        .error (.io path "config path is a directory, not a file") := by
  refine ⟨fun shared project env => ?_, fun f env => ?_, fun start layers k => ?_,
    fun path fault env => rfl, fun path env => rfl, fun shared path env => rfl⟩
  · rw [load_eq_loadAll]
    exact obeysPrecedence_loadAll _
  · rw [loadFrom_eq_loadAll]
    exact obeysPrecedence_loadAll _
  · exact isDecided_lay (lay_named start layers) k

/-- A default that the project spells out wins over the file for all projects. -/
example :
    (Config.load ⟨"config.toml", .octets (encodeUtf8 "[bot]\nname = \"ops\"\n")⟩
      ⟨"kube-bot.toml", .octets (encodeUtf8 "[bot]\nname = \"kube-bot\"\n")⟩
      fun _ => none).toOption = some {} := by
  decide +kernel

end ChatOps
