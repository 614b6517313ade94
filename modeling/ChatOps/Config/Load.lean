/-
Where settings come from. Each source is laid on the earlier ones: the defaults, the file for all
projects, the file of the project, the environment. A file named explicitly takes the place of the
two. The first fault, in the order of the sources, ends the loading; settings that are loaded obey
the rules.
-/
import ChatOps.Config.File
import ChatOps.Log

namespace ChatOps

open Text

/-- The value of an environment variable. -/
abbrev Environment := String → Option String

namespace Environment

def tokenKey : String := "KUBE_BOT_SLACK_TOKEN"
def logUnhandledEventsKey : String := "KUBE_BOT_LOG_UNHANDLED_EVENTS"
def botNameKey : String := "KUBE_BOT_NAME"
def logLevelKey : String := "KUBE_BOT_LOG_LEVEL"

/-- The variables that hold settings. -/
def keys : List String := [tokenKey, logUnhandledEventsKey, botNameKey, logLevelKey]

/-- The text of a variable, which is not empty when it is set. -/
def text (env : Environment) (key : String) : Except ConfigError (Option String) :=
  match env key with
  | none => .ok none
  | some "" => .error (.invalid key "cannot be empty - unset the variable or provide a value")
  | some s => .ok (some s)

/-- The truth value of a variable, blanks around it allowed. -/
def boolean (env : Environment) (key : String) : Except ConfigError (Option Bool) :=
  match env key with
  | none => .ok none
  | some s =>
    if trim s.toList = "true".toList then .ok (some true)
    else if trim s.toList = "false".toList then .ok (some false)
    else .error (.invalid key "provided string was not `true` or `false`")

/-- The layer the environment holds. -/
def layer (env : Environment) : Except ConfigError ConfigLayer := do
  let token ← env.text tokenKey
  let logUnhandledEvents ← env.boolean logUnhandledEventsKey
  let botName ← env.text botNameKey
  let logLevel ← env.text logLevelKey
  return ⟨token, logUnhandledEvents, botName, logLevel⟩

end Environment

namespace Config

/-- The configuration with the environment laid on it. -/
def applyEnvironment (c : Config) (env : Environment) : Except ConfigError Config :=
  (env.layer).map c.merge

/-- The last steps of loading: the environment, then the rules. -/
def finish (c : Config) (env : Environment) : Except ConfigError Config := do
  let c ← c.applyEnvironment env
  c.validate
  return c

/-- The configuration of the two files and the environment. -/
def load (shared project : ConfigFile) (env : Environment) : Except ConfigError Config := do
  let c := Config.merge {} (← shared.readGlobal)
  let c := c.merge (← project.readProject)
  c.finish env

/-- The configuration of one file, which has to be there, and the environment. -/
def loadFrom (file : ConfigFile) (env : Environment) : Except ConfigError Config := do
  let c := Config.merge {} (← file.read)
  c.finish env

/-- The log of a loading that went well. -/
def loadLog (c : Config) : List LogEvent := [.configLoaded c.botName c.logLevel]

end Config

end ChatOps
