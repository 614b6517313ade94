/-
Layers: the settings one source names. A layer laid on a configuration decides the settings it
names, also with a value that is the default, and leaves the others.
-/
import ChatOps.Config.Basic
import ChatOps.Toml.Document

namespace ChatOps

/-- The settings a source names. -/
structure ConfigLayer where
  token : Option String := none
  logUnhandledEvents : Option Bool := none
  botName : Option String := none
  logLevel : Option String := none
deriving DecidableEq, Repr

/-- The configuration with a layer laid on it. -/
def Config.merge (c : Config) (l : ConfigLayer) : Config where
  token := l.token <|> c.token
  logUnhandledEvents := l.logUnhandledEvents.getD c.logUnhandledEvents
  botName := l.botName.getD c.botName
  logLevel := l.logLevel.getD c.logLevel

namespace ConfigLayer

/-- The fields of a section in their order, each with its value if the section has it. A section
is a table of named fields or an array of the first fields; what it has besides is passed over. A
date says nothing of any field. -/
def section? (names : List String) : Option Toml.Value → Option (List (Option Toml.Value))
  | none => some (names.map fun _ => none)
  | some (.table fs) => some (names.map fun name => fs.lookup name)
  | some (.array items) => some (names.zipIdx.map fun (_, i) => items[i]?)
  | some (.date _) => some (names.map fun _ => none)
  | some _ => none

/-- A text, if there is a value. -/
def string? : Option Toml.Value → Option (Option String)
  | none => some none
  | some (.string s) => some (some s)
  | some _ => none

/-- A truth value, if there is a value. -/
def boolean? : Option Toml.Value → Option (Option Bool)
  | none => some none
  | some (.boolean b) => some (some b)
  | some _ => none

/-- The settings of a document. -/
def ofDocument? (fs : List (String × Toml.Value)) : Option ConfigLayer := do
  let slack ← section? ["token", "log_unhandled_events"] (fs.lookup "slack")
  let bot ← section? ["name"] (fs.lookup "bot")
  let logging ← section? ["level"] (fs.lookup "logging")
  return {
    token := ← string? (slack[0]?.join)
    logUnhandledEvents := ← boolean? (slack[1]?.join)
    botName := ← string? (bot[0]?.join)
    logLevel := ← string? (logging[0]?.join) }

/-- The settings of the text of a file. -/
def ofToml? (text : String) : Option ConfigLayer := (Toml.readDocument text).bind ofDocument?

end ConfigLayer

end ChatOps
