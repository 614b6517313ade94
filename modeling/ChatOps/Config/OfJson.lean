/-
Settings given as JSON. A section is an object of named fields or an array of the first fields in
their order. What is left out has its default. Only the token may be `null`. An object may have
other fields besides, an array no other items.
-/
import ChatOps.Config.Basic

namespace ChatOps.Config

/-- The values of the fields of a section, in their order. -/
def fieldsOfJson? (names : List String) : Json → Option (List (Option Json))
  | .object fs => some (names.map (Json.field? fs))
  | .array items =>
    if items.length ≤ names.length then some (names.zipIdx.map fun (_, i) => items[i]?) else none
  | _ => none

/-- A section, which may be left out. -/
def sectionOfJson? (names : List String) : Option Json → Option (List (Option Json))
  | none => some (names.map fun _ => none)
  | some j => fieldsOfJson? names j

/-- A value that is read this way, or the default when it is left out. -/
def valueOfJson? {α : Type} (read : Json → Option α) (default : α) : Option Json → Option α
  | none => some default
  | some j => read j

/-- The token: a text, `null` or left out. -/
def tokenOfJson? : Option Json → Option (Option String)
  | none => some none
  | some .null => some none
  | some (.string s) => some (some s)
  | some _ => none

/-- The configuration that JSON states. -/
def ofJson? (j : Json) : Option Config := do
  let sections ← fieldsOfJson? ["slack", "bot", "logging"] j
  let slack ← sectionOfJson? ["token", "log_unhandled_events"] (sections[0]?.join)
  let bot ← sectionOfJson? ["name"] (sections[1]?.join)
  let logging ← sectionOfJson? ["level"] (sections[2]?.join)
  let defaults : Config := {}
  return {
    token := ← tokenOfJson? (slack[0]?.join)
    logUnhandledEvents := ← valueOfJson? Json.bool? defaults.logUnhandledEvents (slack[1]?.join)
    botName := ← valueOfJson? Json.string? defaults.botName (bot[0]?.join)
    logLevel := ← valueOfJson? Json.string? defaults.logLevel (logging[0]?.join) }

end ChatOps.Config
