/-
The settings of the bot: what they are, the rules they obey, how they are listed and how a key finds
them. The listing is read off the settings as JSON: each leaf is a setting, under the names on the
way to it joined by dots, and what stands under a secret key is masked.
-/
import ChatOps.Json
import ChatOps.NameMap
import ChatOps.Text.Blank
import ChatOps.Text.Lowercase

namespace ChatOps

open Text

/-- The settings. -/
structure Config where
  /-- The secret of the chat service. -/
  token : Option String := none
  logUnhandledEvents : Bool := false
  /-- The name the bot is addressed by. -/
  botName : String := "kube-bot"
  logLevel : String := "info"
deriving DecidableEq, Repr

/-- Why there are no settings to run with. -/
inductive ConfigError where
  | io (path reason : String)
  | parse (path reason : String)
  | invalid (key reason : String)
deriving DecidableEq, Repr

namespace ConfigError

def message : ConfigError → String
  | .io path reason => s!"failed to read config file {path}: {reason}"
  | .parse path reason => s!"failed to parse config file {path}: {reason}"
  | .invalid key reason => s!"invalid value for {key}: {reason}"

/-- The status a program ends with after such a fault. -/
def exitCode (_ : ConfigError) : Nat := 1

end ConfigError

/-- A setting in a listing: its key and its value as shown. -/
abbrev Setting := String × String

/-- What a key finds. -/
inductive KeyLookup where
  | exact (setting : Setting)
  | candidates (settings : List Setting)
  | missing
deriving DecidableEq, Repr

/-- The needle stands somewhere in the text. -/
def occursIn (needle : List Char) : List Char → Bool
  | [] => needle.isEmpty
  | c :: cs => needle.isPrefixOf (c :: cs) || occursIn needle cs

namespace Config

def logLevels : List String := ["trace", "debug", "info", "warn", "error"]

/-- The bot's name is a word, and the log level is one of the known ones in any case. -/
def validate (c : Config) : Except ConfigError Unit :=
  if c.botName.toList = [] ∨ c.botName.toList.any isBlank then
    .error (.invalid "bot.name" s!"'{c.botName}' must be non-empty and contain no whitespace")
  else if lowercase c.logLevel ∈ logLevels then .ok ()
  else .error (.invalid "logging.level" (s!"'{c.logLevel}' is not one of " ++
    "|".intercalate logLevels))

/-- The settings as JSON, section by section. -/
def toJson (c : Config) : Json :=
  .object
    [("slack", .object
      [("token", .ofOption c.token), ("log_unhandled_events", .bool c.logUnhandledEvents)]),
    ("bot", .object [("name", .string c.botName)]),
    ("logging", .object [("level", .string c.logLevel)])]

/-- The keys whose values are not shown. -/
def secretKeys : List String := ["slack.token"]

/-- A value in a listing where nothing is hidden. -/
def plainText : Json → String
  | .string s => s
  | j => j.render

/-- A value as listed under a key. Whether a secret is set is no secret. -/
def showValue (key : String) : Json → String
  | .null => "<unset>"
  | j => if key ∈ secretKeys then "********" else plainText j

/-- The key of a field of the section under `key`. -/
def keyIn (key name : String) : String := if key = "" then name else key ++ "." ++ name

mutual

/-- The settings that stand under a key. -/
def settingsUnder (key : String) : Json → List Setting
  | .object fields => settingsOfFields key fields
  | j => [(key, showValue key j)]

/-- The settings of the fields of a section. -/
def settingsOfFields (key : String) : List (String × Json) → List Setting
  | [] => []
  | (name, j) :: fields => settingsUnder (keyIn key name) j ++ settingsOfFields key fields

end

/-- Every setting, in order of the keys. -/
def entries (c : Config) : List Setting := (NameMap.ofList (settingsUnder "" c.toJson)).entries

theorem settingsUnder_toJson (c : Config) :
    settingsUnder "" c.toJson =
      [("slack.token", if c.token.isSome then "********" else "<unset>"),
        ("slack.log_unhandled_events", if c.logUnhandledEvents then "true" else "false"),
        ("bot.name", c.botName), ("logging.level", c.logLevel)] := by
  obtain ⟨token, logUnhandledEvents, botName, logLevel⟩ := c
  cases token <;> cases logUnhandledEvents <;>
    simp [toJson, settingsUnder, settingsOfFields, keyIn, showValue, secretKeys, plainText,
      Json.ofOption, Json.render, Json.compact]

/-- The listing in full. -/
theorem entries_eq (c : Config) :
    c.entries =
      [("bot.name", c.botName), ("logging.level", c.logLevel),
        ("slack.log_unhandled_events", if c.logUnhandledEvents then "true" else "false"),
        ("slack.token", if c.token.isSome then "********" else "<unset>")] := by
  have hslack : "slack.log_unhandled_events" < "slack.token" := by decide
  have hbot : "bot.name" < "slack.log_unhandled_events" := by decide
  have hbot' : ¬ "logging.level" < "bot.name" ∧ "bot.name" < "logging.level" := by decide
  have hlevel : "logging.level" < "slack.log_unhandled_events" := by decide
  rw [entries, settingsUnder_toJson]
  simp only [NameMap.ofList, NameMap.insert, NameMap.insertEntry, NameMap.empty, List.foldl_cons,
    List.foldl_nil, hslack, hbot, hbot', hlevel, if_true, if_false]

/-- The setting with this key in any case, else all settings whose keys hold it. -/
def lookup (c : Config) (key : String) : KeyLookup :=
  let needle := lower (trim key.toList)
  match c.entries.find? fun s => s.1.toList == needle with
  | some s => .exact s
  | none =>
    match c.entries.filter fun s => !needle.isEmpty && occursIn needle s.1.toList with
    | [] => .missing
    | found => .candidates found

end Config

end ChatOps
