/-
Replies: what the bot answers to a message, and what it logs while answering.
-/
import ChatOps.Chat.Address
import ChatOps.Chat.Event
import ChatOps.Config.Basic
import ChatOps.Log
import ChatOps.Registry.Help
import ChatOps.Registry.Parse

namespace ChatOps

def versionText : String := "kube-bot 0.1.0"

/-- What the bot answers from. -/
structure Responder where
  registry : Registry
  config : Config

namespace Responder

/-- Lines of a text, one below the other. -/
def unlines (ls : List String) : String := "\n".intercalate ls

/-- Settings, one to a line. -/
def settingLines (settings : List Setting) : List String :=
  settings.map fun (key, value) => s!"- {key}={value}"

/-- The answer to a question for settings. A value asks for a change, which is refused. -/
def configReply (r : Responder) (request : Request) : String :=
  match request.get? "value", request.text? "key" with
  | none, none => unlines (settingLines r.config.entries)
  | some .unset, none => unlines (settingLines r.config.entries)
  | none, some key => lookupReply key
  | some .unset, some key => lookupReply key
  | some _, _ => "Settings can only be changed in the config file"
where
  /-- The answer to a question for one setting. -/
  lookupReply (key : String) : String :=
    match r.config.lookup key with
    | .exact (key, value) => s!"{key}={value}"
    | .candidates found =>
      unlines (s!"No setting named '{key}', did you mean:" :: settingLines found)
    | .missing => s!"No setting named '{key}'"

/-- The answer to a request. -/
def answer (r : Responder) (request : Request) : String :=
  if request.command.name = "help" then unlines r.registry.helpLines
  else if request.command.name = "version" then versionText
  else if request.command.name = "config" then r.configReply request
  else unlines ("I'm still learning, here are your arguments:" :: request.lines)

/-- What a message says, without the address of the bot. -/
def parse (r : Responder) (m : ChatMessage) : Except ParseError Request :=
  r.registry.parse (stripMention r.config.botName m.text)

/-- The reply to a message. -/
def respond (r : Responder) (m : ChatMessage) : String :=
  match r.parse m with
  | .ok request => r.answer request
  | .error e => s!"Whoops I had a brain fart: {e.message}"

/-- What is logged while a message is answered. -/
def respondLog (r : Responder) (m : ChatMessage) : List LogEvent :=
  match r.parse m with
  | .ok request => [.parsed request, .answering m.sender m.channel request.command.name]
  | .error e => [.notParsed e.code]

end Responder

end ChatOps
