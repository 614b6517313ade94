/-
The log: what the program does, event by event.
-/
import ChatOps.Message.ParseError
import ChatOps.Message.Request

namespace ChatOps

inductive LogLevel where
  | debug
  | info
deriving DecidableEq, Repr

def LogLevel.name : LogLevel → String
  | .debug => "DEBUG"
  | .info => "INFO"

/-- A field of an event: a text or a count. -/
inductive LogField where
  | text (s : String)
  | count (n : Nat)
deriving DecidableEq, Repr

/-- Something that happened. -/
inductive LogEvent where
  | commandRegistered (command : String)
  | builtinsLoaded (commands : Nat)
  | messageParsed (command : String) (subcommand : Option String) (arguments : Nat)
  | answering (sender channel command : String)
  | notParsed (code : String)
  | messageReceived (sender channel text : String)
  | eventUnhandled (event : String)
  | shutdownRequested
  | sessionEnded (messages : Nat)
  | configLoaded (bot level : String)
deriving DecidableEq, Repr

namespace LogEvent

/-- The event that a message was understood. -/
def parsed (r : Request) : LogEvent :=
  .messageParsed r.command.name r.subcommand r.augments.size

def level : LogEvent → LogLevel
  | .commandRegistered _ => .debug
  | .builtinsLoaded _ => .info
  | .messageParsed .. => .debug
  | .answering .. => .debug
  | .notParsed _ => .debug
  | .messageReceived .. => .info
  | .eventUnhandled _ => .info
  | .shutdownRequested => .info
  | .sessionEnded _ => .info
  | .configLoaded .. => .debug

def message : LogEvent → String
  | .commandRegistered _ => "registered command"
  | .builtinsLoaded _ => "loaded built-in commands"
  | .messageParsed .. => "parsed message"
  | .answering .. => "answering request"
  | .notParsed _ => "message did not parse"
  | .messageReceived .. => "received message"
  | .eventUnhandled _ => "received unhandled event"
  | .shutdownRequested => "received shutdown request"
  | .sessionEnded _ => "chat session ended"
  | .configLoaded .. => "configuration loaded"

def fields : LogEvent → List (String × LogField)
  | .commandRegistered command => [("command", .text command)]
  | .builtinsLoaded commands => [("commands", .count commands)]
  | .messageParsed command subcommand arguments =>
    [("command", .text command), ("subcommand", .text (subcommand.getD "")),
      ("arguments", .count arguments)]
  | .answering sender channel command =>
    [("sender", .text sender), ("channel", .text channel), ("command", .text command)]
  | .notParsed code => [("kind", .text code)]
  | .messageReceived sender channel text =>
    [("sender", .text sender), ("channel", .text channel), ("text", .text text)]
  | .eventUnhandled event => [("event", .text event)]
  | .shutdownRequested => []
  | .sessionEnded messages => [("messages", .count messages)]
  | .configLoaded bot level => [("bot", .text bot), ("level", .text level)]

end LogEvent

end ChatOps
