/-
What a line of a chat is: a message, an event of the transport, written with a slash in front, or
nothing.
-/
import ChatOps.Text.Blank

namespace ChatOps

open Text

/-- A message, who sent it and where. -/
structure ChatMessage where
  text : String
  sender : String
  channel : String
deriving DecidableEq, Repr

/-- What a line is. -/
inductive ChatEvent where
  | message (m : ChatMessage)
  /-- An event of the transport, by its kind. -/
  | unhandled (kind : String)
  | blank
deriving DecidableEq, Repr

/-- What a line from a sender in a channel is. A message keeps its blanks. -/
def ChatEvent.ofLine (sender channel line : String) : ChatEvent :=
  match trimStart line.toList with
  | [] => .blank
  | '/' :: kind => .unhandled (String.ofList (trim kind))
  | _ :: _ => .message ⟨line, sender, channel⟩

end ChatOps
