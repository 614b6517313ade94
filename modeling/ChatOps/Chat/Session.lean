/-
A chat session: the lines of an input are taken one by one, and every message gets its reply on the
output. A session ends with its input, at a line that is not UTF-8, or when the output takes no
more.
-/
import ChatOps.Chat.Reply
import ChatOps.Text.Lines
import ChatOps.Text.Utf8

namespace ChatOps

open Text

/-- A chat of one sender in one channel. -/
structure Session where
  responder : Responder
  sender : String
  channel : String
  /-- Events of the transport, which get no reply, are logged. -/
  logUnhandledEvents : Bool

/-- How a session ended. -/
inductive SessionEnding where
  /-- The input ended after this many answers. -/
  | finished (answered : Nat)
  | unreadable (fault : Utf8Fault)
  | unwritable
deriving DecidableEq, Repr

/-- What a session wrote and logged, and how it ended. -/
structure Transcript where
  output : List UInt8
  log : List LogEvent
  ending : SessionEnding
deriving DecidableEq, Repr

namespace Transcript

/-- A transcript that begins with this output and this log. -/
def after (output : List UInt8) (log : List LogEvent) (t : Transcript) : Transcript :=
  ⟨output ++ t.output, log ++ t.log, t.ending⟩

end Transcript

namespace Session

/-- What a line of octets is. How it ends is not part of it. -/
def event (s : Session) (line : List UInt8) : Except Utf8Fault ChatEvent :=
  (decodeUtf8 (chomp line)).map fun cs => .ofLine s.sender s.channel (String.ofList cs)

/-- The octets of the reply to a message. -/
def replyOctets (s : Session) (m : ChatMessage) : List UInt8 :=
  encodeUtf8 (s.responder.respond m ++ "\n")

/-- What is logged when a message arrives and is answered. -/
def messageLog (s : Session) (m : ChatMessage) : List LogEvent :=
  .messageReceived m.sender m.channel m.text :: s.responder.respondLog m

/-- An output with room for so many octets, or for any number, takes all of these. -/
def hasRoom (room : Option Nat) (octets : List UInt8) : Bool :=
  match room with
  | none => true
  | some n => octets.length ≤ n

/-- What is logged of an event of the transport. -/
def unhandledLog (s : Session) (kind : String) : List LogEvent :=
  if s.logUnhandledEvents then [.eventUnhandled kind] else []

/-- The session on lines, after some answers, with room for so many octets of output. -/
def runLines (s : Session) (answered : Nat) (room : Option Nat) :
    List (List UInt8) → Transcript
  | [] => ⟨[], [.sessionEnded answered], .finished answered⟩
  | line :: rest =>
    match s.event line with
    -- a session that fails does not log its end
    | .error fault => ⟨[], [], .unreadable fault⟩
    | .ok .blank => s.runLines answered room rest
    | .ok (.unhandled kind) => (s.runLines answered room rest).after [] (s.unhandledLog kind)
    | .ok (.message m) =>
      let reply := s.replyOctets m
      if hasRoom room reply then
        (s.runLines (answered + 1) (room.map (· - reply.length)) rest).after reply (s.messageLog m)
      -- the output keeps what it had room for
      else ⟨reply.take (room.getD 0), s.messageLog m, .unwritable⟩

/-- The session on an input. -/
def run (s : Session) (room : Option Nat) (input : List UInt8) : Transcript :=
  s.runLines 0 room (lines input)

/-- A session that is told to stop before its first line. -/
def shutDown (_ : Session) : Transcript :=
  ⟨[], [.shutdownRequested, .sessionEnded 0], .finished 0⟩

end Session

end ChatOps
