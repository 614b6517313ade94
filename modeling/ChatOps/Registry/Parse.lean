/-
Understanding a message: its first word names a command, the next its subcommand if the command
asks for one, and the other words go to the arguments.
-/
import ChatOps.Message.Binding
import ChatOps.Message.Request
import ChatOps.Registry.Basic

namespace ChatOps

namespace Command

/-- Takes the subcommand, in its declared spelling, off the tokens after the name. -/
def takeSubcommand (c : Command) (tokens : List Token) :
    Except ParseError (Option String × List Token) :=
  if c.subcommands = [] then .ok (none, tokens)
  else match tokens.head?.bind fun t => c.findSubcommand? t.text with
    | some word => .ok (some word, tokens.tail)
    | none => .error (.unknownSubcommand c.name tokens.head? c.subcommands)

end Command

namespace Registry

/-- The request of the tokens of a message. -/
def parseTokens (r : Registry) (tokens : List Token) : Except ParseError Request :=
  match tokens with
  | [] => .error .emptyMessage
  | head :: rest =>
    match r.find? head.text with
    | none => .error (.unknownCommand head)
    | some command => do
      let (subcommand, rest) ← command.takeSubcommand rest
      let augments ← command.bind tokens.length rest
      return ⟨command, subcommand, augments⟩

/-- The request of a message. -/
def parse (r : Registry) (message : String) : Except ParseError Request :=
  r.parseTokens (tokenize message)

end Registry

end ChatOps
