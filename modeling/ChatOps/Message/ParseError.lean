/-
Why a message is not understood. A cause that concerns a word of the message carries it.
-/
import ChatOps.Message.Token
import ChatOps.Query

namespace ChatOps

/-- Why a message is not understood. -/
inductive ParseError where
  | emptyMessage
  | unknownCommand (token : Token)
  | unknownSubcommand (command : String) (found : Option Token) (expected : List String)
  /-- `position` is that of the first token that is left, or the number of tokens. -/
  | missingArgument (command argument : String) (position : Nat)
  | invalidQuery (token : Token) (source : QueryError)
  | duplicateKeyword (argument : String) (first duplicate : Token)
  | unexpectedArgument (token : Token)
deriving DecidableEq, Repr

namespace ParseError

def code : ParseError → String
  | .emptyMessage => "empty_message"
  | .unknownCommand _ => "unknown_command"
  | .unknownSubcommand .. => "unknown_subcommand"
  | .missingArgument .. => "missing_argument"
  | .invalidQuery .. => "invalid_query"
  | .duplicateKeyword .. => "duplicate_keyword"
  | .unexpectedArgument _ => "unexpected_argument"

def message : ParseError → String
  | .emptyMessage => "message is empty"
  | .unknownCommand token => s!"unknown command '{token.text}'"
  | .unknownSubcommand command found expected =>
    let found :=
      match found with
      | none => "nothing"
      | some token => s!"'{token.text}'"
    s!"'{command}' needs one of " ++ "|".intercalate expected ++ s!", found {found}"
  | .missingArgument command argument _ => s!"'{command}' is missing argument <{argument}>"
  | .invalidQuery token source =>
    s!"'{token.text}' is not a valid type/name[/revision] query: {source.message}"
  | .duplicateKeyword argument first duplicate =>
    s!"'{duplicate.text}' conflicts with '{first.text}', only one {argument} may be given"
  | .unexpectedArgument token => s!"unexpected argument '{token.text}'"

/-- The word at fault. -/
def token? : ParseError → Option Token
  | .emptyMessage => none
  | .unknownCommand token => some token
  | .unknownSubcommand _ found _ => found
  | .missingArgument .. => none
  | .invalidQuery token _ => some token
  | .duplicateKeyword _ _ duplicate => some duplicate
  | .unexpectedArgument token => some token

/-- The place of the fault in the message. -/
def position? : ParseError → Option Nat
  | .missingArgument _ _ position => some position
  | e => e.token?.map Token.position

/-- The status a program ends with after such a fault. -/
def exitCode (_ : ParseError) : Nat := 1

end ParseError

end ChatOps
