/-
Binding: the arguments of a command take their values from the tokens after its name. They are
served in declared order. Each takes some of the tokens that are left and passes on the others in
their order, so an argument sees exactly what no earlier one took.
-/
import ChatOps.Command.Basic
import ChatOps.Message.ParseError
import ChatOps.NameMap

namespace ChatOps

/-- The position of the first token that is left, `stop` when none is. -/
def nextPosition (stop : Nat) : List Token → Nat
  | [] => stop
  | t :: _ => t.position

namespace Argument

/-- Takes the next token as text. -/
def bindPositional (missing : ParseError) : List Token → Except ParseError (Value × List Token)
  | [] => .error missing
  | t :: rest => .ok (.text t.text, rest)

/-- Takes the next token as a query. -/
def bindQuery (missing : ParseError) : List Token → Except ParseError (Value × List Token)
  | [] => .error missing
  | t :: rest =>
    match Query.parse t.text with
    | .ok q => .ok (.query q, rest)
    | .error source => .error (.invalidQuery t source)

/-- Takes the next token if it passes, else the default. -/
def bindValidated (missing : ParseError) (validator : Validator) (default : Option Value)
    (tokens : List Token) : Except ParseError (Value × List Token) :=
  -- a token that does not pass is left for the arguments after this one
  match tokens.head?.bind fun t => validator.validate? t.text, default with
  | some value, _ => .ok (value, tokens.tail)
  | none, some value => .ok (value, tokens)
  | none, none => .error missing

/-- Takes the one token that is a keyword of the group, wherever it stands. -/
def bindKeyword (name : String) (group : KeywordGroup) (tokens : List Token) :
    Except ParseError (Value × List Token) :=
  match tokens.filter fun t => group.literals.contains t.text with
  | [] => .ok (.keyword group.fallback, tokens)
  | [t] =>
    -- the others close up around it
    .ok (.keyword ((group.canonical? t.text).getD group.fallback),
      tokens.filter fun t => !group.literals.contains t.text)
  | first :: duplicate :: _ => .error (.duplicateKeyword name first duplicate)

/-- The item of a token, unless the token is reserved. -/
def item? (form : ItemForm) (reserved : String → Bool) (t : Token) : Option String :=
  if reserved t.text then none else form.accept? t.text

/-- Takes the run of items at the front. -/
def bindList (form : ItemForm) (reserved : String → Bool) (tokens : List Token) :
    Value × List Token :=
  (.list ((tokens.takeWhile fun t => (item? form reserved t).isSome).filterMap
      (item? form reserved)),
    tokens.dropWhile fun t => (item? form reserved t).isSome)

/-- The value of the argument at place `index` of a command, and the tokens it leaves. `stop` is
the number of tokens of the message. -/
def bind (a : Argument) (command : Command) (index stop : Nat) (tokens : List Token) :
    Except ParseError (Value × List Token) :=
  let missing := .missingArgument command.name a.name (nextPosition stop tokens)
  match a.kind with
  | .positional => bindPositional missing tokens
  | .query => bindQuery missing tokens
  | .validated validator default => bindValidated missing validator default tokens
  | .keywords group => bindKeyword a.name group tokens
  | .list form => .ok (bindList form (command.isReservedElsewhere · index) tokens)

end Argument

namespace Command

/-- The values of arguments that begin at place `index`, in order, and the tokens they leave. -/
def bindFrom (command : Command) (stop : Nat) :
    Nat → List Argument → List Token → Except ParseError (List Value × List Token)
  | _, [], tokens => .ok ([], tokens)
  | index, a :: as, tokens => do
    let (value, left) ← a.bind command index stop tokens
    let (values, left) ← command.bindFrom stop (index + 1) as left
    return (value :: values, left)

/-- The values of the arguments, one for each, from the tokens after the command's name and
subcommand. -/
def bindValues (command : Command) (stop : Nat) (tokens : List Token) :
    Except ParseError (List Value) := do
  let (values, left) ← command.bindFrom stop 0 command.arguments tokens
  match command.trailing, left with
  | .reject, t :: _ => .error (.unexpectedArgument t)
  | _, _ => .ok values

/-- The values by the arguments' names. Of two arguments with one name the later counts. -/
def bind (command : Command) (stop : Nat) (tokens : List Token) :
    Except ParseError (NameMap Value) := do
  let values ← command.bindValues stop tokens
  return NameMap.ofList ((command.arguments.map Argument.name).zip values)

end Command

end ChatOps
