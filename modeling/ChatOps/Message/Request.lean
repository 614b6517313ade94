/-
Requests: a message that is understood. A request has a value for every argument of its command.
Its canonical text writes every value out, defaults too, each argument at its declared place.
-/
import ChatOps.Command.Basic
import ChatOps.NameMap

namespace ChatOps

/-- A command with the values of its arguments. -/
structure Request where
  command : Command
  /-- In its declared spelling. -/
  subcommand : Option String
  augments : NameMap Value
deriving DecidableEq

namespace Request

/-- The value of an argument. -/
def get? (r : Request) (argument : String) : Option Value := r.augments.get? argument

def text? (r : Request) (argument : String) : Option String :=
  match r.get? argument with
  | some (.text s) => some s
  | _ => none

def integer? (r : Request) (argument : String) : Option UInt64 :=
  match r.get? argument with
  | some (.integer n) => some n
  | _ => none

def list? (r : Request) (argument : String) : Option (List String) :=
  match r.get? argument with
  | some (.list items) => some items
  | _ => none

def query? (r : Request) (argument : String) : Option Query :=
  match r.get? argument with
  | some (.query q) => some q
  | _ => none

/-- The choice that the keyword of an argument stands for. -/
def choice? (r : Request) (α : Type) [Choices α] (argument : String) : Option α :=
  match r.get? argument with
  | some (.keyword s) => Choices.parse? α s
  | _ => none

/-- The arguments with their values, in declared order. -/
def entries (r : Request) : List (Argument × Value) :=
  r.command.arguments.filterMap fun a => (r.get? a.name).map fun v => (a, v)

/-- A line for each argument. -/
def lines (r : Request) : List String :=
  r.entries.map fun (a, v) => s!"- {a.name}={v.display}"

/-- The words that write the value of an argument. -/
def canonicalWords : Argument × Value → List String
  | (_, .unset) => []
  | (a, .keyword canonical) =>
    match a.kind with
    | .keywords group => (group.literal? canonical).toList
    | _ => [canonical]
  | (a, .list items) =>
    match a.kind with
    | .list form => items.map form.render
    | _ => items
  | (_, v) => [v.display]

/-- A message that asks for this request in full. -/
def canonicalText (r : Request) : String :=
  " ".intercalate (r.command.name :: r.subcommand.toList ++ r.entries.flatMap canonicalWords)

def toJson (r : Request) : Json :=
  .object [("command", .string r.command.name), ("subcommand", .ofOption r.subcommand),
    ("augments", .object (r.augments.entries.map fun (name, v) => (name, v.toJson)))]

end Request

end ChatOps
