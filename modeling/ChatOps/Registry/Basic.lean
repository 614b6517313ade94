/-
The registry: commands by the lowercase of their names. A command is refused when its name is taken
or when two of its arguments claim one keyword.
-/
import ChatOps.Command.Basic
import ChatOps.NameMap
import ChatOps.Text.Lowercase

namespace ChatOps

open Text

/-- Commands by the lowercase of their names. -/
structure Registry where
  commands : NameMap Command
deriving DecidableEq

/-- Why the registry refuses. -/
inductive RegistryError where
  | duplicateCommand (name : String)
  | ambiguousKeyword (command keyword : String)
  | notFound (name : String)
deriving DecidableEq, Repr

namespace RegistryError

def code : RegistryError → String
  | .duplicateCommand _ => "duplicate_command"
  | .ambiguousKeyword .. => "ambiguous_keyword"
  | .notFound _ => "not_found"

def message : RegistryError → String
  | .duplicateCommand name => s!"command '{name}' is already registered"
  | .ambiguousKeyword command keyword =>
    s!"command '{command}' uses keyword '{keyword}' in more than one group"
  | .notFound name => s!"no command named '{name}'"

/-- The status a program ends with after such a fault. -/
def exitCode (_ : RegistryError) : Nat := 3

end RegistryError

namespace Registry

def empty : Registry := ⟨.empty⟩

/-- The command with this name, in any case. -/
def find? (r : Registry) (name : String) : Option Command := r.commands.get? (lowercase name)

/-- The command with this name, in any case. -/
def lookup (r : Registry) (name : String) : Except RegistryError Command :=
  match r.find? name with
  | some c => .ok c
  | none => .error (.notFound name)

/-- The registry with one more command. -/
def register (r : Registry) (c : Command) : Except RegistryError Registry :=
  if r.commands.contains (lowercase c.name) then .error (.duplicateCommand c.name)
  else match c.ambiguousKeyword? with
    | some keyword => .error (.ambiguousKeyword c.name keyword)
    | none => .ok ⟨r.commands.insert (lowercase c.name) c⟩

/-- The number of commands. -/
def size (r : Registry) : Nat := r.commands.size

/-- The commands, in increasing order of the lowercase of their names. -/
def toList (r : Registry) : List Command := r.commands.values

end Registry

end ChatOps
