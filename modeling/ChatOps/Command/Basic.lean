/-
Commands as data: a name, the subcommands it asks for, its arguments in the order in which they
take tokens, and whether tokens may be left over. A new command is a new value of `Command`.
-/
import ChatOps.Command.Argument
import ChatOps.Text.AsciiCase

namespace ChatOps

open Text

/-- What becomes of tokens that no argument takes. -/
inductive Trailing where
  | reject
  | ignore
deriving DecidableEq, Repr

/-- A command of the chat language. -/
structure Command where
  name : String
  description : String := ""
  subcommands : List String := []
  arguments : List Argument := []
  trailing : Trailing := .reject
deriving DecidableEq, Repr

namespace Command

/-- The declared spelling of a subcommand, given in any case. -/
def findSubcommand? (c : Command) (word : String) : Option String :=
  c.subcommands.find? (sameIgnoringCase · word)

/-- One more subcommand, unless it is there already in some case. -/
def withSubcommand (c : Command) (word : String) : Command :=
  if (c.findSubcommand? word).isSome then c
  else { c with subcommands := c.subcommands ++ [word] }

/-- More subcommands, in order. -/
def withSubcommands (c : Command) (words : List String) : Command := words.foldl withSubcommand c

/-- The word is a keyword of an argument at another place than `index`. -/
def isReservedElsewhere (c : Command) (word : String) (index : Nat) : Bool :=
  c.arguments.zipIdx.any fun (a, i) => i != index && a.reserved.contains word

/-- Every keyword of a command, with the place of its argument. -/
def keywordPlaces (c : Command) : List (String × Nat) :=
  c.arguments.zipIdx.flatMap fun (a, i) => a.reserved.map fun word => (word, i)

/-- The first keyword that two arguments claim. -/
def ambiguousKeyword? (c : Command) : Option String :=
  (c.keywordPlaces.find? fun (word, i) => c.isReservedElsewhere word i).map Prod.fst

/-- The command in one line. -/
def usage (c : Command) : String :=
  let subcommands :=
    if c.subcommands = [] then [] else ["\x7b" ++ "|".intercalate c.subcommands ++ "\x7d"]
  " ".intercalate (c.name :: subcommands ++ c.arguments.map Argument.usage)

end Command

end ChatOps
