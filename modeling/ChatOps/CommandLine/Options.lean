/-
The words of a command line: options with and without a value, and other words. An option and its
value are two words, or one with an equals sign between; a short option may carry its value without
one. After a double dash every word is a plain word. Each option is given at most once. Words are
taken from left to right, and the first that decides the outcome ends the reading.
-/
namespace ChatOps.CommandLine

/-- Why there is nothing to run. -/
inductive Stop where
  | help
  | version
  /-- The words do not fit. -/
  | usage
deriving DecidableEq, Repr

/-- A word by its form. -/
inductive Form where
  | plain (s : String)
  | doubleDash
  /-- An option, with a value in the same word if there is one. -/
  | option (name : String) (attached : Option String)
deriving DecidableEq, Repr

/-- A short option that carries `r`, with or without an equals sign in front. -/
def carried (r : List Char) : Option String :=
  match r with
  | [] => none
  | '=' :: v => some (String.ofList v)
  | _ => some (String.ofList r)

/-- The form of a word. A single dash is a plain word. -/
def Form.of (arg : String) : Form :=
  match arg.toList with
  | ['-', '-'] => .doubleDash
  | '-' :: '-' :: r =>
    match r.dropWhile (· != '=') with
    | [] => .option (String.ofList r) none
    | _ :: v => .option (String.ofList (r.takeWhile (· != '='))) (some (String.ofList v))
  | ['-'] => .plain arg
  | '-' :: 'c' :: r => .option "config" (carried r)
  | '-' :: 'h' :: _ => .option "help" none
  | '-' :: 'V' :: _ => .option "version" none
  | '-' :: _ => .option "" none
  | _ => .plain arg

/-- What may be given at one level of the command line. -/
structure Level where
  /-- Options with a value. -/
  valued : List String
  /-- Of these, the ones whose value may not be empty. -/
  nonEmpty : List String := ["config"]
  /-- Options without a value. -/
  switches : List String := []
  /-- The version can be asked for here. -/
  hasVersion : Bool := false
  /-- The most plain words, if there is a most. -/
  maxWords : Option Nat := some 0
  /-- The first plain word opens the next level. -/
  nested : Bool := false

/-- What was given at one level. -/
structure Given where
  values : List (String × String) := []
  switches : List String := []
  words : List String := []

namespace Given

def addWords (g : Given) (level : Level) (ws : List String) : Except Stop Given :=
  let words := g.words ++ ws
  if level.maxWords.all (words.length ≤ ·) then .ok { g with words } else .error .usage

def addValue (g : Given) (level : Level) (name value : String) : Except Stop Given :=
  if (g.values.lookup name).isSome ∨ (level.nonEmpty.contains name ∧ value = "") then .error .usage
  else .ok { g with values := g.values ++ [(name, value)] }

def addSwitch (g : Given) (name : String) : Except Stop Given :=
  if g.switches.contains name then .error .usage
  else .ok { g with switches := g.switches ++ [name] }

end Given

namespace Level

/-- Reads the words of a level; the words of the next level are left. -/
def read (level : Level) : Given → List String → Except Stop (Given × List String)
  | g, [] => .ok (g, [])
  | g, arg :: rest =>
    match Form.of arg with
    | .plain s =>
      if level.nested then .ok (g, s :: rest)
      else do level.read (← g.addWords level [s]) rest
    | .doubleDash => do
      let g ← g.addWords level rest
      return (g, [])
    | .option "help" none => .error .help
    | .option name attached =>
      if level.hasVersion ∧ name = "version" ∧ attached = none then .error .version
      else if level.valued.contains name then
        match attached, rest with
        | some value, rest => do level.read (← g.addValue level name value) rest
        | none, value :: rest =>
          match Form.of value with
          | .plain value => do level.read (← g.addValue level name value) rest
          | _ => .error .usage
        | none, [] => .error .usage
      else if level.switches.contains name ∧ attached = none then do
        level.read (← g.addSwitch name) rest
      else .error .usage

end Level

end ChatOps.CommandLine
