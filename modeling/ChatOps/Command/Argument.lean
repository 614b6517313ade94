/-
Arguments: the named places of a command, and how each takes tokens of a message.
-/
import ChatOps.Command.ItemForm
import ChatOps.Command.KeywordGroup
import ChatOps.Command.Validator

namespace ChatOps

/-- How an argument takes tokens. -/
inductive ArgumentKind where
  /-- The next token, as text. -/
  | positional
  /-- The next token if it passes, else the default; without a default it has to pass. -/
  | validated (validator : Validator) (default : Option Value)
  /-- The one keyword of the group among all tokens that are left. -/
  | keywords (group : KeywordGroup)
  /-- The tokens of the form at the front of those that are left. -/
  | list (form : ItemForm)
  /-- The next token, as a query. -/
  | query
deriving DecidableEq, Repr

/-- A named place of a command. -/
structure Argument where
  name : String
  kind : ArgumentKind
deriving DecidableEq, Repr

namespace Argument

/-- Any one token, or nothing. -/
def optional (name : String) : Argument := ⟨name, .validated .any (some .unset)⟩

/-- One of a closed set of choices. -/
def choice (name : String) (α : Type) [Choices α] : Argument := ⟨name, .keywords (Choices.group α)⟩

/-- The words that only this argument may take. -/
def reserved (a : Argument) : List String :=
  match a.kind with
  | .keywords group => group.literals
  | _ => []

/-- The value when a message gives none. -/
def default? (a : Argument) : Option Value :=
  match a.kind with
  | .validated _ default => default
  | .keywords group => some (.keyword group.fallback)
  | .list _ => some (.list [])
  | .positional => none
  | .query => none

/-- An argument that has to be given stands in angle brackets, another in square brackets. -/
def usage (a : Argument) : String :=
  match a.kind with
  | .positional => "<" ++ a.name ++ ">"
  | .query => "<" ++ a.name ++ ">"
  | .validated _ none => "<" ++ a.name ++ ">"
  | .validated _ (some _) => "[" ++ a.name ++ "]"
  | .keywords group => "[" ++ "|".intercalate group.literals ++ "]"
  | .list form => "[" ++ form.render a.name ++ "...]"

theorem head?_usage (a : Argument) :
    a.usage.toList.head? = some (if a.default?.isSome then '[' else '<') := by
  obtain ⟨name, kind⟩ := a
  cases kind with
  | positional => simp [usage, default?]
  | validated validator default => cases default <;> simp [usage, default?]
  | keywords group => simp [usage, default?]
  | list form => simp [usage, default?]
  | query => simp [usage, default?]

end Argument

end ChatOps
