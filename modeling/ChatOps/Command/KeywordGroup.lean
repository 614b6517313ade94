/-
Keyword groups: words of which a message may give one. Each word stands for a value, and the group
names the value that holds when the message gives none of them. A closed set of choices is such a
group, each choice under its own word.
-/
namespace ChatOps

/-- Words, what each stands for, and the value when none is given. -/
structure KeywordGroup where
  keywords : List (String × String)
  fallback : String
deriving DecidableEq, Repr

namespace KeywordGroup

/-- The words, as declared. -/
def literals (g : KeywordGroup) : List String := g.keywords.map Prod.fst

/-- What a word stands for; the first declaration of a word counts. -/
def canonical? (g : KeywordGroup) (literal : String) : Option String := g.keywords.lookup literal

/-- The first word that stands for a value. -/
def literal? (g : KeywordGroup) (canonical : String) : Option String :=
  (g.keywords.find? (·.2 == canonical)).map Prod.fst

end KeywordGroup

/-- A closed set of choices, each with a word, one of them the choice when none is made. -/
class Choices (α : Type) where
  all : List α
  fallback : α
  word : α → String

namespace Choices

/-- The choice with this word. -/
def parse? (α : Type) [Choices α] (s : String) : Option α := (all : List α).find? (word · == s)

/-- The choices as a group of keywords. -/
def group (α : Type) [Choices α] : KeywordGroup where
  keywords := (all : List α).map fun a => (word a, word a)
  fallback := word (fallback : α)

end Choices

end ChatOps
