/-
The choices the built-in commands offer.
-/
import ChatOps.Command.KeywordGroup

namespace ChatOps

/-- The end of a log that is shown. -/
inductive LogDirection where
  | top
  | bottom
deriving DecidableEq, Repr

instance : Choices LogDirection where
  all := [.top, .bottom]
  fallback := .bottom
  word
    | .top => "top"
    | .bottom => "bottom"

/-- Whose deployments are reported. -/
inductive AuthorFilter where
  | anyones
  | mine
  | nobody
deriving DecidableEq, Repr

instance : Choices AuthorFilter where
  all := [.anyones, .mine, .nobody]
  fallback := .mine
  word
    | .anyones => "anyones"
    | .mine => "mine"
    | .nobody => "none"

/-- Which outcomes of a deployment are reported. -/
inductive ResultFilter where
  | all
  | failure
  | success
deriving DecidableEq, Repr

instance : Choices ResultFilter where
  all := [.all, .failure, .success]
  fallback := .all
  word
    | .all => "all"
    | .failure => "failure"
    | .success => "success"

end ChatOps
