/-
The form of the items of a list argument: how a token becomes an item, and an item a token again.
-/
namespace ChatOps

/-- The tokens a list takes as items. -/
inductive ItemForm where
  /-- Tokens that begin with a mark and go on after it. The mark is not part of the item. -/
  | marked (mark : String)
  /-- Tokens that do not begin with `#`. -/
  | bareword
deriving DecidableEq, Repr

namespace ItemForm

/-- The item of a token that has the form. -/
def accept? (form : ItemForm) (token : String) : Option String :=
  match form with
  | .marked mark =>
    match List.isPrefixOf? mark.toList token.toList with
    | some (c :: cs) => some (String.ofList (c :: cs))
    | _ => none
  | .bareword => if token.toList.head? = some '#' then none else some token

/-- The token of an item. -/
def render (form : ItemForm) (item : String) : String :=
  match form with
  | .marked mark => mark ++ item
  | .bareword => item

end ItemForm

end ChatOps
