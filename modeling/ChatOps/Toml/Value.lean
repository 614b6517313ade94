/-
TOML values. Floats and dates are kept as written, since nothing here computes with them.
-/
namespace ChatOps.Toml

/-- A value of a TOML document. -/
inductive Value where
  | string (s : String)
  | integer (n : Int)
  | float (text : String)
  | boolean (b : Bool)
  | date (text : String)
  | array (items : List Value)
  | table (fields : List (String × Value))
deriving Repr

end ChatOps.Toml
