/-
Values: what an argument of a command stands for once a message is understood.
-/
import ChatOps.Query
import ChatOps.Text.Decimal

namespace ChatOps

/-- The value of an argument. -/
inductive Value where
  | text (s : String)
  | integer (n : UInt64)
  /-- What a keyword stands for. -/
  | keyword (s : String)
  | list (items : List String)
  | query (q : Query)
  /-- An optional argument that was left out. -/
  | unset
deriving DecidableEq, Repr

namespace Value

def display : Value → String
  | .text s => s
  | .integer n => Text.showUInt64 n
  | .keyword s => s
  | .list items => "[" ++ ", ".intercalate items ++ "]"
  | .query q => q.display
  | .unset => "-"

/-- The kind of a value is not written. -/
def toJson : Value → Json
  | .text s => .string s
  | .integer n => .ofNat n.toNat
  | .keyword s => .string s
  | .list items => .array (items.map .string)
  | .query q => q.toJson
  | .unset => .null

end Value

end ChatOps
