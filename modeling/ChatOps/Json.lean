/-
JSON values and their two written forms. The compact form has no blanks. The indented form gives
every item and every field a line of its own, two spaces deeper than the brackets around it; empty
brackets stay closed up. Strings keep every character but the quote, the backslash and the control
characters below U+0020, which are escaped.
-/
namespace ChatOps

/-- A JSON value. A number is `mantissa` divided by `scale` powers of ten. -/
inductive Json where
  | null
  | bool (b : Bool)
  | number (mantissa : Int) (scale : Nat)
  | string (s : String)
  | array (items : List Json)
  | object (fields : List (String × Json))
deriving Repr, Inhabited

namespace Json

/-- A whole number. -/
def ofNat (n : Nat) : Json := .number n 0

/-- A string, or `null` where there is none. -/
def ofOption : Option String → Json
  | none => .null
  | some s => .string s

/-- The characters that stand for a character inside a string. -/
def escape (c : Char) : List Char :=
  if c = '"' then ['\\', '"']
  else if c = '\\' then ['\\', '\\']
  else if c = '\n' then ['\\', 'n']
  else if c = '\r' then ['\\', 'r']
  else if c = '\t' then ['\\', 't']
  else if c = '\x08' then ['\\', 'b']
  else if c = '\x0c' then ['\\', 'f']
  else if c.toNat < 0x20 then
    ['\\', 'u', '0', '0', Nat.digitChar (c.toNat / 16), Nat.digitChar (c.toNat % 16)]
  else [c]

/-- A string between quotes. -/
def quote (s : String) : List Char := '"' :: s.toList.flatMap escape ++ ['"']

/-- A number's text. -/
def numeral (mantissa : Int) (scale : Nat) : List Char :=
  (toString mantissa).toList ++ if scale = 0 then [] else ['e', '-'] ++ (toString scale).toList

mutual

/-- The compact form. -/
def compact : Json → List Char
  | .null => ['n', 'u', 'l', 'l']
  | .bool true => ['t', 'r', 'u', 'e']
  | .bool false => ['f', 'a', 'l', 's', 'e']
  | .number m k => numeral m k
  | .string s => quote s
  | .array items => '[' :: compactItems items ++ [']']
  | .object fields => '\x7b' :: compactFields fields ++ ['\x7d']

/-- Items with commas between them. -/
def compactItems : List Json → List Char
  | [] => []
  | [j] => compact j
  | j :: js => compact j ++ ',' :: compactItems js

/-- Fields with commas between them. -/
def compactFields : List (String × Json) → List Char
  | [] => []
  | [(k, j)] => quote k ++ ':' :: compact j
  | (k, j) :: fs => quote k ++ ':' :: compact j ++ ',' :: compactFields fs

end

/-- A line break and the spaces of a line at `depth`. -/
def newLine (depth : Nat) : List Char := '\n' :: List.replicate (2 * depth) ' '

mutual

/-- The indented form of a value whose first line is at `depth`. -/
def indentedAt (depth : Nat) : Json → List Char
  | .null => ['n', 'u', 'l', 'l']
  | .bool true => ['t', 'r', 'u', 'e']
  | .bool false => ['f', 'a', 'l', 's', 'e']
  | .number m k => numeral m k
  | .string s => quote s
  | .array [] => ['[', ']']
  | .array (j :: js) =>
    '[' :: newLine (depth + 1) ++ indentedAt (depth + 1) j ++ indentedItems (depth + 1) js ++
      newLine depth ++ [']']
  | .object [] => ['\x7b', '\x7d']
  | .object ((k, j) :: fs) =>
    '\x7b' :: newLine (depth + 1) ++ quote k ++ [':', ' '] ++ indentedAt (depth + 1) j ++
      indentedFields (depth + 1) fs ++ newLine depth ++ ['\x7d']

/-- The items after the first. -/
def indentedItems (depth : Nat) : List Json → List Char
  | [] => []
  | j :: js => ',' :: newLine depth ++ indentedAt depth j ++ indentedItems depth js

/-- The fields after the first. -/
def indentedFields (depth : Nat) : List (String × Json) → List Char
  | [] => []
  | (k, j) :: fs =>
    ',' :: newLine depth ++ quote k ++ [':', ' '] ++ indentedAt depth j ++ indentedFields depth fs

end

/-- The compact text of a value. -/
def render (j : Json) : String := String.ofList j.compact

/-- The indented text of a value. -/
def renderIndented (j : Json) : String := String.ofList (j.indentedAt 0)

/-- The first field of an object with this name. -/
def field? (fields : List (String × Json)) (name : String) : Option Json := fields.lookup name

/-- The text that a value is. -/
def string? : Json → Option String
  | .string s => some s
  | _ => none

/-- The truth value that a value is. -/
def bool? : Json → Option Bool
  | .bool b => some b
  | _ => none

end Json

end ChatOps
