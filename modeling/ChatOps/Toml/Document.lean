/-
TOML documents, version 1.0: keys, values, headers, and the table a whole text describes. Arrays
and inline tables nest less than eighty deep, and a dotted key has fewer than eighty parts.
-/
import ChatOps.Toml.Quoted
import ChatOps.Toml.Tree

namespace ChatOps.Toml

open Text

/-- Without the blanks of a line in front. -/
def skipBlanks (cs : List Char) : List Char := cs.dropWhile fun c => c == ' ' || c == '\t'

/-- Without a comment in front. -/
def skipComment (cs : List Char) : List Char :=
  match cs with
  | '#' :: r => r.dropWhile isPlain
  | _ => cs

/-- What follows the rest of a line that holds nothing but blanks and a comment. -/
def endLine? (cs : List Char) : Option (List Char) :=
  match skipComment (skipBlanks cs) with
  | [] => some []
  | '\n' :: r => some r
  | _ => none

/-- Without the blanks, line ends and comments in front. -/
def skipLines : Nat → List Char → List Char
  | 0, cs => cs
  | fuel + 1, cs =>
    match skipBlanks cs with
    | '\n' :: r => skipLines fuel r
    | '#' :: r => skipLines fuel (r.dropWhile isPlain)
    | r => r

/-- Parts of a dotted key, and levels of nested brackets, up to this many. -/
def depthLimit : Nat := 79

/-- One part of a key. -/
def readKeyPart (cs : List Char) : Option (String × List Char) :=
  match readLine cs with
  | some (text, r) => some (String.ofList text, r)
  | none =>
    let isBare (c : Char) : Bool := c.isAlphanum || c == '_' || c == '-'
    match cs.takeWhile isBare with
    | [] => none
    | part => some (String.ofList part, cs.dropWhile isBare)

/-- The parts of a key up to a number of them, and what follows the blanks after them. -/
def readKey : Nat → List Char → Option (List String × List Char)
  | 0, _ => none
  | limit + 1, cs => do
    let (part, r) ← readKeyPart (skipBlanks cs)
    match skipBlanks r with
    | '.' :: r =>
      let (parts, r) ← readKey limit r
      return (part :: parts, r)
    -- the blanks after the last part belong to the key
    | r => return ([part], r)

/-- The parts of a key before the last, and the last. -/
def splitLast : List String → List String × String
  | [] => ([], "")
  | [part] => ([], part)
  | part :: parts =>
    let (path, last) := splitLast parts
    (part :: path, last)

/-- The table of the pairs of an inline table. -/
def inlineTable? (pairs : List (List String × Value)) : Option Value :=
  (pairs.foldlM (fun fs (key, v) =>
    let (path, last) := splitLast key
    insertValue path last v fs) ([] : Fields)).map fun fs => .table (toFields fs)

mutual

/-- A value, with at most `depth` levels of brackets. -/
def readValue : Nat → Nat → List Char → Option (Value × List Char)
  | 0, _, _ => none
  | fuel + 1, depth, cs =>
    match cs, depth with
    | '[' :: _, 0 => none
    | '\x7b' :: _, 0 => none
    | '[' :: r, depth + 1 => (readItems fuel depth r).map fun (items, r) => (.array items, r)
    | '\x7b' :: r, depth + 1 =>
      match skipBlanks r with
      | '\x7d' :: r => some (.table [], r)
      | r => do
        let (pairs, r) ← readPairs fuel depth r
        let table ← inlineTable? pairs
        return (table, r)
    | _, _ =>
      match readQuoted cs with
      | some (text, r) => some (.string (String.ofList text), r)
      | none => readScalar cs

/-- The items of an array up to its bracket. A comma may follow the last. -/
def readItems : Nat → Nat → List Char → Option (List Value × List Char)
  | 0, _, _ => none
  | fuel + 1, depth, cs =>
    match skipLines fuel cs with
    | ']' :: r => some ([], r)
    | cs => do
      let (item, r) ← readValue fuel depth cs
      match skipLines fuel r with
      | ']' :: r => return ([item], r)
      | ',' :: r =>
        let (items, r) ← readItems fuel depth r
        return (item :: items, r)
      | _ => none

/-- The pairs of an inline table, of which there is at least one, up to its bracket. -/
def readPairs : Nat → Nat → List Char → Option (List (List String × Value) × List Char)
  | 0, _, _ => none
  | fuel + 1, depth, cs => do
    let (key, r) ← readKey depthLimit cs
    match r with
    | '=' :: r =>
      let (v, r) ← readValue fuel depth (skipBlanks r)
      match skipBlanks r with
      | '\x7d' :: r => return ([(key, v)], r)
      | ',' :: r =>
        let (pairs, r) ← readPairs fuel depth r
        return ((key, v) :: pairs, r)
      | _ => none
    | _ => none

end

/-- A line of a document that says something. -/
inductive Statement where
  | pair (key : List String) (v : Value)
  | header (key : List String)
  | repeatedHeader (key : List String)

/-- The statement at the front, and what follows the blanks after it. -/
def readStatement (cs : List Char) : Option (Statement × List Char) :=
  match cs with
  | '[' :: '[' :: r => do
    let (key, r) ← readKey depthLimit r
    match r with
    | ']' :: ']' :: r => return (.repeatedHeader key, r)
    | _ => none
  | '[' :: r => do
    let (key, r) ← readKey depthLimit r
    match r with
    | ']' :: r => return (.header key, r)
    | _ => none
  | _ => do
    let (key, r) ← readKey depthLimit cs
    match r with
    | '=' :: r =>
      let r := skipBlanks r
      let (v, r) ← readValue (2 * r.length + 2) depthLimit r
      return (.pair key v, r)
    | _ => none

/-- The statements of a text of at most `fuel` lines, each on a line of its own. -/
def readStatements : Nat → List Char → Option (List Statement)
  | 0, _ => none
  | fuel + 1, cs =>
    match endLine? cs with
    | some [] => some []
    | some r => readStatements fuel r
    | none => do
      let (s, r) ← readStatement (skipBlanks cs)
      match ← endLine? r with
      | [] => return [s]
      | r =>
        let ss ← readStatements fuel r
        return s :: ss

/-- Carries statements out on the table of a document; `header` is the table that pairs go to. -/
def carryOut (header : List String) (fs : Fields) : List Statement → Option Fields
  | [] => some fs
  | .pair key v :: rest => do
    let (path, last) := splitLast key
    let fs ← modifyAt .implied (fun _ inner => insertValue path last v inner) header .headed fs
    carryOut header fs rest
  | .header key :: rest => do
    let (path, last) := splitLast key
    let fs ← insertTable path last fs
    carryOut key fs rest
  | .repeatedHeader key :: rest => do
    let (path, last) := splitLast key
    let fs ← insertTables path last fs
    carryOut key fs rest

/-- A text with single line feeds at the ends of its lines. -/
def unifyLineEnds : List Char → List Char
  | [] => []
  | '\r' :: '\n' :: cs => '\n' :: unifyLineEnds cs
  | c :: cs => c :: unifyLineEnds cs

/-- A text without the byte order mark it may begin with. -/
def dropMark (cs : List Char) : List Char :=
  match cs with
  | '\uFEFF' :: r => r
  | _ => cs

/-- The table that a text describes, if it is a TOML document. -/
def readDocument (text : String) : Option (List (String × Value)) := do
  let cs := unifyLineEnds (dropMark text.toList)
  let statements ← readStatements (cs.length + 1) cs
  let fs ← carryOut [] [] statements
  return toFields fs

end ChatOps.Toml
