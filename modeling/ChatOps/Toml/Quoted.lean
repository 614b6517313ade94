/-
Quoted text. Between double quotes a backslash begins an escape; between single quotes every
character stands for itself. Tripled quotes let the text run over lines; there a backslash at the
end of a line joins it to the next word, and up to two quotes may stand directly before the closing
three. Line ends are single line feeds.
-/
import ChatOps.Toml.Scalar

namespace ChatOps.Toml

/-- A character that may stand in a comment or in quoted text: no control character but the tab. -/
def isPlain (c : Char) : Bool :=
  c == '\t' || (0x20 ≤ c.toNat && c.toNat ≠ 0x7F)

/-- The character an escape of one letter stands for. -/
def escaped? (c : Char) : Option Char :=
  if c = 'b' then some '\x08'
  else if c = 't' then some '\t'
  else if c = 'n' then some '\n'
  else if c = 'f' then some '\x0c'
  else if c = 'r' then some '\r'
  else if c = '"' then some '"'
  else if c = '\\' then some '\\'
  else none

/-- The character of a code point, if there is one. -/
def character? (n : Nat) : Option Char := if n.isValidChar then some (Char.ofNat n) else none

/-- One more character in front of a text that was read. -/
def push (c : Char) (read : Option (List Char × List Char)) : Option (List Char × List Char) :=
  read.map fun (text, rest) => (c :: text, rest)

/-- Where a reader of double-quoted text stands. -/
inductive Place where
  /-- Among characters; `joining` while the blanks after an escaped line end are passed over. -/
  | plain (joining : Bool)
  /-- After a backslash. -/
  | escape
  /-- After a backslash and blanks, before the end of the line. -/
  | lineEnd
  /-- In a code point with `left` digits to come. -/
  | code (left : Nat) (value : Nat)

/-- Three to five quotes end a text of several lines. The quotes that belong to the text, and what
follows. -/
def closing? (quote : Char) (cs : List Char) : Option (List Char × List Char) :=
  let run := min 5 (cs.takeWhile (· == quote)).length
  if run < 3 then none else some (List.replicate (run - 3) quote, cs.drop run)

/-- Double-quoted text, after its opening quotes, and what follows the closing ones. -/
def readBasic (multiline : Bool) : Place → List Char → Option (List Char × List Char)
  | _, [] => none
  | .plain joining, c :: r =>
    if joining && (c == ' ' || c == '\t' || c == '\n') then readBasic multiline (.plain true) r
    else if c = '"' then
      if multiline then
        match closing? '"' (c :: r) with
        | some read => some read
        | none => push c (readBasic multiline (.plain false) r)
      else some ([], r)
    else if c = '\\' then readBasic multiline .escape r
    else if isPlain c || (multiline && c == '\n') then
      push c (readBasic multiline (.plain false) r)
    else none
  | .escape, c :: r =>
    if c = 'u' then readBasic multiline (.code 4 0) r
    else if c = 'U' then readBasic multiline (.code 8 0) r
    else if multiline && (c == ' ' || c == '\t') then readBasic multiline .lineEnd r
    else if multiline && c == '\n' then readBasic multiline (.plain true) r
    else match escaped? c with
      | some d => push d (readBasic multiline (.plain false) r)
      | none => none
  | .lineEnd, c :: r =>
    if c = '\n' then readBasic multiline (.plain true) r
    else if c = ' ' ∨ c = '\t' then readBasic multiline .lineEnd r
    else none
  | .code left value, c :: r =>
    match digit? 16 c with
    | none => none
    | some d =>
      let value := 16 * value + d
      if 1 < left then readBasic multiline (.code (left - 1) value) r
      -- the last digit: surrogates and numbers out of range stand for no character
      else match character? value with
        | some e => push e (readBasic multiline (.plain false) r)
        | none => none

/-- Single-quoted text, after its opening quotes, and what follows the closing ones. -/
def readLiteral (multiline : Bool) : List Char → Option (List Char × List Char)
  | [] => none
  | c :: r =>
    if c = '\'' then
      if multiline then
        match closing? '\'' (c :: r) with
        | some read => some read
        | none => push c (readLiteral multiline r)
      else some ([], r)
    else if isPlain c || (multiline && c == '\n') then push c (readLiteral multiline r)
    else none

/-- A text without the line end it may begin with. -/
def dropLineEnd (cs : List Char) : List Char :=
  match cs with
  | '\n' :: r => r
  | _ => cs

/-- Quoted text on one line, if the characters begin with it. -/
def readLine (cs : List Char) : Option (List Char × List Char) :=
  match cs with
  | '"' :: r => readBasic false (.plain false) r
  | '\'' :: r => readLiteral false r
  | _ => none

/-- Quoted text, if the characters begin with it. -/
def readQuoted (cs : List Char) : Option (List Char × List Char) :=
  match cs with
  | '"' :: '"' :: '"' :: r => readBasic true (.plain false) (dropLineEnd r)
  | '\'' :: '\'' :: '\'' :: r => readLiteral true (dropLineEnd r)
  | _ => readLine cs

end ChatOps.Toml
