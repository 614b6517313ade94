/-
Numbers, dates and the words `true`, `false`, `inf` and `nan`, each given as the whole run of
characters that can belong to one. Whole numbers have 64 bits with sign. A float that rounds to
positive infinity is refused; only the word `inf` stands for it.
-/
import ChatOps.Text.Fields
import ChatOps.Toml.Value

namespace ChatOps.Toml

open Text

/-- A character that can belong to a number, a date or a word. -/
def isScalarChar (c : Char) : Bool :=
  c.isAlphanum || c == '_' || c == '+' || c == '-' || c == '.' || c == ':'

/-- The digit a character stands for in a base of up to sixteen. -/
def digit? (base : Nat) (c : Char) : Option Nat :=
  let n :=
    if c.isDigit then c.toNat - '0'.toNat
    else if 'a' ≤ c ∧ c ≤ 'f' then c.toNat - 'a'.toNat + 10
    else if 'A' ≤ c ∧ c ≤ 'F' then c.toNat - 'A'.toNat + 10
    else base
  if n < base then some n else none

/-- The value of digits, the most significant first. -/
def digits? (base : Nat) (cs : List Char) : Option Nat :=
  cs.foldlM (fun n c => (digit? base c).map fun d => base * n + d) 0

/-- The digits of a numeral in which single underscores may stand between two digits. -/
def ungroup? (cs : List Char) : Option (List Char) :=
  let groups := fields (· == '_') cs
  if groups.any List.isEmpty then none else some groups.flatten

/-- A numeral in a base, underscores allowed. -/
def numeral? (base : Nat) (cs : List Char) : Option Nat := (ungroup? cs).bind (digits? base)

/-- A decimal numeral without needless zeros in front. -/
def whole? (cs : List Char) : Option Nat :=
  match cs with
  | '0' :: _ :: _ => none
  | _ => numeral? 10 cs

/-- The sign in front, and what follows it. -/
def splitSign (cs : List Char) : Bool × List Char :=
  match cs with
  | '-' :: r => (true, r)
  | '+' :: r => (false, r)
  | _ => (false, cs)

/-- Where the signed numbers of 64 bits end. -/
def signedLimit : Nat := 0x8000000000000000

/-- A whole number in 64 bits, decimal with a sign or in base 16, 8 or 2 without. -/
def integer? (cs : List Char) : Option Int :=
  let based (base : Nat) (r : List Char) : Option Int :=
    (numeral? base r).bind fun n => if n < signedLimit then some n else none
  match cs with
  | '0' :: 'x' :: r => based 16 r
  | '0' :: 'o' :: r => based 8 r
  | '0' :: 'b' :: r => based 2 r
  | _ =>
    let (negative, r) := splitSign cs
    (whole? r).bind fun n =>
      if negative then if n ≤ signedLimit then some (-n) else none
      else if n < signedLimit then some n else none

/-- `mantissa * 10 ^ exponent` is nearer to infinity than to every finite float of 64 bits. Powers
of ten far out of range are not computed. -/
def overflows (mantissa : Nat) (exponent : Int) : Bool :=
  let magnitude := (toString mantissa).length + exponent
  let bound := Nat.pow 2 1024 - Nat.pow 2 970
  if mantissa = 0 ∨ magnitude < 300 then false
  else if 320 < magnitude then true
  else if 0 ≤ exponent then bound ≤ mantissa * Nat.pow 10 exponent.toNat
  else bound * Nat.pow 10 (-exponent).toNat ≤ mantissa

/-- An exponent, with or without a sign. -/
def exponent? (cs : List Char) : Option Int :=
  let (negative, r) := splitSign cs
  (numeral? 10 r).map fun n => if negative then -n else n

/-- A decimal fraction, an exponent or both behind a whole number, in range. -/
def isFloat (cs : List Char) : Bool :=
  let (negative, r) := splitSign cs
  let mantissa := r.takeWhile fun c => c != 'e' && c != 'E'
  let exponent : Option Int :=
    match r.dropWhile fun c => c != 'e' && c != 'E' with
    | [] => some 0
    | _ :: e => exponent? e
  let value : Option (Nat × Int) :=
    match fields (· == '.') mantissa with
    | [a] =>
      if mantissa.length = r.length then none
      else match whole? a, exponent with
        | some n, some e => some (n, e)
        | _, _ => none
    | [a, b] =>
      match whole? a, ungroup? b, exponent with
      | some n, some ds, some e =>
        (digits? 10 ds).map fun f => (n * Nat.pow 10 ds.length + f, e - ds.length)
      | _, _, _ => none
    | _ => none
  match value with
  | some (n, e) => negative || !overflows n e
  | none => false

/-- `inf` or `nan`, with or without a sign. -/
def isSpecialFloat (cs : List Char) : Bool :=
  let r := (splitSign cs).2
  r == ['i', 'n', 'f'] || r == ['n', 'a', 'n']

/-- Two digits, as a number in a range. -/
def twoDigits? (least greatest : Nat) (a b : Char) : Option Nat :=
  (digits? 10 [a, b]).bind fun n => if least ≤ n ∧ n ≤ greatest then some n else none

/-- The days of a month. -/
def daysIn (year month : Nat) : Nat :=
  if month = 2 then
    if year % 4 = 0 ∧ (year % 100 ≠ 0 ∨ year % 400 = 0) then 29 else 28
  else if month = 4 ∨ month = 6 ∨ month = 9 ∨ month = 11 then 30
  else 31

/-- What follows a date of the calendar. -/
def afterDate? (cs : List Char) : Option (List Char) :=
  match cs with
  | y₁ :: y₂ :: y₃ :: y₄ :: '-' :: m₁ :: m₂ :: '-' :: d₁ :: d₂ :: r =>
    match digits? 10 [y₁, y₂, y₃, y₄], twoDigits? 1 12 m₁ m₂ with
    | some year, some month => (twoDigits? 1 (daysIn year month) d₁ d₂).map fun _ => r
    | _, _ => none
  | _ => none

/-- What follows a time of day. A leap second is a time of day. -/
def afterTime? (cs : List Char) : Option (List Char) :=
  match cs with
  | h₁ :: h₂ :: ':' :: m₁ :: m₂ :: ':' :: s₁ :: s₂ :: r =>
    match twoDigits? 0 23 h₁ h₂, twoDigits? 0 59 m₁ m₂, twoDigits? 0 60 s₁ s₂ with
    | some _, some _, some _ =>
      match r with
      | '.' :: f =>
        if (f.takeWhile Char.isDigit).isEmpty then none else some (f.dropWhile Char.isDigit)
      | _ => some r
    | _, _, _ => none
  | _ => none

/-- Nothing, or the distance from universal time. -/
def isOffset (cs : List Char) : Bool :=
  match cs with
  | [] => true
  | ['Z'] => true
  | ['z'] => true
  | [sign, h₁, h₂, ':', m₁, m₂] =>
    (sign == '+' || sign == '-') && (twoDigits? 0 23 h₁ h₂).isSome && (twoDigits? 0 59 m₁ m₂).isSome
  | _ => false

/-- A time of day with or without an offset. -/
def isOffsetTime (cs : List Char) : Bool :=
  match afterTime? cs with
  | some r => isOffset r
  | none => false

/-- A date, a time of day, or both with `T` between them. -/
def isDate (cs : List Char) : Bool :=
  match afterDate? cs with
  | some [] => true
  | some (t :: r) => (t == 'T' || t == 't') && isOffsetTime r
  | none => afterTime? cs == some []

/-- The value of a run of characters. -/
def scalar? (cs : List Char) : Option Value :=
  if cs = ['t', 'r', 'u', 'e'] then some (.boolean true)
  else if cs = ['f', 'a', 'l', 's', 'e'] then some (.boolean false)
  else if isDate cs then some (.date (String.ofList cs))
  else if isFloat cs || isSpecialFloat cs then some (.float (String.ofList cs))
  else (integer? cs).map .integer

/-- The value at the front, and what follows it. A date may go on with a time of day after one
blank. -/
def readScalar (cs : List Char) : Option (Value × List Char) :=
  let first := cs.takeWhile isScalarChar
  let rest := cs.dropWhile isScalarChar
  match rest with
  | ' ' :: c :: r =>
    let second := (c :: r).takeWhile isScalarChar
    if afterDate? first = some [] ∧ second ≠ [] then
      if isOffsetTime second then
        some (.date (String.ofList (first ++ ' ' :: second)), (c :: r).dropWhile isScalarChar)
      else none
    else (scalar? first).map fun v => (v, rest)
  | _ => (scalar? first).map fun v => (v, rest)

end ChatOps.Toml
