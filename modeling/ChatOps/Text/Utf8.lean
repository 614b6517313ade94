/-
UTF-8. Octets are read back into characters, or refused with the place of the first octet that
begins no character and the number of octets that were sound up to the fault. A lead octet says how
many octets follow and in which window the first of these lies; the windows leave out overlong
forms, surrogates and everything above U+10FFFF.
-/
namespace ChatOps.Text

/-- Why octets are not UTF-8. Positions count octets from the start. -/
inductive Utf8Fault where
  /-- The sequence at `position` breaks off after `length` octets at one that cannot follow. -/
  | invalid (length position : Nat)
  /-- The octets end inside the sequence at `position`. -/
  | incomplete (position : Nat)
deriving DecidableEq, Repr

def Utf8Fault.message : Utf8Fault → String
  | .invalid length position =>
    s!"invalid utf-8 sequence of {length} bytes from index {position}"
  | .incomplete position => s!"incomplete utf-8 byte sequence from index {position}"

/-- The octets that follow a lead octet, and the least and the greatest value of the first. -/
def tail? (b : UInt8) : Option (Nat × UInt8 × UInt8) :=
  if 0xC2 ≤ b ∧ b ≤ 0xDF then some (1, 0x80, 0xBF)
  else if b = 0xE0 then some (2, 0xA0, 0xBF)
  else if b = 0xED then some (2, 0x80, 0x9F)
  else if 0xE1 ≤ b ∧ b ≤ 0xEF then some (2, 0x80, 0xBF)
  else if b = 0xF0 then some (3, 0x90, 0xBF)
  else if 0xF1 ≤ b ∧ b ≤ 0xF3 then some (3, 0x80, 0xBF)
  else if b = 0xF4 then some (3, 0x80, 0x8F)
  else none

/-- An octet of the form `10xxxxxx`. -/
def isContinuation (b : UInt8) : Bool := 0x80 ≤ b && b ≤ 0xBF

/-- The low six bits of an octet. -/
def low6 (b : UInt8) : Nat := b.toNat % 0x40

/-- The characters of the octets that start at `position`. -/
def decodeFrom (position : Nat) : List UInt8 → Except Utf8Fault (List Char)
  | [] => .ok []
  | a :: as =>
    if a < 0x80 then (decodeFrom (position + 1) as).map (Char.ofNat a.toNat :: ·)
    else match tail? a, as with
      | none, _ => .error (.invalid 1 position)
      | some _, [] => .error (.incomplete position)
      | some (count, least, greatest), b :: bs =>
        if ¬ (least ≤ b ∧ b ≤ greatest) then .error (.invalid 1 position)
        else if count = 1 then
          let c := Char.ofNat (a.toNat % 0x20 * 0x40 + low6 b)
          (decodeFrom (position + 2) bs).map (c :: ·)
        else match bs with
          | [] => .error (.incomplete position)
          | c :: cs =>
            if ¬ isContinuation c then .error (.invalid 2 position)
            else if count = 2 then
              let d := Char.ofNat (a.toNat % 0x10 * 0x1000 + low6 b * 0x40 + low6 c)
              (decodeFrom (position + 3) cs).map (d :: ·)
            else match cs with
              | [] => .error (.incomplete position)
              | d :: ds =>
                if ¬ isContinuation d then .error (.invalid 3 position)
                else
                  let e := Char.ofNat
                    (a.toNat % 0x08 * 0x40000 + low6 b * 0x1000 + low6 c * 0x40 + low6 d)
                  (decodeFrom (position + 4) ds).map (e :: ·)

/-- The characters that the octets encode. -/
def decodeUtf8 (octets : List UInt8) : Except Utf8Fault (List Char) := decodeFrom 0 octets

/-- The octets of a string. -/
def encodeUtf8 (s : String) : List UInt8 := s.toList.flatMap String.utf8EncodeChar

theorem encodeUtf8_append (s t : String) : encodeUtf8 (s ++ t) = encodeUtf8 s ++ encodeUtf8 t := by
  simp [encodeUtf8]

end ChatOps.Text
