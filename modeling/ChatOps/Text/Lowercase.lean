/-
Full Unicode lowercase. Every character has a lowercase of its own but one: a capital sigma becomes
the final form where it ends a word, that is, where a cased letter stands before it and none after
it, the case-ignorable characters between not counting.
-/
import ChatOps.Text.LowercaseRuns
import ChatOps.Text.CaseRanges

namespace ChatOps.Text

/-- The lowercase of a character outside any word. -/
def lowerChar (c : Char) : List Char :=
  if c.toNat < 0x80 then [c.toLower]
  else if c = '\u0130' then ['i', '\u0307']
  else [Char.ofNat (lowercaseCode c.toNat)]

/-- The first character that is not case-ignorable is cased. -/
def cased? (cs : List Char) : Bool :=
  match cs.dropWhile isIgnorable with
  | [] => false
  | c :: _ => isCased c

/-- Lowercase of the rest of a text, given the characters before it, the nearest first. -/
def lowerAfter (before : List Char) : List Char → List Char
  | [] => []
  | c :: cs =>
    let lowered :=
      if c = '\u03A3' then
        if cased? before && !cased? cs then ['\u03C2'] else ['\u03C3']
      else lowerChar c
    lowered ++ lowerAfter (c :: before) cs

/-- The lowercase of a text. -/
def lower (cs : List Char) : List Char := lowerAfter [] cs

/-- The lowercase of a string. -/
def lowercase (s : String) : String := String.ofList (lower s.toList)

@[simp] theorem toList_lowercase (s : String) : (lowercase s).toList = lower s.toList :=
  String.toList_ofList

end ChatOps.Text
