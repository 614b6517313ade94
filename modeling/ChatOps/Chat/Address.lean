/-
Addressing the bot: at the start of a message its name may stand as `<@name>` or `@name`, each with
or without a colon, or as `name:`, in any ASCII case. What is addressed to the bot is what follows,
which is nothing or begins with a blank.
-/
import ChatOps.Text.AsciiCase
import ChatOps.Text.Blank

namespace ChatOps

open Text

/-- What follows a head and its colon, if the head stands here and the address ends there. -/
def afterHead? (head : List Char) (needsColon : Bool) (cs : List Char) : Option (List Char) := do
  let rest ← dropHead? head cs
  let rest ←
    match rest with
    | ':' :: r => some r
    | _ => if needsColon then none else some rest
  if rest.head?.all isBlank then some rest else none

/-- What follows an address at the very start. -/
def afterAddress? (botName cs : List Char) : Option (List Char) :=
  afterHead? ('<' :: '@' :: botName ++ ['>']) false cs <|>
  afterHead? ('@' :: botName) false cs <|>
  afterHead? botName true cs

/-- A message without the address of the bot and the blanks before it. A message that is not
addressed to the bot stays as it is. -/
def stripMention (botName text : String) : String :=
  match afterAddress? botName.toList (trimStart text.toList) with
  | some rest => String.ofList rest
  | none => text

end ChatOps
