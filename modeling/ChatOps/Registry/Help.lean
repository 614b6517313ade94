/-
The help: a line for each command of a registry, its usage and its description. The descriptions
start at one column, two places right of where the longest usage would end if each of its octets
took one place.
-/
import ChatOps.Registry.Basic

namespace ChatOps

/-- A text with blanks after it up to `width` characters. -/
def padRight (width : Nat) (s : String) : String :=
  String.ofList (s.toList ++ List.replicate (width - s.toList.length) ' ')

namespace Registry

/-- The octets of the longest usage. -/
def usageWidth (r : Registry) : Nat :=
  (r.toList.map fun c => c.usage.utf8ByteSize).foldl max 0

/-- The help, in order of the commands. -/
def helpLines (r : Registry) : List String :=
  r.toList.map fun c => padRight r.usageWidth c.usage ++ "  " ++ c.description

end Registry

end ChatOps
