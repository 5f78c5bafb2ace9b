import Switchboard.Failure
import Switchboard.Text.Octets

/-!
# Libraries for YAML

Settings are kept in YAML documents. Whoever keeps them leaves reading and writing to a `Library`
and works with any; what is relied on of one is stated where it is, such as that a value is read as
it was written (`RoundTrips`).

A library hands over values as far as settings are looked at. What YAML has besides scalars, lists
and maps stands as a text or a list, an empty one if it counts as not given: a date, octets, a set,
entries in order. Such a value is no map, no number and not null, and nothing else is asked of it. A
key of such a kind stands as a text that no other key of its map is. A list or a map that holds
itself is unrolled as far as settings are looked at, which is two levels deep. No two values stand
as one (texts that others stand as are themselves spelled differently), so what is written of a
value can be told from what it stands as.
-/

namespace Switchboard.Yaml

/-- Why there is no value. -/
inductive Problem where
  /-- The text is no document. -/
  | malformed
  /-- A scalar of the document stands for nothing, or the text cannot be read any further. -/
  | failed (f : Failure)
  deriving DecidableEq

/-- A library that reads and writes documents. -/
class Library where
  /-- The value of the document in a text whose line ends are `\n`, null if there is none in it. -/
  parse : List Char → Except Problem Value
  /-- Why octets that are no text have no value. A file is read piece by piece, so a fault in the
  text before them may come up first. -/
  stumble : List UInt8 → Problem
  /-- What is written of a value, and why not all of it, if so. -/
  dump : Value → String × Option Failure

section

variable [Library]

/-- The value of the document in the octets of a file, which may have any line ends. -/
def documentIn (octets : List UInt8) : Except Problem Value :=
  match Octets.decode? octets with
  | some cs => Library.parse (unifyBreaks cs)
  | none => .error (Library.stumble octets)

/-- A value is read from a file as it was written there, if it was. -/
def RoundTrips (v : Value) : Prop :=
  ∀ text, Library.dump v = (text, none) → Library.parse (unifyBreaks text.toList) = .ok v

end

end Switchboard.Yaml
