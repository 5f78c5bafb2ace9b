import Switchboard.Number.Shortest
import Switchboard.Text.Quoted
import Switchboard.Value

/-!
# Values in messages

The text of a value as messages and routing keys show it, and the word for its kind. An integer of
more than `digitLimit` digits has no text, so a value that holds one has none either: `text?`.
-/

namespace Switchboard

/-- The largest number of digits of an integer that is read from text or written as text. -/
def digitLimit : Nat := 4300

/-- An integer of at most `digitLimit` digits. -/
def isWritable (n : Int) : Bool := decide (n.natAbs < Nat.pow 10 digitLimit)

namespace Scalar

/-- The text of a scalar; a text is quoted. -/
def shown : Scalar → String
  | .null => "None"
  | .bool true => "True"
  | .bool false => "False"
  | .int n => toString n
  | .float x => DecimalLayout.plain.render x
  | .text s => quoted s

/-- Every integer in it can be written. -/
def isWritable : Scalar → Bool
  | .int n => Switchboard.isWritable n
  | _ => true

end Scalar

namespace Value

/-- The word for the kind of a value. -/
def kindName : Value → String
  | null => "NoneType"
  | bool _ => "bool"
  | int _ => "int"
  | float _ => "float"
  | text _ => "str"
  | list _ => "list"
  | map _ => "dict"

mutual

/-- The text of a value; a text is quoted. -/
def shown : Value → String
  | .scalar s => s.shown
  | .list xs => "[" ++ shownItems xs ++ "]"
  | .map es => "\x7b" ++ shownEntries es ++ "\x7d"

/-- The texts of list items, separated by commas. -/
def shownItems : List Value → String
  | [] => ""
  | [x] => shown x
  | x :: xs => shown x ++ ", " ++ shownItems xs

/-- The texts of map entries, separated by commas. -/
def shownEntries : List (Scalar × Value) → String
  | [] => ""
  | [(k, v)] => k.shown ++ ": " ++ shown v
  | (k, v) :: es => k.shown ++ ": " ++ shown v ++ ", " ++ shownEntries es

end

mutual

/-- Every integer in the value can be written. -/
def isWritable : Value → Bool
  | .scalar s => s.isWritable
  | .list xs => areWritable xs
  | .map es => entriesWritable es

/-- Every integer in the items can be written. -/
def areWritable : List Value → Bool
  | [] => true
  | x :: xs => isWritable x && areWritable xs

/-- Every integer in the entries can be written. -/
def entriesWritable : List (Scalar × Value) → Bool
  | [] => true
  | (k, v) :: es => k.isWritable && isWritable v && entriesWritable es

end

/-- The text of a value that can be written. -/
def shown? (v : Value) : Option String := if v.isWritable then some v.shown else none

/-- The text of a value as a key: a text stands for itself. -/
def keyText? : Value → Option String
  | text s => some s
  | v => v.shown?

end Value

end Switchboard
