import Switchboard.Failure
import Switchboard.Text.Character

/-!
# Snowflakes

The ids of servers, channels, messages, users and custom emojis. A payload spells an id as an
integer or as a text of ASCII digits; both spellings decode to the same integer.
-/

namespace Switchboard

/-- The id of an entity. -/
abbrev Snowflake := Int

namespace Snowflake

/-- The values of the characters, if all of them are ASCII digits and there is one. -/
def digits? (cs : List Char) : Option (List Nat) :=
  if cs.isEmpty then none else cs.mapM asciiDigit?

/-- Reads the digits of a text; more than `digitLimit` of them are refused. -/
def ofDigits? (ds : List Nat) : Except Failure Snowflake :=
  if digitLimit < ds.length then .error (.tooManyDigits ds.length) else .ok (ofDigits 0 ds)

/-- The error for a value that is no id. -/
def refuse (packetType field : String) (v : Value) : Failure :=
  match v.shown? with
  | some shown => .decode ⟨packetType, some field, .notASnowflake shown⟩
  | none => .tooLongToWrite

/-- Decodes an id sent as an integer or as a text of digits. A truth value is no id. -/
def decode (packetType field : String) : Value → Except Failure Snowflake
  | .bool _ => .error (.decode ⟨packetType, some field, .notASnowflake "bool"⟩)
  | .int n => .ok n
  | .text s =>
    match digits? s.toList with
    | some ds => ofDigits? ds
    | none => .error (refuse packetType field (.text s))
  | v => .error (refuse packetType field v)

end Snowflake

end Switchboard
