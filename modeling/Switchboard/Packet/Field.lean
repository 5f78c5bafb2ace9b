import Switchboard.Emoji
import Switchboard.Packet

/-!
# Fields of a packet

Typed reading of payload fields. A required field must be there and not null; an optional field
reads as its default when it is missing or null; every wrong kind of value is a decode error that
names the field.
-/

namespace Switchboard.Packet

/-- The decode error of a packet about one of its fields. -/
def refuse (p : Packet) (name : String) (reason : DecodeReason) : Failure :=
  .decode ⟨p.type, some name, reason⟩

/-- The value of a field, null when it is missing. -/
def field (p : Packet) (name : String) : Value := p.data.get name

/-- The value of a field that must be there. -/
def required (p : Packet) (name : String) : Except Failure Value :=
  match p.field name with
  | .null => .error (p.refuse name .missing)
  | v => .ok v

/-- An id. -/
def snowflake (p : Packet) (name : String) : Except Failure Snowflake := do
  Snowflake.decode p.type name (← p.required name)

/-- An id that may be missing. -/
def snowflake? (p : Packet) (name : String) : Except Failure (Option Snowflake) :=
  match p.field name with
  | .null => .ok none
  | v => some <$> Snowflake.decode p.type name v

/-- A text. -/
def string (p : Packet) (name : String) : Except Failure String := do
  match ← p.required name with
  | .text s => pure s
  | v => throw (p.refuse name (.notAString v.kindName))

/-- A text that may be missing. -/
def string? (p : Packet) (name : String) : Except Failure (Option String) :=
  match p.field name with
  | .null => .ok none
  | .text s => .ok (some s)
  | v => .error (p.refuse name (.notAString v.kindName))

/-- An object. -/
def object (p : Packet) (name : String) : Except Failure Fields := do
  match ← p.required name with
  | .map es => pure es
  | v => throw (p.refuse name (.notAnObject v.kindName))

/-- An array; a missing one is empty. -/
def array (p : Packet) (name : String) : Except Failure (List Value) :=
  match p.field name with
  | .null => .ok []
  | .list xs => .ok xs
  | v => .error (p.refuse name (.notAnArray v.kindName))

/-- An emoji object. -/
def emoji (p : Packet) (name : String) : Except Failure Emoji := do
  Emoji.decode p.type (← p.object name)

end Switchboard.Packet
