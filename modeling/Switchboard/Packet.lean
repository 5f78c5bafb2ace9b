import Switchboard.Failure

/-!
# Packets

A frame is any value. It is a dispatch frame when it is an object whose opcode is missing or zero;
then it carries a packet: a type tag, a payload and perhaps a sequence number.
-/

namespace Switchboard

/-- A decoded dispatch frame. -/
structure Packet where
  type : String
  data : Fields
  sequence : Option Int
  deriving Inhabited

namespace Packet

/-- The opcode of a dispatch frame; `0.0` and `false` are spellings of it. -/
def isDispatch : Value → Bool
  | .scalar s => s == .int 0
  | _ => false

/-- The payload in field `d`: missing, null, zero, false and empty stand for no fields. -/
def payload (type : String) (d : Value) : Except DecodeError Fields :=
  if d.isGiven then
    match d with
    | .map es => .ok es
    | v => .error ⟨type, some "d", .notAnObject v.kindName⟩
  else .ok []

/-- The sequence number in field `s`, which may be missing. -/
def sequenceNumber (type : String) : Value → Except DecodeError (Option Int)
  | .null => .ok none
  | .int n => .ok (some n)
  | _ => .error ⟨type, some "s", .notASequence⟩

/-- The packet of an object frame that is a dispatch frame. -/
def ofFields (es : Fields) : Except DecodeError Packet :=
  match es.get "t" with
  | .text type =>
    if type.isEmpty then .error ⟨"<frame>", some "t", .noType⟩
    else do
      let data ← payload type (es.get "d")
      let sequence ← sequenceNumber type (es.get "s")
      pure ⟨type, data, sequence⟩
  | _ => .error ⟨"<frame>", some "t", .noType⟩

/-- The packet of a frame; `none` for a frame with another opcode, which is none of ours. -/
def ofFrame : Value → Except DecodeError (Option Packet)
  | .map es =>
    let op := (Table.find? (Scalar.text "op") es).getD (.int 0)
    if isDispatch op then (ofFields es).map some else .ok none
  | v => .error ⟨"<frame>", none, .notAnObject v.kindName⟩

end Packet

end Switchboard
