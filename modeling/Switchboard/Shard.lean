import Switchboard.Failure
import Switchboard.Text.Octets

/-!
# Sharding

Which worker handles a frame. The key of a frame is the id it names, first of a server and then of a
channel; frames with one key share a worker, and frames without key all go to worker 0. The worker
for a key is chosen by the CRC-32 of its octets, the cyclic redundancy check with polynomial
`0xEDB88320` in reflected form, all ones before and inverted after.
-/

namespace Switchboard.Checksum

/-- Shifts one bit out of the remainder. -/
def bitStep (r : UInt32) : UInt32 := if r &&& 1 = 1 then (r >>> 1) ^^^ 0xEDB88320 else r >>> 1

/-- Takes one octet into the remainder. -/
def octetStep (r : UInt32) (b : UInt8) : UInt32 := Nat.repeat bitStep 8 (r ^^^ b.toUInt32)

/-- The checksum of octets. -/
def crc32 (bs : List UInt8) : UInt32 := bs.foldl octetStep 0xFFFFFFFF ^^^ 0xFFFFFFFF

end Switchboard.Checksum

namespace Switchboard.Shard

/-- The value that names the server or the channel of a payload of the given type. -/
def keyValue? (type : String) (data : Fields) : Option Value :=
  if !(data.get "guild_id").isNull then some (data.get "guild_id")
  else if type.startsWith "GUILD_" && !(data.get "id").isNull then some (data.get "id")
  else if !(data.get "channel_id").isNull then some (data.get "channel_id")
  else if type.startsWith "CHANNEL_" && !(data.get "id").isNull then some (data.get "id")
  else none

/-- The type tag as far as the key goes by it: a missing, empty or zero one reads as empty, another
value that is no text has no key. -/
def keyType? (t : Value) : Option String :=
  match t with
  | .text s => some s
  | t => if t.isGiven then none else some ""

/-- The key of an object frame. -/
def key (frame : Fields) : Except Failure (Option String) :=
  match frame.get "d" with
  | .map data =>
    match (keyType? (frame.get "t")).bind (keyValue? · data) with
    | none => .ok none
    | some v =>
      match v.keyText? with
      | some s => .ok (some s)
      | none => .error .tooLongToWrite
  | _ => .ok none

/-- The key of any frame. -/
def keyOf (frame : Value) : Except Failure (Option String) :=
  match frame with
  | .map es => key es
  | _ => .ok none

/-- The worker for a key, of a number of workers. -/
def workerFor (workers : Nat) : Option String → Nat
  | none => 0
  | some k => (Checksum.crc32 (Octets.encode k.toList)).toNat % workers

/-- The worker for a frame, of a number of workers. -/
def workerOf (workers : Nat) (frame : Value) : Except Failure Nat :=
  (keyOf frame).map (workerFor workers)

/-- A number of workers is at least one. -/
def workerCount? (n : Int) : Except Failure Nat := if n < 1 then .error .noWorkers else .ok n.toNat

end Switchboard.Shard
