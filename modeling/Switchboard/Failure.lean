import Switchboard.Text.Quoted
import Switchboard.Value.Text

/-!
# Failures

Why a packet cannot be decoded, and every other cause for which an operation can fail. Each cause is
a constructor; its wording is in `message`.
-/

namespace Switchboard

/-- Why a field does not decode. -/
inductive DecodeReason where
  /-- The frame is no object. -/
  | notAnObject (got : String)
  /-- The packet type is missing, empty or no text. -/
  | noType
  /-- A required field is missing or null. -/
  | missing
  /-- The sequence number is no integer. -/
  | notASequence
  /-- A field that must be a text is another kind of value. -/
  | notAString (got : String)
  /-- A name that must be a text is not. -/
  | notAName
  /-- A field that must be an array is another kind of value. -/
  | notAnArray (got : String)
  /-- The user list of a reaction is no array. -/
  | notAUserList
  /-- An entry of an array is no object. -/
  | notObjects
  /-- A reaction has no emoji object. -/
  | noEmoji
  /-- An emoji has neither id nor name. -/
  | noIdentity
  /-- An id is neither an integer nor decimal digits; `shown` is its text. -/
  | notASnowflake (shown : String)
  deriving DecidableEq

/-- The wording of a reason. -/
def DecodeReason.message : DecodeReason → String
  | .notAnObject got => "expected object, got " ++ got
  | .noType => "missing packet type"
  | .missing => "missing required field"
  | .notASequence => "expected integer sequence"
  | .notAString got => "expected string, got " ++ got
  | .notAName => "expected string"
  | .notAnArray got => "expected array, got " ++ got
  | .notAUserList => "expected array"
  | .notObjects => "expected array of objects"
  | .noEmoji => "missing emoji object"
  | .noIdentity => "emoji has neither id nor name"
  | .notASnowflake shown => "expected snowflake, got " ++ shown

/-- A packet that does not decode: its type tag, the field if known, and the reason. -/
structure DecodeError where
  packetType : String
  field : Option String
  reason : DecodeReason
  deriving DecidableEq

/-- The wording of a decode error. A field without a name is not mentioned. -/
def DecodeError.message (e : DecodeError) : String :=
  let place := match e.field with
    | some f => if f.isEmpty then "" else " field " ++ quoted f
    | none => ""
  "Cannot decode " ++ e.packetType ++ " packet:" ++ place ++ " " ++ e.reason.message

/-- Why an operation failed. -/
inductive Failure where
  /-- A packet does not decode. -/
  | decode (e : DecodeError)
  /-- A listener, handler or observer gave up with a message. -/
  | thrown (message : String)
  /-- An event was submitted while no lane is served. -/
  | notRunning
  /-- A pump was asked for without workers. -/
  | noWorkers
  /-- A pump was asked for with buffers of less than no room. -/
  | negativeRoom
  /-- A text of more than `digitLimit` digits was read as an integer. -/
  | tooManyDigits (count : Nat)
  /-- An integer of more than `digitLimit` digits was written as text. -/
  | tooLongToWrite
  /-- A text or number cannot be read as the number that is needed. -/
  | notANumber
  /-- A value of the wrong kind stands where a number or a map is needed. -/
  | wrongKind
  /-- A value that must have entries or methods of a map is no map. -/
  | notAMap
  /-- Somebody was to sleep for less than no time. -/
  | negativeSleep
  /-- A number, duration or instant is out of range. -/
  | outOfRange
  /-- A logging level has no such name. -/
  | unknownLevel
  /-- The octets of a file are not well formed. -/
  | notWellFormed
  /-- A directory stands where a file is needed. -/
  | isADirectory
  /-- There is no such file. -/
  | noSuchFile
  deriving DecidableEq

/-- The wording of a failure, empty where it is left to the operating system or the number reader.
-/
def Failure.message : Failure → String
  | .decode e => e.message
  | .thrown m => m
  | .notRunning => "Dispatcher is not running"
  | .noWorkers => "workers must be at least 1"
  | .tooManyDigits n =>
    "Exceeds the limit (" ++ toString digitLimit ++
      " digits) for integer string conversion: value has " ++ toString n ++
      " digits; use sys.set_int_max_str_digits() to increase the limit"
  | .tooLongToWrite =>
    "Exceeds the limit (" ++ toString digitLimit ++ " digits) for integer string conversion; " ++
      "use sys.set_int_max_str_digits() to increase the limit"
  | _ => ""

end Switchboard
