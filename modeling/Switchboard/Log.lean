import Switchboard.Event
import Switchboard.Failure

/-!
# Log records

Everything that is logged for the operator, one constructor per message. The level and the wording
of a record are functions of it.
-/

namespace Switchboard

/-- How grave a record is. -/
inductive Level where
  | info
  | warning
  | error
  deriving DecidableEq

namespace Level

/-- The name of a level. -/
def tag : Level → String
  | info => "INFO"
  | warning => "WARNING"
  | error => "ERROR"

/-- The rank by which levels are compared with a threshold. -/
def rank : Level → Int
  | info => 20
  | warning => 30
  | error => 40

end Level

/-- A log record. -/
inductive LogRecord where
  /-- A packet did not decode. -/
  | packetDropped (sequence : Option Int) (cause : Failure)
  /-- A packet could not be handled for another cause. -/
  | packetFailed (type : String) (sequence : Option Int)
  /-- A frame is no packet. -/
  | frameDropped (cause : DecodeError)
  /-- No handler knows the type of a packet. -/
  | packetIgnored (type : String) (sequence : Option Int)
  /-- A handler took the place of another one. -/
  | handlerReplaced (type : String)
  /-- The connected user is known. -/
  | sessionReady (user : Snowflake) (channels : Nat)
  /-- A listener failed on an event of the named kind. -/
  | listenerFailed (listener title : String)
  /-- An observer failed. -/
  | observerFailed (observer : String)
  /-- The source of frames came to its end. -/
  | sourceExhausted (frames : Nat)
  /-- Messages are not swept. -/
  | sweeperDisabled
  /-- Messages were swept. -/
  | messagesSwept (count : Nat)
  /-- A sweep failed. -/
  | sweepFailed
  /-- A settings file was missing. -/
  | settingsMissing (path : String)
  /-- A settings file did not hold settings. -/
  | settingsMalformed (path : String)
  /-- Settings were written. -/
  | settingsSaved (path : String)
  /-- A settings file could not be read as a document. -/
  | documentInvalid (path : String)
  /-- A replay begins. -/
  | replayBegun (path : String)
  /-- A replay is done. -/
  | replayDone (frames : Nat)
  /-- A line of a capture is not JSON. -/
  | lineSkipped (line : Nat) (path : String)
  /-- An observer of a replay was told of a failure on a subject of the named kind. -/
  | pipelineFailed (kind message : String)
  /-- A listener of a replay was told of an event. -/
  | eventSeen (e : Event)
  deriving DecidableEq

namespace LogRecord

/-- The level of a record. -/
def level : LogRecord → Level
  | packetDropped .. | frameDropped .. | handlerReplaced .. | settingsMalformed ..
  | documentInvalid .. | lineSkipped .. => .warning
  | packetFailed .. | listenerFailed .. | observerFailed .. | sweepFailed
  | pipelineFailed .. => .error
  | packetIgnored .. | sessionReady .. | sourceExhausted .. | sweeperDisabled | messagesSwept ..
  | settingsMissing .. | settingsSaved .. | replayBegun .. | replayDone .. | eventSeen .. => .info

/-- A sequence number that may be missing, in messages. -/
def shownSequence : Option Int → String
  | some n => toString n
  | none => "None"

/-- The wording of a record. -/
def text : LogRecord → String
  | packetDropped seq cause =>
    "Dropping malformed packet (seq=" ++ shownSequence seq ++ "): " ++ cause.message
  | packetFailed type seq =>
    "Error handling " ++ type ++ " packet (seq=" ++ shownSequence seq ++ ")"
  | frameDropped cause => "Dropping malformed frame: " ++ cause.message
  | packetIgnored type seq =>
    "Ignoring packet of unknown type " ++ type ++ " (seq=" ++ shownSequence seq ++ ")"
  | handlerReplaced type => "Replacing handler for packet type " ++ type
  | sessionReady user channels =>
    "Session ready as user_id=" ++ toString user ++ " with " ++ toString channels ++
      " private channel(s)"
  | listenerFailed listener title => "Error in listener " ++ listener ++ " for " ++ title
  | observerFailed observer => "Error observer " ++ observer ++ " failed"
  | sourceExhausted frames => "Gateway source exhausted after " ++ toString frames ++ " frame(s)"
  | sweeperDisabled => "Message cache sweeper disabled"
  | messagesSwept count => "Evicted " ++ toString count ++ " stale message(s) from cache"
  | sweepFailed => "Error in CacheSweeper loop"
  | settingsMissing path => "Config file " ++ path ++ " not found, creating default config"
  | settingsMalformed path => "Config file " ++ path ++ " malformed, resetting to defaults"
  | settingsSaved path => "Config updated and saved to " ++ path
  | documentInvalid path => "Invalid YAML in " ++ path
  | replayBegun path => "Replaying " ++ path
  | replayDone frames => "Replayed " ++ toString frames ++ " frame(s)"
  | lineSkipped line path => "Skipping invalid JSON on line " ++ toString line ++ " of " ++ path
  | pipelineFailed kind message => "Pipeline failure on " ++ kind ++ ": " ++ message
  | eventSeen e => "Event " ++ e.kind.tag ++ ": " ++ e.shown

end LogRecord

end Switchboard
