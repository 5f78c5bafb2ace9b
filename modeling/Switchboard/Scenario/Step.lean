import Switchboard.Pump
import Switchboard.Session.Frame
import Switchboard.Sweep

/-!
# Scenario steps

A scenario drives a session from outside: its steps feed frames, attach listeners, look things up
and let time pass. Listeners and observers are scripted: a listener's script is a list of actions,
an observer's a list of steps. Every step has an answer.
-/

namespace Switchboard.Scenario

/-- An entity to put into the cache. A message without an instant enters now. -/
inductive Item where
  | server (s : Server)
  | channel (ch : Channel)
  | user (u : User)
  | message (m : Message) (enteredAt : Option Instant)

/-- A question to the cache. -/
inductive Query where
  | server (id : Snowflake)
  | channel (id : Snowflake)
  | user (id : Snowflake)
  | message (id : Snowflake)
  | channelsOf (server : Snowflake)
  | messagesOf (channel : Snowflake)

/-- An entity to drop from the cache. -/
inductive Removal where
  | server (id : Snowflake)
  | channel (id : Snowflake)
  | message (id : Snowflake)

/-- A step of a scenario. -/
inductive Step where
  | frame (v : Value)
  | packet (p : Packet)
  /-- Pumps a source through the workers of the session. In a paced source each item comes only
  when everything else waits. -/
  | consume (source : List Feed) (paced : Bool)
  /-- Waits until the lanes are idle. -/
  | idle
  | sleep (d : Duration)
  | listen (kind : EventKind) (listener : Listener) (scope : Scope)
  | unlisten (id : Int)
  /-- Adds an observer that is told of failures, performs steps and then perhaps fails. -/
  | observe (name : String) (fails : Bool) (steps : List Step)
  /-- Adds an observer that logs failures. -/
  | observeLogging
  | handle (type name : String) (answer : Packet → Option Failure)
  | packetTypes (asked : List String)
  /-- Submits a note to a lane. -/
  | dispatch (root : Root) (listeners : List Listener) (name : String)
  | status
  | sweep (maxAge : Except Failure Duration) (now : Option Instant)
  | sweeper (w : Except Failure Sweeper)
  | lookup (q : Query)
  | put (i : Item)
  | remove (r : Removal)
  | evict (maxAge : Except Failure Duration) (now : Option Instant)
  | capacity (n : Int)
  | clear
  | listenersAt (scope : Scope) (kind : EventKind)
  | registrationsAt (scope : Scope)
  | dropScope (scope : Scope)
  | settings
  | close

/-- What a scripted listener does after it was called. -/
inductive Action where
  /-- It fails. -/
  | fail (message : String)
  | sleep (d : Duration)
  /-- It looks up what its event names. -/
  | look
  | perform (s : Step)
  /-- It logs its event. -/
  | log

/-- The answer of a step. -/
inductive Answer where
  | nothing
  | flag (b : Bool)
  | count (n : Nat)
  | registration (r : Registration)
  | registrations (rs : List Registration)
  /-- No registration with this id was ever given. -/
  | unknownHandle
  | types (tags : List String) (known : List Bool)
  | status (running : Bool) (active : List Root)
  | sweeper (enabled : Bool) (maxAge : Duration)
  | server (s : Option Server)
  | channel (c : Option Channel)
  | user (u : Option User)
  | message (m : Option Message)
  | channels (cs : List Channel)
  | messages (ms : List Message)
  | ids (ids : List Snowflake)
  | names (ls : List Listener)
  | settings (s : Fields)
  | failed (f : Failure)
  /-- The session is closed. -/
  | closed

/-- The answer of an attempt. -/
def Answer.ofExcept (answer : α → Answer) : Except Failure α → Answer
  | .ok a => answer a
  | .error f => .failed f

/-- Something that a scripted listener, handler or observer left in the journal. -/
inductive Note where
  | called (listener : Listener) (signal : Signal)
  /-- The listener slept and goes on. -/
  | woke (listener : Listener)
  /-- What the listener found in the cache; a note names nothing to look for. -/
  | looked (listener : Listener) (signal : Signal) (cache : Cache)
  | stepped (listener : Listener) (answer : Answer)
  | handled (handler : String) (packet : Packet)
  | observed (observer : String) (refusal : Refusal) (listener : Option Listener)

/-- Whom a note is filed under: a packet, or a lane. -/
inductive Origin where
  | packet
  | lane (root : Root)
  deriving DecidableEq

/-- A journal entry. -/
structure Remark where
  origin : Origin
  time : Instant
  note : Note

/-- The record of a step: its answer, what happened since the step before, and the session after
it. -/
structure Entry where
  answer : Answer
  journal : List Remark
  logs : List LogRecord
  session : Session

end Switchboard.Scenario
