import Switchboard.Cache
import Switchboard.Lanes
import Switchboard.Notice
import Switchboard.Settings
import Switchboard.Value.Number

/-!
# Sessions

A session holds the cache, the listener registrations, the lanes and the packet handlers of one
connection. It is made from settings laid over the defaults.
-/

namespace Switchboard

/-- What handles the packets of a type. -/
inductive Handler where
  /-- The session itself. -/
  | topic (t : Topic)
  /-- The embedding program, which looks at the packet and may fail. -/
  | custom (name : String) (answer : Packet → Option Failure)

/-- The handlers of a session, by packet type. -/
structure Handlers where
  table : List (String × Handler)
  /-- Whether packets of other types are logged. -/
  logUnknown : Bool

namespace Handlers

/-- The session's own handlers. -/
def standard (logUnknown : Bool) : Handlers :=
  ⟨Topic.all.map fun t => (t.tag, .topic t), logUnknown⟩

/-- No handlers. -/
def none : Handlers := ⟨[], false⟩

/-- Gives a packet type a handler; says whether it had one. -/
def assign (h : Handlers) (type : String) (handler : Handler) : Bool × Handlers :=
  (Table.has type h.table, { h with table := Table.put type handler h.table })

/-- The handler of a packet type. -/
def find? (h : Handlers) (type : String) : Option Handler := Table.find? type h.table

/-- The packet types that have handlers. -/
def types (h : Handlers) : List String := Table.keys h.table

end Handlers

/-- The state of one connection. -/
structure Session where
  /-- The settings in effect. -/
  settings : Fields
  cache : Cache
  registry : Registry := {}
  lanes : Lanes := {}
  handlers : Handlers
  /-- The connected user, once it is known. -/
  self : Option Snowflake := none

namespace Session

/-- The settings in effect when some are given; what counts as not given is no settings. -/
def effective (given : Value) : Except Failure Fields :=
  if given.isGiven then
    match given with
    | .map es => .ok (Settings.overlay Settings.defaults es)
    | _ => .error .notAMap
  else .ok Settings.defaults

/-- A session with given settings and lanes that are not served. Its handlers are the given ones, or
else the standard ones. -/
def create (given : Value) (handlers : Option Handlers) : Except Failure Session := do
  let settings ← effective given
  let cache ← Settings.sectionOf settings "cache"
  let capacity ← (cache.get "message_capacity").toInteger
  let handlers ← match handlers with
    | some h => pure h
    | none => do
      let gateway ← Settings.sectionOf settings "gateway"
      pure (.standard (gateway.get "log_unknown_packets").isGiven)
  pure { settings, cache := { capacity }, handlers }

/-- The session with its lanes served. -/
def start (s : Session) : Session := { s with lanes := { s.lanes with running := true } }

/-- Forgets all entities and all registrations. -/
def close (s : Session) : Session :=
  { s with registry := s.registry.clear, cache := s.cache.clear }

end Session

end Switchboard
