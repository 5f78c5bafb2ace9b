import Mathlib.Logic.Relation
import Switchboard.Session.Frame
import Switchboard.Sweep

/-!
# Everything that can be done to a session

`Change` lists the ways in which a session can be changed: what comes in, a sweep, the lanes at
work, and what the embedding program does itself. `Reaches` is any number of changes, and a session
that is reached from a new one is `Reachable`. What every change keeps is kept for ever
(`Reaches.keeps`).
-/

namespace Switchboard.Session

/-- One session becomes another. -/
inductive Change : Session → Session → Prop
  /-- The lanes are served from now on. -/
  | start (s : Session) : Change s s.start
  | frame (now : Instant) (s : Session) (v : Value) : Change s (s.acceptFrame now v).session
  | packet (now : Instant) (s : Session) (p : Packet) : Change s (s.acceptPacket now p).session
  | sweep {s s' : Session} {maxAge : Duration} {now : Instant} {n : Nat}
      (h : s.sweep maxAge now = .ok (n, s')) : Change s s'
  /-- A job is submitted. -/
  | submit {s : Session} {root : Root} {job : Job} {lanes : Lanes}
      (h : s.lanes.submit root job = .ok lanes) : Change s { s with lanes }
  /-- A drain takes a step. -/
  | advance {s : Session} {root : Root} {move : Move} {lanes : Lanes}
      (h : s.lanes.advance root = some (move, lanes)) : Change s { s with lanes }
  | attach (s : Session) (scope : Scope) (kind : EventKind) (listener : Listener) :
      Change s { s with registry := (s.registry.attach scope kind listener).2 }
  | detach (s : Session) (known : Registration) :
      Change s { s with registry := s.registry.detach known }
  | dropScope (s : Session) (scope : Scope) :
      Change s { s with registry := (s.registry.dropScope scope).2 }
  | assign (s : Session) (type : String) (handler : Handler) :
      Change s { s with handlers := (s.handlers.assign type handler).2 }
  | keepServer (s : Session) (g : Server) : Change s { s with cache := s.cache.keepServer g }
  | keepChannel (s : Session) (ch : Channel) : Change s { s with cache := s.cache.keepChannel ch }
  | keepUser (s : Session) (u : User) : Change s { s with cache := s.cache.keepUser u }
  | keepMessage (s : Session) (m : Message) :
      Change s { s with cache := (s.cache.keepMessage m).2 }
  | dropServer (s : Session) (id : Snowflake) :
      Change s { s with cache := (s.cache.dropServer id).2 }
  | dropChannel (s : Session) (id : Snowflake) :
      Change s { s with cache := (s.cache.dropChannel id).2 }
  | dropMessage (s : Session) (id : Snowflake) :
      Change s { s with cache := (s.cache.dropMessage id).2 }
  | dropUntil (s : Session) (cutoff : Instant) :
      Change s { s with cache := (s.cache.dropUntil cutoff).2 }
  | capacity (s : Session) (n : Int) : Change s { s with cache := { s.cache with capacity := n } }
  | clear (s : Session) : Change s { s with cache := s.cache.clear }
  /-- A call is made on the reactions of a cached message. -/
  | call (s : Session) (id : Snowflake) (call : ReactionCall) : Change s (s.applyCall id call).1
  /-- All registrations are forgotten. -/
  | forget (s : Session) : Change s { s with registry := s.registry.clear }
  | close (s : Session) : Change s s.close

/-- One session becomes another by any number of changes. -/
abbrev Reaches : Session → Session → Prop := Relation.ReflTransGen Change

/-- What every change keeps is kept for ever. -/
theorem Reaches.keeps {P : Session → Prop} (hP : ∀ s s', Change s s' → P s → P s') {s s' : Session}
    (h : s.Reaches s') (hs : P s) : P s' := by
  induction h with
  | refl => exact hs
  | tail _ hc ih => exact hP _ _ hc ih

/-- The session was created and then changed. -/
def Reachable (s : Session) : Prop :=
  ∃ given handlers s₀, create given handlers = .ok s₀ ∧ s₀.Reaches s

/-- Whatever is done to a session that can come about leads to another one. -/
theorem Reachable.change {s s' : Session} (h : s.Reachable) (hc : s.Change s') :
    s'.Reachable := by
  obtain ⟨given, handlers, s₀, hcreate, hr⟩ := h
  exact ⟨given, handlers, s₀, hcreate, hr.tail hc⟩

end Switchboard.Session
