import Switchboard.Event
import Switchboard.Failure
import Switchboard.Registry

/-!
# Lanes

Events are delivered in lanes: one for each server, and a global one for what belongs to no server.
A lane has a queue of jobs and a drain that works on it; a job is an event with the listeners to
call, in order. Jobs of one lane are done one after another in the order in which they were
submitted, and lanes do not wait for each other. A lane comes into being with its first job and
retires when its drain finds the queue empty.

`submit` adds a job, `advance` is one step of a drain: a step ends where the drain has to wait, so
any interleaving of lanes is a sequence of these two.
-/

namespace Switchboard

/-- A lane: that of a server, or the global one. -/
abbrev Root := Option Snowflake

/-- A signal and the listeners to call with it, in order. -/
structure Job where
  signal : Signal
  listeners : List Listener
  deriving DecidableEq

/-- How far a drain has come. -/
inductive Progress where
  /-- The next thing is to take a job. -/
  | between
  /-- Within a job, with these listeners still to call. -/
  | within (signal : Signal) (rest : List Listener)
  deriving DecidableEq

/-- The lanes of a session. -/
structure Lanes where
  /-- Whether drains can be started. -/
  running : Bool := false
  /-- The queue of every active lane, in the order in which the lanes became active. -/
  queues : List (Root × List Job) := []
  /-- The drain of every active lane. -/
  drains : List (Root × Progress) := []
  /-- The flag that those who wait for the lanes to be done look at. -/
  idle : Bool := true

/-- What a drain does in one step. -/
inductive Move where
  /-- It calls a listener. -/
  | call (listener : Listener) (signal : Signal)
  /-- A job is done, and the drain lets others go first. -/
  | rest
  /-- The queue is empty and the lane is no more. -/
  | retire
  deriving DecidableEq

namespace Lanes

/-- The active lanes, in the order in which they became active. -/
def active (l : Lanes) : List Root := Table.keys l.queues

/-- Submits a job. One without listeners is done at once. A lane that is not active becomes active
and gets a drain. -/
def submit (l : Lanes) (root : Root) (job : Job) : Except Failure Lanes :=
  if !l.running then .error .notRunning
  else if job.listeners.isEmpty then .ok l
  else
    match Table.find? root l.queues with
    | some jobs => .ok { l with queues := Table.put root (jobs ++ [job]) l.queues }
    | none => .ok
      { l with
        queues := l.queues ++ [(root, [job])]
        drains := Table.put root .between l.drains
        idle := false }

/-- The lane is no more; with the last one the lanes are idle. -/
def retire (l : Lanes) (root : Root) : Lanes :=
  let queues := Table.drop root l.queues
  { l with queues, drains := Table.drop root l.drains, idle := l.idle || queues.isEmpty }

/-- The drain goes on with listeners to call, of a job or of none. -/
def proceed (l : Lanes) (root : Root) (signal : Signal) : List Listener → Move × Lanes
  | [] => (.rest, { l with drains := Table.put root .between l.drains })
  | c :: rest =>
    (.call c signal, { l with drains := Table.put root (.within signal rest) l.drains })

/-- One step of the drain of a lane; `none` if it has no drain. -/
def advance (l : Lanes) (root : Root) : Option (Move × Lanes) :=
  match Table.find? root l.drains with
  | none => none
  | some (.within signal rest) => some (l.proceed root signal rest)
  | some .between =>
    match (Table.find? root l.queues).getD [] with
    | [] => some (.retire, l.retire root)
    | job :: jobs =>
      let l' := { l with queues := Table.put root jobs l.queues }
      some (l'.proceed root job.signal job.listeners)

end Lanes

end Switchboard
