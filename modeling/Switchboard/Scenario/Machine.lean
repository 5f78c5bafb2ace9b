import Switchboard.Scenario.Step

/-!
# The machine of a scenario

A machine runs threads in virtual time: the scenario itself, the drains of the lanes, the sweeper
and the workers of pumps. A thread is the list of instructions it has still to run; it runs until it
waits. All threads that are ready are run once in a round, and what becomes ready in a round runs in
the next one. This module holds the state and what it takes to wait and to be woken.
-/

namespace Switchboard.Scenario

/-- An error observer. -/
inductive Observer where
  | scripted (name : String) (fails : Bool) (steps : List Step)
  | logging

/-- Where the answer of a step goes. -/
inductive Sink where
  /-- Into the record of the scenario. -/
  | entry
  /-- Into the journal, as something a listener of the lane did. -/
  | note (listener : Listener) (root : Root)
  /-- It decides whether the scenario goes on. -/
  | verdict

/-- An instruction of a thread. -/
inductive Instr where
  | perform (s : Step) (sink : Sink)
  /-- Hands an answer to where it goes. -/
  | answer (a : Answer) (sink : Sink)
  | sleep (d : Duration)
  /-- Waits until nothing else can run. -/
  | lull
  /-- Waits until the lanes are idle. -/
  | settle
  /-- The turn of the reader of a pump, whose answer goes to the sink. -/
  | read (pump : Nat) (sink : Sink)
  /-- The turn of a worker of a pump. -/
  | work (pump index : Nat)
  /-- An action of a listener that was called with a signal. -/
  | act (a : Action) (listener : Listener) (signal : Signal)
  /-- The listener slept and goes on. -/
  | wake (listener : Listener) (root : Root)
  /-- A step of the drain of a lane. -/
  | drain (root : Root)
  /-- The sweeper begins. -/
  | sweeper (w : Sweeper)
  /-- A sweep, and sleep until the next one. -/
  | sweep (maxAge : Duration) (interval : Duration)
  /-- Makes an entry. -/
  | record (a : Answer)
  | log (r : LogRecord)
  | close

/-- The threads of a machine. -/
inductive ThreadId where
  | main
  | lane (root : Root)
  | sweeper
  | worker (pump index : Nat)
  deriving DecidableEq

/-- A pump, the thread that reads for it, and whether its source is paced. -/
structure Intake where
  pump : Pump
  reader : ThreadId
  paced : Bool

/-- A machine. What has happened since the last entry stands last first in `journal` and `logs`, and
so do the entries. -/
structure Machine where
  session : Session
  scripts : List (Listener × List Action) := []
  observers : List Observer := []
  /-- Registrations that were given as answers. -/
  issued : List (Nat × Registration) := []
  clock : Instant := 0
  threads : List (ThreadId × List Instr) := []
  /-- The threads that run in the next round. -/
  ready : List ThreadId := []
  /-- The threads that sleep, and until when. -/
  sleepers : List (Instant × ThreadId) := []
  /-- The threads that wait for the lanes to be idle. -/
  waiters : List ThreadId := []
  /-- The threads that wait until nothing else can run. -/
  patient : List ThreadId := []
  intakes : List Intake := []
  journal : List Remark := []
  logs : List LogRecord := []
  entries : List Entry := []
  /-- Whether an entry is made only once the lanes are idle. -/
  settles : Bool := true
  /-- Why the scenario was given up. -/
  failure : Option Failure := none

namespace Machine

/-! ## Journal and log -/

/-- Writes to the journal. -/
def remark (m : Machine) (origin : Origin) (note : Note) : Machine :=
  { m with journal := ⟨origin, m.clock, note⟩ :: m.journal }

/-- Logs records. -/
def logAll (m : Machine) (rs : List LogRecord) : Machine := { m with logs := rs.reverse ++ m.logs }

/-- Makes an entry of what has happened since the last one. -/
def record (m : Machine) (a : Answer) : Machine :=
  { m with
    entries := ⟨a, m.journal.reverse, m.logs.reverse, m.session⟩ :: m.entries
    journal := []
    logs := [] }

/-! ## Waiting and waking -/

/-- Threads run in the next round. -/
def wake (m : Machine) (ids : List ThreadId) : Machine := { m with ready := m.ready ++ ids }

/-- A new thread, which runs in the next round. -/
def spawn (m : Machine) (id : ThreadId) (code : List Instr) : Machine :=
  { m with threads := Table.put id code m.threads, ready := m.ready ++ [id] }

/-- A thread sleeps for a duration; for none it lets the others go first. -/
def sleepFor (m : Machine) (id : ThreadId) (d : Duration) : Machine :=
  if d ≤ 0 then m.wake [id] else { m with sleepers := m.sleepers ++ [(m.clock + d, id)] }

/-- The lanes have become idle: those who wait for it are woken. -/
def wakeWaiters (m : Machine) : Machine := { m.wake m.waiters with waiters := [] }

/-- The machine with a changed session; lanes that have become active get a thread. -/
def withSession (m : Machine) (s : Session) : Machine :=
  let fresh := s.lanes.active.filter fun root => !m.session.lanes.active.contains root
  fresh.foldl (fun m root => m.spawn (.lane root) [.drain root]) { m with session := s }

/-- The threads of the parties of a pump. -/
def partyThread (pump : Nat) (reader : ThreadId) : Party → ThreadId
  | .reader => reader
  | .worker i => .worker pump i

/-- The time moves on to the next instant at which a sleeper wakes; `none` if nobody sleeps. -/
def tick? (m : Machine) : Option Machine :=
  match m.sleepers.map Prod.fst with
  | [] => none
  | t :: ts =>
    let t := ts.foldl min t
    let (due, rest) := m.sleepers.partition (·.1 ≤ t)
    some { m.wake (due.map Prod.snd) with clock := t, sleepers := rest }

end Machine

end Switchboard.Scenario
