import Switchboard.Scenario.Perform

/-!
# Running a scenario

`exec` runs one instruction of a thread, `runThread` a thread until it waits, `round` every ready
thread once. When nothing is ready, the threads that wait for that go on, and then the time moves to
the next sleeper. `run` repeats this until the scenario itself has come to its end.
-/

namespace Switchboard.Scenario

/-- How a thread continues after an instruction. -/
inductive Flow where
  /-- It goes on at once. -/
  | go (m : Machine) (code : List Instr)
  /-- It waits; what will wake it is arranged. -/
  | wait (m : Machine) (code : List Instr)

namespace Machine

/-! ## Listeners -/

/-- The script of a listener; an unknown one does nothing. -/
def scriptOf (m : Machine) (l : Listener) : List Action := (Table.find? l m.scripts).getD []

/-- The instruction is the drain of a lane. -/
def isDrain : Instr → Bool
  | .drain _ => true
  | _ => false

/-- A listener has failed: the failure is logged and reported, and the rest of its script is
dropped, so that the drain goes on with the next listener. -/
def failCall (m : Machine) (f : Failure) (l : Listener) (s : Signal) (code : List Instr) : Flow :=
  let m := m.logAll [.listenerFailed l s.title]
  .go (tellAll m ⟨f, .signal s⟩ (some l)) (code.dropWhile (!isDrain ·))

/-- An action of a listener. -/
def act (m : Machine) (id : ThreadId) (a : Action) (l : Listener) (s : Signal)
    (code : List Instr) : Flow :=
  match a with
  | .fail message => m.failCall (.thrown message) l s code
  | .sleep d =>
    if d < 0 then m.failCall .negativeSleep l s code
    else .wait (m.sleepFor id d) (.wake l s.server? :: code)
  | .look => .go (m.remark (.lane s.server?) (.looked l s m.session.cache)) code
  | .perform step => .go m (.perform step (.note l s.server?) :: code)
  | .log =>
    match s with
    | .event e => .go (m.logAll [.eventSeen e]) code
    | .note .. => .go m code

/-- A step of the drain of a lane. -/
def drain (m : Machine) (id : ThreadId) (root : Root) (code : List Instr) : Flow :=
  match m.session.lanes.advance root with
  | none => .go m code
  | some (move, lanes) =>
    let m := { m with session := { m.session with lanes } }
    match move with
    | .call l s =>
      let script := (m.scriptOf l).map fun a => Instr.act a l s
      .go (m.remark (.lane s.server?) (.called l s)) (script ++ .drain root :: code)
    | .rest => .wait (m.wake [id]) (.drain root :: code)
    | .retire => .go (if lanes.idle then m.wakeWaiters else m) code

/-! ## Pumps -/

/-- Takes a turn of a pump: its log records, the frame to handle, and the threads to wake. -/
def takeTurn (m : Machine) (i : Nat) (intake : Intake) (t : Turn) : Machine :=
  let m := { m with intakes := m.intakes.set i { intake with pump := t.pump } }
  let m := m.logAll t.logs
  let m := match t.handles with
    | some v => (m.perform (.frame v)).1
    | none => m
  m.wake (t.wakes.map (partyThread i intake.reader))

/-- The instructions for the next turn of a reader. -/
def readCode (i : Nat) (intake : Intake) (sink : Sink) : List Instr :=
  if intake.paced then [.lull, .read i sink] else [.read i sink]

/-- The turn of a reader. When the pump is done, the number of frames is the answer. -/
def read (m : Machine) (i : Nat) (sink : Sink) (code : List Instr) : Flow :=
  match m.intakes[i]? with
  | none => .go m code
  | some intake =>
    let t := intake.pump.readerTurn
    let m := m.takeTurn i intake t
    match t.pump.reader with
    | .finished =>
      match t.pump.failure with
      | some f => .go m (.answer (.failed f) sink :: code)
      | none =>
        .go (m.logAll [.sourceExhausted t.pump.received])
          (.answer (.count t.pump.received) sink :: code)
    | .reading => .wait m (readCode i intake sink ++ code)
    | .sending .. | .closing => .wait m (.read i sink :: code)

/-- The turn of a worker. -/
def work (m : Machine) (i w : Nat) (code : List Instr) : Flow :=
  match m.intakes[i]? with
  | none => .go m code
  | some intake =>
    let t := intake.pump.workerTurn w
    let m := m.takeTurn i intake t
    if (t.pump.worker w).state.isGone then .go m code else .wait m (.work i w :: code)

/-- The number of workers and the room of their buffers that the settings ask for. -/
def pumpSize (settings : Fields) : Except Failure (Nat × Nat) := do
  let gateway ← Settings.sectionOf settings "gateway"
  let workers ← (gateway.get "workers").toInteger
  let room ← (gateway.get "queue_size").toInteger
  let workers ← Shard.workerCount? workers
  if room < 0 then throw .negativeRoom
  pure (workers, room.toNat)

/-- Starts a pump on a source. -/
def consume (m : Machine) (id : ThreadId) (source : List Feed) (paced : Bool) (sink : Sink)
    (code : List Instr) : Flow :=
  match pumpSize m.session.settings with
  | .error f => .go m (.answer (.failed f) sink :: code)
  | .ok (workers, room) =>
    let i := m.intakes.length
    let intake : Intake := ⟨.create workers room source, id, paced⟩
    let m := { m with intakes := m.intakes ++ [intake] }
    let m := (List.range workers).foldl (fun m w => m.spawn (.worker i w) [.work i w]) m
    .go m (readCode i intake sink ++ code)

/-! ## Instructions -/

/-- Hands an answer to where it goes. -/
def answer (m : Machine) (a : Answer) (sink : Sink) (code : List Instr) : Flow :=
  match sink with
  | .entry => .go m (if m.settles then .settle :: .record a :: code else .record a :: code)
  | .note l root => .go (m.remark (.lane root) (.stepped l a)) code
  | .verdict =>
    match a with
    | .failed f => .go { m with failure := some f } [.close]
    | .count n => .go (m.logAll [.replayDone n]) code
    | _ => .go m code

/-- The sweeper begins, or says that it has nothing to do. -/
def startSweeper (m : Machine) (id : ThreadId) (w : Sweeper) (code : List Instr) : Flow :=
  if w.enabled then
    match Duration.ofSeconds? w.interval with
    | .ok d => .wait (m.sleepFor id (max 1 d)) (.sweep w.maxAge (max 1 d) :: code)
    | .error _ => .wait m code
  else .go (m.logAll [.sweeperDisabled]) code

/-- A sweep of the sweeper, which goes on whether the sweep failed or not. -/
def sweepAgain (m : Machine) (id : ThreadId) (maxAge interval : Duration)
    (code : List Instr) : Flow :=
  let m := match m.sweep (.ok maxAge) none with
    | (m, .failed _) => m.logAll [.sweepFailed]
    | (m, _) => m
  .wait (m.sleepFor id interval) (.sweep maxAge interval :: code)

/-- Runs an instruction of a thread, before the rest of its code. -/
def exec (m : Machine) (id : ThreadId) (code : List Instr) : Instr → Flow
  | .perform step sink =>
    match step with
    | .consume source paced => m.consume id source paced sink code
    | .idle => .go m (.settle :: .answer .nothing sink :: code)
    | .sleep d =>
      if d < 0 then .go m (.answer (.failed .negativeSleep) sink :: code)
      else .wait (m.sleepFor id d) (.answer .nothing sink :: code)
    | step =>
      let (m, a) := m.perform step
      .go m (.answer a sink :: code)
  | .answer a sink => m.answer a sink code
  | .sleep d => .wait (m.sleepFor id d) code
  | .lull => .wait { m with patient := m.patient ++ [id] } code
  | .settle =>
    if m.session.lanes.queues.isEmpty then .go m code
    else .wait { m with waiters := m.waiters ++ [id] } (.settle :: code)
  | .read i sink => m.read i sink code
  | .work i w => m.work i w code
  | .act a l s => m.act id a l s code
  | .wake l root => .go (m.remark (.lane root) (.woke l)) code
  | .drain root => m.drain id root code
  | .sweeper w => m.startSweeper id w code
  | .sweep maxAge interval => m.sweepAgain id maxAge interval code
  | .record a => .go (m.record a) code
  | .log r => .go (m.logAll [r]) code
  | .close => .go (m.withSession m.session.close) code

/-! ## Rounds -/

/-- Runs a thread until it waits or ends, for at most `fuel` instructions; gives the fuel left. -/
def runThread (id : ThreadId) : Nat → Machine → List Instr → Nat × Machine
  | 0, m, _ => (0, m)
  | fuel + 1, m, [] => (fuel, { m with threads := Table.drop id m.threads })
  | fuel + 1, m, i :: code =>
    match m.exec id code i with
    | .go m code => runThread id fuel m code
    | .wait m code => (fuel, { m with threads := Table.put id code m.threads })

/-- Runs threads one after another. -/
def round (fuel : Nat) (m : Machine) (ids : List ThreadId) : Nat × Machine :=
  ids.foldl (fun (fuel, m) id =>
    match Table.find? id m.threads with
    | none => (fuel, m)
    | some code => runThread id fuel m code) (fuel, m)

/-- The scenario has come to its end. -/
def isDone (m : Machine) : Bool := !Table.has .main m.threads

/-- Runs the machine until the scenario has come to its end, for at most `rounds` rounds. -/
def run : Nat → Nat → Machine → Machine
  | 0, _, m => m
  | rounds + 1, fuel, m =>
    if m.isDone || fuel = 0 then m
    else
      match m.ready with
      | _ :: _ =>
        let (fuel, m') := round fuel { m with ready := [] } m.ready
        run rounds fuel m'
      | [] =>
        match m.patient with
        | _ :: _ => run rounds fuel { m.wake m.patient with patient := [] }
        | [] =>
          match m.tick? with
          | some m' => run rounds fuel m'
          | none => m

/-- The number of rounds, and of instructions, after which a scenario is given up. -/
def patience : Nat := 10000000

end Machine

end Switchboard.Scenario
