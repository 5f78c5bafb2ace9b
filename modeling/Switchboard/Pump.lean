import Switchboard.Log
import Switchboard.Shard

/-!
# The frame pump

A pump moves frames from a source to a number of workers. The reader hands each frame to the worker
its key asks for: directly when that worker waits for one, otherwise into the worker's buffer, and
when the buffer is full the reader waits. A worker handles its frames one at a time.

`readerTurn` and `workerTurn` are what the reader and a worker do between two waits, so any
interleaving of them is a sequence of turns; each turn says whom it wakes. A source may end in a
failure; then nothing more is delivered, and a worker handles at most the frame that it holds.
-/

namespace Switchboard

/-- What a source gives. -/
inductive Feed where
  | frame (v : Value)
  /-- Something that is skipped with a log record. -/
  | skipped (r : LogRecord)
  /-- The source fails. -/
  | failed (f : Failure)

/-- Where a worker stands. -/
inductive WorkerState where
  /-- It is about to ask for a frame. -/
  | asking
  /-- It waits for a frame or the end. -/
  | parked
  /-- It has a frame to handle. -/
  | holding (frame : Value)
  /-- It has seen the end. -/
  | leaving
  | gone

/-- A worker and the frames that wait for it. -/
structure Worker where
  state : WorkerState := .asking
  buffer : List Value := []

/-- Where the reader stands. -/
inductive ReaderState where
  /-- It is about to read. -/
  | reading
  /-- It waits until a worker has room for a frame. -/
  | sending (worker : Nat) (frame : Value)
  /-- The source is done, and the workers are still at work. -/
  | closing
  | finished

/-- One of the parties of a pump. -/
inductive Party where
  | reader
  | worker (index : Nat)
  deriving DecidableEq

/-- A pump at work. -/
structure Pump where
  /-- The number of frames that each buffer holds. -/
  room : Nat
  source : List Feed
  workers : List Worker
  reader : ReaderState := .reading
  /-- The number of frames read. -/
  received : Nat := 0
  /-- The number of frames handled. -/
  handled : Nat := 0
  /-- Why the source or the routing failed. -/
  failure : Option Failure := none

/-- What comes of a turn. -/
structure Turn where
  pump : Pump
  /-- Who can go on, in the next round. -/
  wakes : List Party := []
  /-- The frame that the session has to handle. -/
  handles : Option Value := none
  logs : List LogRecord := []

namespace WorkerState

/-- The worker waits. -/
def isParked : WorkerState → Bool
  | parked => true
  | _ => false

/-- The worker is gone. -/
def isGone : WorkerState → Bool
  | gone => true
  | _ => false

end WorkerState

namespace Pump

/-- A pump of a number of workers whose buffers hold `room` frames each. -/
def create (workers room : Nat) (source : List Feed) : Pump :=
  { room, source, workers := List.replicate workers {} }

/-- All frames are read, and no more will be sent. -/
def isClosed (p : Pump) : Bool :=
  match p.reader with
  | .closing | .finished => true
  | _ => false

/-- Every worker is gone. -/
def isDeserted (p : Pump) : Bool := p.workers.all (·.state.isGone)

/-- The worker of an index. -/
def worker (p : Pump) (i : Nat) : Worker := p.workers.getD i { state := .gone }

/-- The pump with another worker in the place of one. -/
def setWorker (p : Pump) (i : Nat) (w : Worker) : Pump := { p with workers := p.workers.set i w }

/-! ## The reader -/

/-- The indexes of the workers that wait. -/
def parkedWorkers (p : Pump) : List Nat :=
  (List.range p.workers.length).filter fun i => (p.worker i).state.isParked

/-- No more frames are sent: the workers that wait are woken to see the end. -/
def close (p : Pump) (failure : Option Failure) : Turn :=
  let wakes := p.parkedWorkers.map Party.worker
  let workers := p.workers.map fun w => if w.state.isParked then { w with state := .asking } else w
  ⟨{ p with workers, reader := .closing, failure }, wakes, none, []⟩

/-- The reader sends a frame to a worker. -/
def send (p : Pump) (i : Nat) (frame : Value) : Turn :=
  let w := p.worker i
  if w.state.isParked then
    { pump := p.setWorker i { w with state := .holding frame }, wakes := [.worker i, .reader] }
  else if w.buffer.length < p.room then
    { pump := p.setWorker i { w with buffer := w.buffer ++ [frame] }, wakes := [.reader] }
  else { pump := { p with reader := .sending i frame } }

/-- The reader reads what comes next and sends it. -/
def readNext (p : Pump) : Turn :=
  match p.source with
  | [] => p.close none
  | .failed f :: rest => close { p with source := rest } (some f)
  | .skipped r :: rest => { pump := { p with source := rest }, wakes := [.reader], logs := [r] }
  | .frame v :: rest =>
    let p := { p with source := rest, received := p.received + 1 }
    match Shard.workerOf p.workers.length v with
    | .error f => p.close (some f)
    | .ok i => p.send i v

/-- The turn of the reader. -/
def readerTurn (p : Pump) : Turn :=
  match p.reader with
  | .reading => p.readNext
  | .closing =>
    if p.isDeserted then { pump := { p with reader := .finished } } else { pump := p }
  | .sending .. | .finished => { pump := p }

/-! ## The workers -/

/-- The frame that the reader waits to send to a worker joins its buffer, and the reader goes on. -/
def letIn (p : Pump) (i : Nat) : Pump × List Party :=
  match p.reader with
  | .sending j frame =>
    if i = j then
      let w := p.worker i
      let p := p.setWorker i { w with buffer := w.buffer ++ [frame] }
      ({ p with reader := .reading }, [.reader])
    else (p, [])
  | _ => (p, [])

/-- A worker asks for a frame. -/
def ask (p : Pump) (i : Nat) : Turn :=
  if p.failure.isSome then
    { pump := p.setWorker i ⟨.leaving, []⟩, wakes := [.worker i] }
  else
    let (p, wakes) := p.letIn i
    let w := p.worker i
    match w.buffer with
    | frame :: rest =>
      { pump := p.setWorker i ⟨.holding frame, rest⟩, wakes := wakes ++ [.worker i] }
    | [] =>
      if p.isClosed then { pump := p.setWorker i ⟨.leaving, []⟩, wakes := [.worker i] }
      else { pump := p.setWorker i ⟨.parked, []⟩ }

/-- A worker is gone; after the last one the reader goes on. -/
def depart (p : Pump) (i : Nat) : Turn :=
  let p := p.setWorker i { p.worker i with state := .gone }
  { pump := p, wakes := if p.isDeserted then [.reader] else [] }

/-- The turn of a worker. -/
def workerTurn (p : Pump) (i : Nat) : Turn :=
  let w := p.worker i
  match w.state with
  | .asking => p.ask i
  | .holding frame =>
    { pump := { p.setWorker i { w with state := .asking } with handled := p.handled + 1 }
      wakes := [.worker i]
      handles := some frame }
  | .leaving => p.depart i
  | .parked | .gone => { pump := p }

end Pump

end Switchboard
