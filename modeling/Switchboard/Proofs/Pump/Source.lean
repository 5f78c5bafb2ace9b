import Switchboard.Proofs.Pump.Effort

/-!
# Pumps of any source

What comes of reading a source on its own is its `Feed.harvest`: the frames, what is logged for the
things that are skipped, and the failure at which the reading ends.

A turn that reads nothing, or that reads a frame, goes as it would in a pump that is given the
frames of the harvest (`turn_sifted_of_idle`, `turn_sifted_of_frame`). Once the source has failed, a
turn goes as it would in a pump whose source has come to its end and whose buffers are empty
(`turn_relieved`).
-/

namespace Switchboard

/-- What comes of reading a source on its own. -/
structure Harvest where
  frames : List Value := []
  logs : List LogRecord := []
  failure : Option Failure := none

/-- Reads a source up to its end or its first failure. -/
def Feed.harvest : List Feed → Harvest
  | [] => {}
  | .frame v :: rest => { harvest rest with frames := v :: (harvest rest).frames }
  | .skipped r :: rest => { harvest rest with logs := r :: (harvest rest).logs }
  | .failed f :: _ => { failure := some f }

/-- The worker without the frames that wait for it. -/
def Worker.relieved (w : Worker) : Worker := { w with buffer := [] }

namespace Pump

/-- The pump with another source. -/
def withSource (p : Pump) (source : List Feed) : Pump := { p with source }

/-- The pump once it has taken a frame from its source. -/
def taking (p : Pump) (rest : List Feed) : Pump :=
  { p with source := rest, received := p.received + 1 }

/-- The pump with a source of the frames that its own source has still to give. -/
def sifted (p : Pump) : Pump := p.withSource ((Feed.harvest p.source).frames.map .frame)

/-- The pump with nothing to read and nothing in its buffers, as if it had not failed and had read a
number of frames. -/
def relieved (p : Pump) (received : Nat) : Pump :=
  { p with source := [], workers := p.workers.map Worker.relieved, received, failure := none }

end Pump

/-- The turn of a pump with another source. -/
def Turn.withSource (t : Turn) (source : List Feed) : Turn :=
  { t with pump := t.pump.withSource source }

/-- The turn of a pump with a source of the frames that its own source has still to give. -/
def Turn.sifted (t : Turn) : Turn := { t with pump := t.pump.sifted }

/-- The turn of a pump with nothing to read and nothing in its buffers. -/
def Turn.relieved (t : Turn) (received : Nat) : Turn := { t with pump := t.pump.relieved received }

namespace Pump

variable {p : Pump} {who : Party} {i n : Nat}

/-! ## Turns that read nothing -/

/-- What a turn that reads nothing leaves as it is. -/
structure Idles (p : Pump) (t : Turn) : Prop where
  source : t.pump.source = p.source
  received : t.pump.received = p.received
  failure : t.pump.failure = p.failure
  closed : t.pump.reader.isClosed = p.reader.isClosed
  logs : t.logs = []

/-- What is let in has nothing to do with the source. -/
theorem letIn_withSource (p : Pump) (i : Nat) (source : List Feed) :
    (p.withSource source).letIn i = ((p.letIn i).1.withSource source, (p.letIn i).2) := by
  cases hr : p.reader with
  | sending j v =>
    simp only [letIn, withSource, hr]
    split <;> simp only [hr, setWorker, worker]
  | _ => simp only [letIn, withSource, hr]

/-- What a worker asks for has nothing to do with the source. -/
theorem ask_withSource (p : Pump) (i : Nat) (source : List Feed) :
    (p.withSource source).ask i = (p.ask i).withSource source := by
  have hf : (p.withSource source).failure = p.failure := rfl
  unfold ask
  rw [letIn_withSource, hf]
  split
  · rfl
  · -- What is let in is the frame that waits; what the worker does then depends on its buffer.
    obtain ⟨q, wakes⟩ := p.letIn i
    have hw : (q.withSource source).worker i = q.worker i := rfl
    have hc : (q.withSource source).isClosed = q.isClosed := rfl
    dsimp only
    rw [hw, hc]
    split
    · rfl
    · split <;> rfl

/-- What a worker does has nothing to do with the source. -/
theorem workerTurn_withSource (p : Pump) (i : Nat) (source : List Feed) :
    (p.withSource source).workerTurn i = (p.workerTurn i).withSource source := by
  have hw : (p.withSource source).worker i = p.worker i := rfl
  unfold workerTurn
  rw [hw]
  dsimp only
  cases (p.worker i).state with
  | asking => exact ask_withSource p i source
  | _ => rfl

/-- A frame is sent alike, whatever is still to be read. -/
theorem send_withSource (p : Pump) (i : Nat) (v : Value) (source : List Feed) :
    (p.withSource source).send i v = (p.send i v).withSource source := by
  have hw : (p.withSource source).worker i = p.worker i := rfl
  have hroom : (p.withSource source).room = p.room := rfl
  unfold send
  rw [hw, hroom]
  dsimp only
  split
  · rfl
  · split <;> rfl

/-- A turn that reads nothing has nothing to do with the source. -/
theorem turn_withSource (h : who = .reader → p.reader ≠ .reading) (source : List Feed) :
    (p.withSource source).turn who = (p.turn who).withSource source := by
  cases who with
  | worker i => exact workerTurn_withSource p i source
  -- Only a reader that reads looks at the source.
  | reader =>
    have hr : (p.withSource source).reader = p.reader := rfl
    have hd : (p.withSource source).isDeserted = p.isDeserted := rfl
    unfold turn readerTurn
    rw [hr, hd]
    cases hreader : p.reader with
    | reading => exact absurd hreader (h rfl)
    | closing =>
      dsimp only
      split <;> rfl
    | _ => rfl

/-- Letting in a frame reads nothing. -/
theorem idles_letIn (p : Pump) (i : Nat) : p.Idles { pump := (p.letIn i).1 } := by
  unfold letIn
  split
  · rename_i j v hr
    split
    · exact ⟨rfl, rfl, rfl, by rw [hr]; rfl, rfl⟩
    · exact ⟨rfl, rfl, rfl, rfl, rfl⟩
  · exact ⟨rfl, rfl, rfl, rfl, rfl⟩

/-- A worker that asks reads nothing. -/
theorem idles_ask (p : Pump) (i : Nat) : p.Idles (p.ask i) := by
  obtain ⟨hsource, hreceived, hfailure, hclosed, -⟩ := idles_letIn p i
  unfold ask
  split
  · exact ⟨rfl, rfl, rfl, rfl, rfl⟩
  · dsimp only
    split
    · exact ⟨hsource, hreceived, hfailure, hclosed, rfl⟩
    · split
      · exact ⟨hsource, hreceived, hfailure, hclosed, rfl⟩
      · exact ⟨hsource, hreceived, hfailure, hclosed, rfl⟩

/-- A turn reads nothing unless it is that of a reader that reads. -/
theorem idles_turn (h : who = .reader → p.reader ≠ .reading) : p.Idles (p.turn who) := by
  cases who with
  | worker i =>
    unfold turn workerTurn
    dsimp only
    split
    · exact idles_ask p i
    -- A worker in any other state changes its own place only.
    all_goals exact ⟨rfl, rfl, rfl, rfl, rfl⟩
  | reader =>
    unfold turn readerTurn
    cases hreader : p.reader with
    | reading => exact absurd hreader (h rfl)
    -- A reader that closes ends when the crew is gone, and waits for it otherwise.
    | closing =>
      dsimp only
      split
      · exact ⟨rfl, rfl, rfl, by rw [hreader]; rfl, rfl⟩
      · exact ⟨rfl, rfl, rfl, rfl, rfl⟩
    | _ => exact ⟨rfl, rfl, rfl, rfl, rfl⟩

/-- Sending a frame reads nothing more, logs nothing and does not close. -/
theorem sends (p : Pump) (i : Nat) (v : Value) :
    (p.send i v).pump.source = p.source ∧ (p.send i v).logs = [] ∧
      ((p.send i v).pump.reader.isClosed = true → p.reader.isClosed = true) := by
  unfold send
  dsimp only
  split
  · exact ⟨rfl, rfl, id⟩
  · split
    · exact ⟨rfl, rfl, id⟩
    · exact ⟨rfl, rfl, fun hc => nomatch hc⟩

/-- A reader that reads takes what comes next. -/
theorem turn_of_reading (hr : p.reader = .reading) : p.turn .reader = p.readNext := by
  unfold turn readerTurn
  rw [hr]

/-- A reader sends the frame that it reads to the worker that the key asks for. -/
theorem turn_of_frame {v : Value} {rest : List Feed} (hr : p.reader = .reading)
    (hs : p.source = .frame v :: rest) (hv : Shard.workerOf p.workers.length v = .ok i) :
    p.turn .reader = (p.taking rest).send i v := by
  rw [turn_of_reading hr, readNext, hs]
  dsimp only
  rw [hv]
  rfl

/-- A reader logs that it skips something and goes on. -/
theorem turn_of_skipped {r : LogRecord} {rest : List Feed} (hr : p.reader = .reading)
    (hs : p.source = .skipped r :: rest) :
    p.turn .reader = { pump := p.withSource rest, wakes := [.reader], logs := [r] } := by
  rw [turn_of_reading hr, readNext, hs]
  rfl

/-- A reader closes where its source fails. -/
theorem turn_of_failed {f : Failure} {rest : List Feed} (hr : p.reader = .reading)
    (hs : p.source = .failed f :: rest) :
    p.turn .reader = (p.withSource rest).close (some f) := by
  rw [turn_of_reading hr, readNext, hs]
  rfl

/-- A reader closes at the end of its source. -/
theorem turn_of_nil (hr : p.reader = .reading) (hs : p.source = []) :
    p.turn .reader = p.close none := by
  rw [turn_of_reading hr, readNext, hs]

/-- A turn that reads nothing goes as it would if nothing were skipped. -/
theorem turn_sifted_of_idle (h : who = .reader → p.reader ≠ .reading) :
    p.sifted.turn who = (p.turn who).sifted := by
  have hsource : (p.turn who).pump.source = p.source := (idles_turn h).source
  rw [sifted, turn_withSource h, Turn.withSource, Turn.sifted, sifted, hsource]

/-- A turn that reads a frame goes as it would if nothing were skipped. -/
theorem turn_sifted_of_frame {v : Value} {rest : List Feed} (hr : p.reader = .reading)
    (hs : p.source = .frame v :: rest) (hv : Shard.workerOf p.workers.length v = .ok i) :
    p.sifted.turn .reader = (p.turn .reader).sifted := by
  have hsource : p.sifted.source = .frame v :: (Feed.harvest rest).frames.map .frame := by
    rw [sifted, hs]
    rfl
  -- The rest of the source is untouched by sending the frame, so it can be harvested before or
  -- after.
  have hrest : ((p.taking rest).send i v).pump.source = rest := (sends _ i v).1
  calc p.sifted.turn .reader
      = ((p.taking rest).withSource ((Feed.harvest rest).frames.map .frame)).send i v :=
        turn_of_frame (p := p.sifted) hr hsource hv
    _ = ((p.taking rest).send i v).withSource ((Feed.harvest rest).frames.map .frame) :=
        send_withSource (p.taking rest) i v _
    _ = ((p.taking rest).send i v).sifted := by
        rw [Turn.sifted, sifted, hrest]
        rfl
    _ = (p.turn .reader).sifted := by rw [turn_of_frame hr hs hv]

/-- Nothing is skipped where nothing is left. -/
theorem sifted_of_nil (hs : p.source = []) : p.sifted = p := by
  cases p
  cases hs
  rfl

/-- The turns that are left with another source. -/
theorem effort_withSource (p : Pump) (source : List Feed) :
    (p.withSource source).effort + 3 * p.source.length = p.effort + 3 * source.length := by
  simp only [effort, withSource]
  omega

/-! ## Pumps without frames in their buffers -/

/-- The workers stay where they are. -/
theorem worker_relieved : (p.relieved n).worker i = (p.worker i).relieved := by
  rw [worker, worker, List.getD_eq_getElem?_getD, List.getD_eq_getElem?_getD, relieved,
    List.getElem?_map]
  cases p.workers[i]? <;> rfl

/-- A worker that takes the place of another one. -/
theorem setWorker_relieved (p : Pump) (i n : Nat) (w : Worker) :
    (p.setWorker i w).relieved n = (p.relieved n).setWorker i w.relieved := by
  simp only [relieved, setWorker, List.map_set]

/-- There are as many workers. -/
theorem length_relieved : (p.relieved n).workers.length = p.workers.length :=
  List.length_map _

/-- Whether all workers are gone has nothing to do with the buffers. -/
theorem isDeserted_relieved : (p.relieved n).isDeserted = p.isDeserted := List.all_map

/-- Who can move has nothing to do with the buffers. -/
theorem canMove_relieved : (p.relieved n).CanMove who ↔ p.CanMove who := by
  cases who with
  | reader =>
    simp only [CanMove, isDeserted_relieved]
    exact Iff.rfl
  | worker i =>
    simp only [CanMove, worker_relieved]
    exact Iff.rfl

/-- Nothing waits for a worker once the reader is closed. -/
theorem waiting_of_isClosed {r : ReaderState} (h : r.isClosed = true) (i : Nat) :
    r.waiting i = [] := by
  cases r with
  | closing => rfl
  | finished => rfl
  | reading => cases h
  | sending j v => cases h

/-- After a failure the buffers are dropped, so a turn goes as it would without them. -/
theorem turn_relieved (hf : p.failure.isSome = true) (hc : p.reader.isClosed = true) (n : Nat)
    (who : Party) : (p.relieved n).turn who = (p.turn who).relieved n := by
  cases who with
  | reader =>
    unfold turn readerTurn
    have hr : (p.relieved n).reader = p.reader := rfl
    rw [hr, isDeserted_relieved]
    cases hreader : p.reader with
    | reading => rw [hreader] at hc; cases hc
    | closing =>
      dsimp only
      split <;> rfl
    | _ => rfl
  | worker i =>
    have hw : (p.relieved n).worker i = (p.worker i).relieved := worker_relieved
    have hset (s : WorkerState) (buffer : List Value) :
        (p.relieved n).setWorker i ⟨s, []⟩ = (p.setWorker i ⟨s, buffer⟩).relieved n :=
      (setWorker_relieved p i n ⟨s, buffer⟩).symm
    unfold turn workerTurn
    dsimp only
    rw [hw]
    dsimp only [Worker.relieved]
    cases (p.worker i).state with
    | asking =>
      -- A worker that asks leaves: here because of the failure, there because the end is reached.
      have hwaiting : (p.relieved n).reader.waiting i = [] := waiting_of_isClosed hc i
      have hclosed : (p.relieved n).isClosed = true := (isClosed_eq _).trans hc
      unfold ask
      rw [if_pos hf, if_neg (by simp [relieved]), letIn_of_waiting_eq_nil hwaiting]
      dsimp only
      rw [hw]
      dsimp only [Worker.relieved]
      rw [if_pos hclosed, hset .leaving []]
      rfl
    | holding f =>
      dsimp only
      rw [hset .asking (p.worker i).buffer]
      rfl
    | leaving =>
      unfold depart
      rw [hw]
      dsimp only [Worker.relieved]
      rw [hset .gone (p.worker i).buffer, isDeserted_relieved]
      rfl
    | _ => rfl

/-- After a failure every turn leaves less to do. -/
theorem effort_turn_lt (hf : p.failure.isSome = true) (hc : p.reader.isClosed = true)
    (hm : p.CanMove who) : (p.turn who).pump.effort < p.effort := by
  cases who with
  | reader =>
    -- A closed reader has to wait for the crew, and is done then.
    rcases hm with hr | ⟨hr, hd⟩
    · rw [hr] at hc
      cases hc
    · unfold turn readerTurn
      rw [hr]
      dsimp only
      rw [if_pos hd]
      simp [effort, hr, ReaderState.effort]
  | worker i =>
    -- A worker has less to do in each of its states; after a failure it asks for nothing more.
    have hi : i < p.workers.length := lt_of_isReady hm
    have hm : (p.worker i).state.isReady = true := hm
    unfold turn workerTurn
    dsimp only
    cases hw : (p.worker i).state with
    | asking =>
      dsimp only
      rw [ask, if_pos hf]
      exact effort_setWorker_lt hi (by simp [Worker.effort, hw, WorkerState.effort])
    | holding f =>
      exact effort_setWorker_lt hi (by simp [Worker.effort, hw, WorkerState.effort])
    | leaving =>
      exact effort_setWorker_lt hi (by simp [Worker.effort, hw, WorkerState.effort])
    -- Workers that are parked or gone cannot move.
    | parked => rw [hw] at hm; cases hm
    | gone => rw [hw] at hm; cases hm

end Pump

end Switchboard
