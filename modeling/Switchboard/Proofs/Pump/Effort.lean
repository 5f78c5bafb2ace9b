import Mathlib.Algebra.GroupWithZero.Nat
import Switchboard.Proofs.Pump

/-!
# Every turn leaves less to do

`Pump.effort` counts the turns that are left at most: a frame has to be read, perhaps to wait for
room, to be taken and to be handled, and at the end every worker has to see it and go. Every move
makes the effort smaller (`Moves.effort_lt`), so no order of turns goes on for ever.
-/

namespace Switchboard

/-- The turns that a worker still needs at most, without those for the frames in its buffer. -/
def WorkerState.effort : WorkerState → Nat
  | holding _ => 4
  | asking => 3
  | parked => 2
  | leaving => 1
  | gone => 0

/-- The turns that a worker still needs at most. -/
def Worker.effort (w : Worker) : Nat := 2 * w.buffer.length + w.state.effort

/-- The turns that a reader still needs at most, without those for the frames that it has not read.
At the end it wakes every worker that waits. -/
def ReaderState.effort (workers : Nat) : ReaderState → Nat
  | sending .. => workers + 4
  | reading => workers + 2
  | closing => 1
  | finished => 0

namespace Pump

/-- The turns that are left at most. -/
def effort (p : Pump) : Nat :=
  3 * p.source.length + p.reader.effort p.workers.length + (p.workers.map Worker.effort).sum

variable {p : Pump} {who : Party} {t : Turn} {i : Nat} {w : Worker}

/-- The efforts of a list of workers after one of them is replaced. -/
theorem sum_effort_set {ws : List Worker} (hi : i < ws.length) :
    ((ws.set i w).map Worker.effort).sum + ws[i].effort =
      (ws.map Worker.effort).sum + w.effort := by
  induction ws generalizing i with
  | nil => cases hi
  | cons w' ws ih =>
    -- The worker that is replaced is the first one or one of the others.
    cases i with
    | zero =>
      simp only [List.set_cons_zero, List.map_cons, List.sum_cons, List.getElem_cons_zero]
      omega
    | succ i =>
      have hrest := ih (Nat.lt_of_succ_lt_succ hi)
      simp only [List.set_cons_succ, List.map_cons, List.sum_cons, List.getElem_cons_succ]
      omega

/-- The efforts of the workers after one of them is replaced. -/
theorem sum_effort_setWorker (hi : i < p.workers.length) (w : Worker) :
    ((p.setWorker i w).workers.map Worker.effort).sum + (p.worker i).effort =
      (p.workers.map Worker.effort).sum + w.effort := by
  rw [worker_eq_getElem hi]
  exact sum_effort_set hi

/-- A worker with less to do in the place of one leaves less to do. -/
theorem effort_setWorker_lt (hi : i < p.workers.length) (h : w.effort < (p.worker i).effort) :
    (p.setWorker i w).effort < p.effort := by
  have hsum := sum_effort_setWorker hi w
  have hlen := length_setWorker p i w
  have hreader : (p.setWorker i w).reader = p.reader := rfl
  have hsource : (p.setWorker i w).source = p.source := rfl
  rw [effort, effort, hlen, hreader, hsource]
  omega

/-- Waking the workers that wait costs one turn for each at most. -/
theorem sum_effort_close (p : Pump) :
    ((p.close none).pump.workers.map Worker.effort).sum ≤
      (p.workers.map Worker.effort).sum + p.workers.length := by
  unfold close
  induction p.workers with
  | nil => simp
  | cons w ws ih =>
    -- Waking a worker makes it ask once more.
    have hone : (if w.state.isParked then { w with state := .asking } else w).effort ≤
        w.effort + 1 := by
      split
      · rename_i hw
        simp [Worker.effort, WorkerState.effort, WorkerState.isParked_iff.mp hw]
      · exact Nat.le_succ _
    simp only [List.map_cons, List.sum_cons, List.length_cons] at ih ⊢
    omega

/-- Every move leaves less to do. -/
theorem Moves.effort_lt (hm : p.Moves who t) (h : p.Sound) : t.pump.effort < p.effort := by
  cases hm with
  | @handOver v rest i hr hs hi hw =>
    -- A frame counts three in the source, and a worker with a frame two more than one that waits.
    have hi' := Shard.workerOf_lt h.manned hi
    have hsum := sum_effort_setWorker hi' { p.worker i with state := .holding v }
    simp only [setWorker, Worker.effort, WorkerState.effort, hw] at hsum
    simp only [effort, setWorker, hs, hr, List.length_cons, List.length_set]
    omega
  | @store v rest i hr hs hi hw hroom =>
    -- A frame counts three in the source and two in a buffer.
    have hi' := Shard.workerOf_lt h.manned hi
    have hsum := sum_effort_setWorker hi'
      { p.worker i with buffer := (p.worker i).buffer ++ [v] }
    simp only [setWorker, Worker.effort, List.length_append, List.length_singleton] at hsum
    simp only [effort, setWorker, hs, hr, List.length_cons, List.length_set]
    omega
  | block hr hs hi hw hroom =>
    -- A frame counts three in the source and two for a reader that waits with it.
    simp only [effort, hs, hr, List.length_cons, ReaderState.effort]
    omega
  | close hr hs =>
    -- A reader that reads counts one for each worker that it may have to wake.
    have hsum := sum_effort_close p
    have hreader : (p.close none).pump.reader = .closing := rfl
    have hsource : (p.close none).pump.source = p.source := rfl
    simp only [effort, hsource, hreader, hr, ReaderState.effort]
    omega
  | finish hr hd =>
    simp only [effort, hr, ReaderState.effort]
    omega
  | @letIn i v f rest hw hr hb =>
    -- The reader waits no longer, and the buffer is as long as before.
    have hi := h.target i v hr
    have hsum := sum_effort_setWorker hi ⟨.holding f, rest⟩
    have hlen := congrArg List.length hb
    rw [List.length_append, List.length_singleton, List.length_cons] at hlen
    simp only [setWorker, Worker.effort, WorkerState.effort, hw] at hsum
    simp only [effort, setWorker, hr, List.length_set, ReaderState.effort]
    omega
  | @fetch i f rest hw hr hb =>
    refine effort_setWorker_lt (lt_of_isReady (by rw [hw]; rfl)) ?_
    simp [Worker.effort, WorkerState.effort, hw, hb]
    omega
  | @park i hw hr hb hc =>
    refine effort_setWorker_lt (lt_of_isReady (by rw [hw]; rfl)) ?_
    simp [Worker.effort, WorkerState.effort, hw, hb]
  | @quit i hw hr hb hc =>
    refine effort_setWorker_lt (lt_of_isReady (by rw [hw]; rfl)) ?_
    simp [Worker.effort, WorkerState.effort, hw, hb]
  | @handle i f hw =>
    have hless : Worker.effort { p.worker i with state := .asking } < (p.worker i).effort := by
      simp [Worker.effort, WorkerState.effort, hw]
    exact effort_setWorker_lt (lt_of_isReady (by rw [hw]; rfl)) hless
  | @depart i hw =>
    refine effort_setWorker_lt (lt_of_isReady (by rw [hw]; rfl)) ?_
    simp [Worker.effort, WorkerState.effort, hw]

end Pump

end Switchboard
