import Switchboard.Proofs.Pump

/-!
# Whom a turn wakes

A turn says whom it wakes. `Turn.Rouses` says that this is right: after the turn exactly those can
move that could before, without the one whose turn it was, and those that are woken; and nobody is
woken who could move anyhow. Every move does so (`Moves.rouses`). As long as the reader is not done,
somebody can move (`Sound.exists_canMove`).
-/

namespace Switchboard.Pump

variable {p : Pump} {who : Party} {t : Turn} {i j : Nat} {w : Worker}

/-! ## Who can move -/

/-- A turn wakes those who can go on after it and could not before. -/
structure Rouses (p : Pump) (who : Party) (t : Turn) : Prop where
  nodup : t.wakes.Nodup
  fresh : ∀ x ∈ t.wakes, x = who ∨ ¬ p.CanMove x
  next : ∀ x, t.pump.CanMove x ↔ (p.CanMove x ∧ x ≠ who) ∨ x ∈ t.wakes

/-- Who can move is a matter of the reader and the workers. -/
theorem canMove_congr {q : Pump} (hworkers : q.workers = p.workers) (hreader : q.reader = p.reader)
    (x : Party) : q.CanMove x ↔ p.CanMove x := by
  cases x with
  | reader => simp only [CanMove, isDeserted, hworkers, hreader]
  | worker j => simp only [CanMove, worker, hworkers]

/-- Among workers of which one was replaced, that one can move when it is ready. -/
theorem canMove_worker_iff {q : Pump} (hi : i < p.workers.length)
    (hworkers : q.workers = (p.setWorker i w).workers) :
    q.CanMove (.worker j) ↔ if j = i then w.state.isReady = true else p.CanMove (.worker j) := by
  obtain ⟨hself, hother⟩ := worker_of_workers_eq hi hworkers
  show (q.worker j).state.isReady = true ↔ _
  by_cases hj : j = i
  · rw [if_pos hj, hj, hself]
  · rw [if_neg hj, hother j hj]
    rfl

/-- As long as one worker is not gone, the reader can move only when it reads. -/
theorem canMove_reader_iff (hi : i < p.workers.length) (h : (p.worker i).state ≠ .gone) :
    p.CanMove .reader ↔ p.reader = .reading := by
  simp [CanMove, isDeserted_eq_false h hi]

/-- A worker that is ready is not gone. -/
theorem ne_gone_of_isReady {s : WorkerState} (h : s.isReady = true) : s ≠ .gone := by
  rintro rfl
  cases h

/-- A worker that goes on for itself wakes nobody else. -/
theorem rouses_setWorker (hold : (p.worker i).state.isReady = true) (hnew : w.state ≠ .gone)
    (hworkers : t.pump.workers = (p.setWorker i w).workers) (hreader : t.pump.reader = p.reader)
    (hwakes : t.wakes = if w.state.isReady then [.worker i] else []) :
    Rouses p (.worker i) t := by
  -- Nobody is woken but the worker itself, if it can go on.
  have hi : i < p.workers.length := lt_of_isReady hold
  refine ⟨?_, ?_, fun x => ?_⟩
  · rw [hwakes]
    split <;> simp
  · intro x hx
    rw [hwakes] at hx
    split at hx
    · exact .inl (List.mem_singleton.mp hx)
    · cases hx
  · rw [hwakes]
    cases x with
    -- The reader waits for the whole crew, from which the worker does not go.
    | reader =>
      have hnew' : ((p.setWorker i w).worker i).state ≠ .gone := by
        rwa [worker_setWorker_self hi]
      rw [canMove_congr (p := p.setWorker i w) hworkers hreader,
        canMove_reader_iff (by simpa using hi) hnew',
        canMove_reader_iff hi (ne_gone_of_isReady hold)]
      split <;> simp [setWorker]
    | worker j =>
      rw [canMove_worker_iff hi hworkers]
      by_cases hj : j = i
      · subst hj
        cases hr : w.state.isReady <;> simp
      · cases hr : w.state.isReady <;> simp [hj]

/-- A worker that waits or is gone cannot move. -/
theorem not_canMove_worker (h : (p.worker i).state.isReady = false) : ¬ p.CanMove (.worker i) := by
  show ¬ (p.worker i).state.isReady = true
  rw [h]
  exact Bool.false_ne_true

/-- Before the end no worker is gone. -/
theorem Sound.ne_gone (h : p.Sound) (hr : p.reader.isClosed = false) (hi : i < p.workers.length) :
    (p.worker i).state ≠ .gone := fun hg => (h.fits i hi).stays hr (.inr hg)

/-- The workers that wait. -/
theorem mem_parkedWorkers :
    i ∈ p.parkedWorkers ↔ i < p.workers.length ∧ (p.worker i).state = .parked := by
  simp [parkedWorkers, WorkerState.isParked_iff]

/-- Closing wakes the workers that wait. -/
theorem rouses_close (h : p.Sound) (hr : p.reader = .reading) :
    Rouses p .reader (p.close none) := by
  have hopen : p.reader.isClosed = false := by rw [hr]; rfl
  have hlen : (p.close none).pump.workers.length = p.workers.length := by simp [close]
  refine ⟨?_, fun x hx => ?_, fun x => ?_⟩
  · refine List.Nodup.map (fun _ _ he => by cases he; rfl) ?_
    exact List.nodup_range.filter _
  · obtain ⟨i, hi, rfl⟩ := List.mem_map.mp hx
    refine .inr (not_canMove_worker ?_)
    rw [(mem_parkedWorkers.mp hi).2]
    rfl
  · cases x with
    | reader =>
      -- Not all workers are gone yet, so the reader has to wait for them.
      have hlook := worker_close (p := p) h.manned
      have hstays : ((p.close none).pump.worker 0).state ≠ .gone := by
        rw [hlook]
        split
        · simp
        · exact h.ne_gone hopen h.manned
      rw [canMove_reader_iff (hlen ▸ h.manned) hstays]
      simp [close]
    | worker j =>
      by_cases hj : j < p.workers.length
      · have hlook := worker_close (p := p) hj
        show ((p.close none).pump.worker j).state.isReady = true ↔ _
        rw [hlook]
        by_cases hw : (p.worker j).state.isParked = true
        · have hin : Party.worker j ∈ (p.close none).wakes :=
            List.mem_map_of_mem (mem_parkedWorkers.mpr ⟨hj, WorkerState.isParked_iff.mp hw⟩)
          rw [if_pos hw]
          exact ⟨fun _ => .inr hin, fun _ => rfl⟩
        · have hout : Party.worker j ∉ (p.close none).wakes := by
            intro hin
            obtain ⟨k, hk, he⟩ := List.mem_map.mp hin
            cases he
            exact hw (WorkerState.isParked_iff.mpr (mem_parkedWorkers.mp hk).2)
          rw [if_neg hw]
          simp [hout, CanMove]
      · -- There is no such worker, before and after.
        have hout : Party.worker j ∉ (p.close none).wakes := by
          intro hin
          obtain ⟨k, hk, he⟩ := List.mem_map.mp hin
          cases he
          exact hj (mem_parkedWorkers.mp hk).1
        have hnone : ¬ p.CanMove (.worker j) := fun hm => hj (lt_of_isReady hm)
        have hnone' : ¬ (p.close none).pump.CanMove (.worker j) :=
          fun hm => hj (hlen ▸ lt_of_isReady hm)
        simp [hout, hnone, hnone']

/-- A worker that goes wakes the reader if it is the last one. -/
theorem rouses_depart (h : p.Sound) (hw : (p.worker i).state = .leaving) :
    Rouses p (.worker i) (p.depart i) := by
  have hready : (p.worker i).state.isReady = true := by rw [hw]; rfl
  have hi : i < p.workers.length := lt_of_isReady hready
  -- A worker leaves only when no more frames come, and its leaving is waited for.
  have hclosing : p.reader = .closing := by
    have hclosed := ((h.fits i hi).done (.inl hw)).2
    have hlast := h.reader_ne_finished hready
    cases hr : p.reader with
    | closing => rfl
    | finished => exact absurd hr hlast
    | reading => rw [hr] at hclosed; cases hclosed
    | sending j v => rw [hr] at hclosed; cases hclosed
  -- As long as it is there the reader waits.
  have hstays : p.isDeserted = false := isDeserted_eq_false (ne_gone_of_isReady hready) hi
  have hwaits : ¬ p.CanMove .reader := by simp [CanMove, hclosing, hstays]
  unfold depart
  refine ⟨?_, fun x hx => ?_, fun x => ?_⟩
  · dsimp only
    split <;> simp
  · dsimp only at hx
    split at hx
    · rw [List.mem_singleton.mp hx]
      exact .inr hwaits
    · cases hx
  · cases x with
    -- The reader can go on exactly if nobody is left, and is woken then.
    | reader =>
      have hreader : (p.setWorker i { p.worker i with state := .gone }).reader = .closing :=
        hclosing
      simp [CanMove, hreader, hclosing, hstays]
    | worker j =>
      refine Iff.trans (canMove_worker_iff (p := p) hi rfl) ?_
      by_cases hj : j = i
      · simp [hj, WorkerState.isReady]
      · simp [hj]

/-- Every move wakes those who can go on after it and could not before. -/
theorem Moves.rouses (hm : p.Moves who t) (h : p.Sound) : Rouses p who t := by
  cases hm with
  -- The parked worker has a frame now, and is woken.
  | @handOver v rest i hr hs hi hw =>
    have hi' := Shard.workerOf_lt h.manned hi
    have hwaits : ¬ p.CanMove (.worker i) := not_canMove_worker (by rw [hw]; rfl)
    refine ⟨by simp, by simp [hwaits], fun x => ?_⟩
    cases x with
    | reader => simp [CanMove, setWorker, hr]
    | worker j =>
      refine Iff.trans (canMove_worker_iff (p := p) hi' rfl) ?_
      by_cases hj : j = i
      · simp [hj, WorkerState.isReady]
      · simp [hj]
  -- A worker that is busy finds the frame in its buffer; nobody has to be woken.
  | @store v rest i hr hs hi hw hroom =>
    have hi' := Shard.workerOf_lt h.manned hi
    refine ⟨by simp, by simp, fun x => ?_⟩
    cases x with
    | reader => simp [CanMove, setWorker, hr]
    | worker j =>
      refine Iff.trans (canMove_worker_iff (p := p) hi' rfl) ?_
      by_cases hj : j = i
      · simp [hj, CanMove]
      · simp [hj]
  | block hr hs hi hw hroom =>
    refine ⟨by simp, by simp, fun x => ?_⟩
    cases x with
    | reader => simp [CanMove]
    | worker j => simp [CanMove, worker]
  | close hr hs => exact rouses_close h hr
  | finish hr hd =>
    refine ⟨by simp, by simp, fun x => ?_⟩
    cases x with
    | reader => simp [CanMove]
    | worker j => simp [CanMove, worker]
  -- The reader waited for room, and is woken.
  | @letIn i v f rest hw hr hb =>
    have hi := h.target i v hr
    have hwaits : ¬ p.CanMove .reader := by simp [CanMove, hr]
    refine ⟨by simp, by simp [hwaits], fun x => ?_⟩
    cases x with
    | reader => simp [CanMove, setWorker]
    | worker j =>
      refine Iff.trans (canMove_worker_iff (p := p) hi rfl) ?_
      by_cases hj : j = i
      · simp [hj, WorkerState.isReady]
      · simp [hj]
  | fetch hw hr hb =>
    exact rouses_setWorker (by rw [hw]; rfl) (by simp) rfl rfl rfl
  | park hw hr hb hc =>
    exact rouses_setWorker (by rw [hw]; rfl) (by simp) rfl rfl rfl
  | quit hw hr hb hc =>
    exact rouses_setWorker (by rw [hw]; rfl) (by simp) rfl rfl rfl
  | handle hw =>
    exact rouses_setWorker (by rw [hw]; rfl) (by simp) rfl rfl rfl
  | depart hw => exact rouses_depart h hw

/-- As long as the reader is not done, somebody can move. -/
theorem Sound.exists_canMove (h : p.Sound) (hr : p.reader ≠ .finished) : ∃ who, p.CanMove who := by
  cases hreader : p.reader with
  | reading => exact ⟨.reader, .inl hreader⟩
  | finished => exact absurd hreader hr
  | sending i v =>
    -- The worker for which the reader waits has something to do.
    have hi := h.target i v hreader
    obtain ⟨-, hparked, hdone, -⟩ := h.fits i hi
    refine ⟨.worker i, ?_⟩
    show (p.worker i).state.isReady = true
    rw [hreader] at hparked hdone
    cases hw : (p.worker i).state with
    | parked => simp [hw, ReaderState.waiting] at hparked
    | leaving => simp [hw, ReaderState.isClosed] at hdone
    | gone => simp [hw, ReaderState.isClosed] at hdone
    | _ => rfl
  | closing =>
    by_cases hd : p.isDeserted = true
    · exact ⟨.reader, .inr ⟨hreader, hd⟩⟩
    · -- A worker that is not gone has still to see the end.
      have hleft : ∃ i < p.workers.length, (p.worker i).state ≠ .gone := by
        by_contra hnone
        exact hd (isDeserted_iff.mpr fun i hi => by_contra fun hw => hnone ⟨i, hi, hw⟩)
      obtain ⟨i, hi, hgone⟩ := hleft
      obtain ⟨-, hparked, -, -⟩ := h.fits i hi
      refine ⟨.worker i, ?_⟩
      show (p.worker i).state.isReady = true
      rw [hreader] at hparked
      cases hw : (p.worker i).state with
      | parked => simp [hw, ReaderState.isClosed] at hparked
      | gone => exact absurd hw hgone
      | _ => rfl

end Switchboard.Pump
