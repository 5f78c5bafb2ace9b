import Switchboard.Proofs.Pump

/-!
# The way of the frames

`Pump.path` lists the frames on their way to a worker. `Turn.Carries` says what a turn does to them:
a frame that is read joins the path of the worker that its key asks for, at the end, and a frame
that is handled leaves the path of the worker that handles it, from the front. Every move carries
frames in this way and no other (`Moves.carries`).
-/

namespace Switchboard

/-- The key of a frame asks for a worker. -/
def Shard.goesTo (workers i : Nat) (frame : Value) : Bool :=
  match workerOf workers frame with
  | .ok j => j == i
  | .error _ => false

/-- A frame goes to a worker when it is the one that its key asks for. -/
theorem Shard.goesTo_iff {workers i : Nat} {frame : Value} :
    goesTo workers i frame = true ↔ workerOf workers frame = .ok i := by
  unfold goesTo
  split
  · rename_i j hj
    rw [hj, beq_iff_eq, Except.ok.injEq]
  · rename_i f hf
    rw [hf]
    simp

/-- The frame goes to the worker that its key asks for. -/
theorem Shard.goesTo_eq {workers i j : Nat} {frame : Value}
    (h : workerOf workers frame = .ok i) : goesTo workers j frame = decide (i = j) := by
  unfold goesTo
  rw [h]
  rfl

/-- Frames that were handled, each with the worker that did it: those of one worker, in order. -/
def handledBy (handled : List (Nat × Value)) (i : Nat) : List Value :=
  (handled.filter (·.1 == i)).map Prod.snd

/-- What a worker has handled grows with what all have handled. -/
@[simp] theorem handledBy_append (handled more : List (Nat × Value)) (i : Nat) :
    handledBy (handled ++ more) i = handledBy handled i ++ handledBy more i := by
  simp [handledBy]

/-- The frame that a party handles in its turn, with the party. -/
def Turn.entries (t : Turn) : Party → List (Nat × Value)
  | .reader => []
  | .worker i => t.handles.toList.map (i, ·)

namespace Pump

variable {p : Pump} {who : Party} {t : Turn} {i : Nat} {w : Worker}

/-- What a turn does to the frames: some are read and go to the ends of the paths, and some are
handled and come from the fronts. -/
structure Carries (p : Pump) (who : Party) (t : Turn) (read : List Value) : Prop where
  source : p.source = read.map .frame ++ t.pump.source
  received : t.pump.received = p.received + read.length
  handled : t.pump.handled = p.handled + (t.entries who).length
  crew : t.pump.workers.length = p.workers.length
  room : t.pump.room = p.room
  range : ∀ e ∈ t.entries who, e.1 < p.workers.length
  path : ∀ j < p.workers.length,
    p.path j ++ read.filter (Shard.goesTo p.workers.length j) =
      handledBy (t.entries who) j ++ t.pump.path j

/-- What a worker handles is handled by it and by no other. -/
theorem handledBy_entries (t : Turn) (i j : Nat) :
    handledBy (t.entries (.worker i)) j = if j = i then t.handles.toList else [] := by
  by_cases hj : j = i
  · subst hj
    cases h : t.handles <;> simp [handledBy, Turn.entries, h]
  · cases h : t.handles <;> simp [handledBy, Turn.entries, h, hj, Ne.symm hj]

/-- A worker that goes on for itself handles frames from the front of what it has. -/
theorem carries_setWorker (hi : i < p.workers.length)
    (hworkers : t.pump.workers = (p.setWorker i w).workers) (hreader : t.pump.reader = p.reader)
    (hsource : t.pump.source = p.source) (hreceived : t.pump.received = p.received)
    (hroom : t.pump.room = p.room) (hhandled : t.pump.handled = p.handled + t.handles.toList.length)
    (hframes : (p.worker i).frames = t.handles.toList ++ w.frames) :
    Carries p (.worker i) t [] := by
  refine ⟨hsource.symm, hreceived, ?_, ?_, hroom, ?_, fun j hj => ?_⟩
  · -- The count, the crew and the one worker that handles are as given.
    rw [hhandled, Turn.entries, List.length_map]
  · rw [hworkers, length_setWorker]
  · intro e he
    obtain ⟨f, -, rfl⟩ := List.mem_map.mp he
    exact hi
  · -- Its path is the frames that it handles and those it has then; no other path changes.
    obtain ⟨hself, hother⟩ := worker_of_workers_eq hi hworkers
    rw [handledBy_entries, List.filter_nil, List.append_nil, path, path, hreader]
    by_cases hji : j = i
    · rw [if_pos hji, hji, hself, hframes, List.append_assoc]
    · rw [if_neg hji, hother j hji, List.nil_append]

/-- A frame that is read and goes to a worker joins the end of its path. -/
theorem carries_read {v : Value} {rest : List Feed} (hs : p.source = .frame v :: rest)
    (hi : Shard.workerOf p.workers.length v = .ok i) (hsource : t.pump.source = rest)
    (hreceived : t.pump.received = p.received + 1) (hhandled : t.pump.handled = p.handled)
    (hcrew : t.pump.workers.length = p.workers.length) (hroom : t.pump.room = p.room)
    (hself : t.pump.path i = p.path i ++ [v])
    (hother : ∀ j < p.workers.length, j ≠ i → t.pump.path j = p.path j) :
    Carries p .reader t [v] := by
  refine ⟨?_, hreceived, hhandled, hcrew, hroom, by simp [Turn.entries], fun j hj => ?_⟩
  · -- The source is shorter by the frame that is read.
    rw [hs, hsource]
    rfl
  · -- The frame goes to one worker, behind all others on its way there.
    rw [List.filter_singleton, Shard.goesTo_eq hi]
    by_cases hji : j = i
    · subst hji
      rw [hself]
      simp [Turn.entries, handledBy]
    · rw [hother j hj hji]
      simp [Turn.entries, handledBy, Ne.symm hji]

/-- Every move carries frames along their paths. -/
theorem Moves.carries (hm : p.Moves who t) (h : p.Sound) : ∃ read, Carries p who t read := by
  -- A move either reads one frame, or carries those that are under way.
  cases hm with
  | @handOver v rest i hr hs hi hw =>
    have hi' := Shard.workerOf_lt h.manned hi
    obtain ⟨hself, hother⟩ := worker_of_workers_eq (p := p) hi'
      (q := setWorker { p with source := rest, received := p.received + 1 } i
        { p.worker i with state := .holding v }) rfl
    refine ⟨[v], carries_read hs hi rfl rfl rfl (length_setWorker _ _ _) rfl ?_ fun j _ hj => ?_⟩
    · -- A worker that waits has no frames, so the new one is the first.
      obtain ⟨hbuffer, -, hwaiting⟩ := (h.fits i hi').parked hw
      rw [path, path, hself]
      simp [Worker.frames, setWorker, hw, hbuffer, hwaiting, WorkerState.inHand]
    · rw [path, path, hother j hj]
      rfl
  | @store v rest i hr hs hi hw hroom =>
    have hi' := Shard.workerOf_lt h.manned hi
    obtain ⟨hself, hother⟩ := worker_of_workers_eq (p := p) hi'
      (q := setWorker { p with source := rest, received := p.received + 1 } i
        { p.worker i with buffer := (p.worker i).buffer ++ [v] }) rfl
    refine ⟨[v], carries_read hs hi rfl rfl rfl (length_setWorker _ _ _) rfl ?_ fun j _ hj => ?_⟩
    · -- The new frame comes last in the buffer, as nothing waits for room.
      rw [path, path, hself]
      simp [Worker.frames, setWorker, hr, ReaderState.waiting]
    · rw [path, path, hother j hj]
      rfl
  | @block v rest i hr hs hi hw hroom =>
    refine ⟨[v], carries_read hs hi rfl rfl rfl rfl rfl ?_ fun j _ hj => ?_⟩
    · -- The new frame waits for room behind the buffer.
      simp [path, worker, hr, ReaderState.waiting]
    · simp [path, worker, hr, ReaderState.waiting, Ne.symm hj]
  | close hr hs =>
    have hlen : (p.close none).pump.workers.length = p.workers.length := by simp [Pump.close]
    refine ⟨[], rfl, rfl, rfl, hlen, rfl, by simp [Turn.entries], fun j hj => ?_⟩
    -- Waking a worker that is parked leaves it without frames, as it was.
    have hframes : ((p.close none).pump.worker j).frames = (p.worker j).frames := by
      rw [worker_close hj]
      split
      · rename_i hw
        simp [Worker.frames, WorkerState.isParked_iff.mp hw, WorkerState.inHand]
      · rfl
    rw [path, path, hframes, hr]
    simp [Turn.entries, handledBy, Pump.close, ReaderState.waiting]
  | finish hr hd =>
    refine ⟨[], rfl, rfl, rfl, rfl, rfl, by simp [Turn.entries], fun j hj => ?_⟩
    simp [Turn.entries, handledBy, path, worker, hr, ReaderState.waiting]
  | @letIn i v f rest hw hr hb =>
    have hi := h.target i v hr
    obtain ⟨hself, hother⟩ := worker_of_workers_eq (p := p) hi
      (q := setWorker { p with reader := .reading } i ⟨.holding f, rest⟩) rfl
    refine ⟨[], rfl, rfl, rfl, length_setWorker _ _ _, rfl, by simp [Turn.entries], fun j hj => ?_⟩
    -- The frame that waited for room is let in, behind the one that is fetched.
    by_cases hji : j = i
    · subst hji
      rw [path, path, hself]
      simpa [Worker.frames, hw, hr, Turn.entries, handledBy, WorkerState.inHand,
        ReaderState.waiting, setWorker] using hb
    · rw [path, path, hother j hji]
      simp [hr, Turn.entries, handledBy, ReaderState.waiting, setWorker, Ne.symm hji]
  | @fetch i f rest hw hr hb =>
    refine ⟨[], carries_setWorker (lt_of_isReady (by rw [hw]; rfl)) rfl rfl rfl rfl rfl rfl ?_⟩
    simp [Worker.frames, hw, hb, WorkerState.inHand]
  | @park i hw hr hb hc =>
    refine ⟨[], carries_setWorker (lt_of_isReady (by rw [hw]; rfl)) rfl rfl rfl rfl rfl rfl ?_⟩
    simp [Worker.frames, hw, hb, WorkerState.inHand]
  | @quit i hw hr hb hc =>
    refine ⟨[], carries_setWorker (lt_of_isReady (by rw [hw]; rfl)) rfl rfl rfl rfl rfl rfl ?_⟩
    simp [Worker.frames, hw, hb, WorkerState.inHand]
  | @handle i f hw =>
    refine ⟨[], carries_setWorker (lt_of_isReady (by rw [hw]; rfl)) rfl rfl rfl rfl rfl rfl ?_⟩
    simp [Worker.frames, hw, WorkerState.inHand]
  | @depart i hw =>
    refine ⟨[], carries_setWorker (lt_of_isReady (by rw [hw]; rfl)) rfl rfl rfl rfl rfl rfl ?_⟩
    simp [Worker.frames, hw, WorkerState.inHand, Pump.depart]

end Pump

end Switchboard
