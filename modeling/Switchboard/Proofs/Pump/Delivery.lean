import Switchboard.Proofs.Pump.Course

/-!
# What a pump delivers

Whatever the order of the turns, every frame that is read is handled once, by the worker that its
key asks for and in the order of the source; no buffer holds more than it has room for; and the
pump goes on until all frames are handled and nothing is left on the way (`reachable_delivery`).
-/

namespace Switchboard.Course

variable {workers room : Nat} {frames : List Value} {c : Course} {α : Type}

/-! ## Sorting by worker -/

/-- The items with numbers below a bound, sorted by number. -/
theorem perm_flatMap_filter (key : α → Nat) (as : List α) (n : Nat) :
    ((List.range n).flatMap fun i => as.filter (key · == i)).Perm (as.filter (key · < n)) := by
  induction n with
  | zero => simp
  | succ n ih =>
    -- The items below the next bound are those below this one and those at it.
    have hbelow : (as.filter fun a => decide (key a < n + 1)).filter (fun a => decide (key a < n)) =
        as.filter (key · < n) := by
      rw [List.filter_filter]
      refine List.filter_congr fun a _ => ?_
      by_cases ha : key a < n
      · simp [ha, Nat.lt_succ_of_lt ha]
      · simp [ha]
    have hat : (as.filter fun a => decide (key a < n + 1)).filter (fun a => !decide (key a < n)) =
        as.filter (key · == n) := by
      rw [List.filter_filter]
      refine List.filter_congr fun a _ => ?_
      rw [Bool.eq_iff_iff]
      simp only [Bool.and_eq_true, Bool.not_eq_true', decide_eq_false_iff_not, decide_eq_true_eq,
        beq_iff_eq]
      omega
    have hsplit := List.filter_append_perm (fun a => decide (key a < n))
      (as.filter fun a => decide (key a < n + 1))
    rw [hbelow, hat] at hsplit
    rw [List.range_succ, List.flatMap_append, List.flatMap_singleton]
    exact (ih.append_right _).trans hsplit

/-- What workers handle, sorted by worker. -/
theorem perm_handledBy {es : List (Nat × Value)} (hes : ∀ e ∈ es, e.1 < workers) :
    ((List.range workers).flatMap (handledBy es)).Perm (es.map Prod.snd) := by
  have hall : es.filter (fun e => decide (e.1 < workers)) = es :=
    List.filter_eq_self.mpr fun e he => by simpa using hes e he
  have hsorted := (perm_flatMap_filter Prod.fst es workers).map Prod.snd
  rw [hall, List.map_flatMap] at hsorted
  exact hsorted

/-- Frames that have keys, each with the worker that it goes to. -/
theorem exists_routed (workers : Nat) (hkeys : ∀ v ∈ frames, ∃ key, Shard.keyOf v = .ok key) :
    ∃ es : List (Nat × Value), es.map Prod.snd = frames ∧
      ∀ e ∈ es, e.2 ∈ frames ∧ Shard.workerOf workers e.2 = .ok e.1 := by
  refine ⟨frames.map fun v => ((Shard.workerOf workers v).toOption.getD 0, v), ?_, fun e he => ?_⟩
  · rw [List.map_map]
    exact List.map_id frames
  · obtain ⟨v, hv, rfl⟩ := List.mem_map.mp he
    obtain ⟨key, hkey⟩ := hkeys v hv
    have hj : Shard.workerOf workers v = .ok (Shard.workerFor workers key) :=
      map_eq_ok.mpr ⟨key, hkey, rfl⟩
    exact ⟨hv, by simp [hj, Except.toOption]⟩

/-- What a worker handles are the frames that go to it. -/
theorem handledBy_routed {es : List (Nat × Value)}
    (hes : ∀ e ∈ es, Shard.workerOf workers e.2 = .ok e.1) (i : Nat) :
    handledBy es i = (es.map Prod.snd).filter (Shard.goesTo workers i) := by
  rw [handledBy, List.filter_map]
  refine congrArg _ (List.filter_congr fun e he => ?_)
  exact (Shard.goesTo_eq (hes e he)).symm

/-- The frames that have keys, sorted by worker. -/
theorem perm_goesTo (hworkers : 0 < workers)
    (hkeys : ∀ v ∈ frames, ∃ key, Shard.keyOf v = .ok key) :
    ((List.range workers).flatMap fun i => frames.filter (Shard.goesTo workers i)).Perm frames := by
  obtain ⟨es, rfl, hes⟩ := exists_routed workers hkeys
  have hrange : ∀ e ∈ es, e.1 < workers := fun e he => Shard.workerOf_lt hworkers (hes e he).2
  have hsorted := perm_handledBy hrange
  rwa [List.flatMap_congr fun i _ => handledBy_routed (fun e he => (hes e he).2) i] at hsorted

/-! ## The end -/

/-- Once nothing is left to read all frames are read. -/
theorem Holds.received_eq (h : Holds workers room frames c) (hs : c.pump.source = []) :
    c.pump.received = frames.length := by
  have hnone : frames.drop c.pump.received = [] := by
    have hsource := h.source
    rw [hs] at hsource
    exact List.map_eq_nil_iff.mp hsource.symm
  exact Nat.le_antisymm h.received (List.drop_eq_nil_iff.mp hnone)

/-- When the reader is done all frames are read, and none is on its way. -/
theorem Holds.finished (h : Holds workers room frames c) (hr : c.pump.reader = .finished) :
    c.pump.received = frames.length ∧ ∀ i < workers, c.pump.path i = [] := by
  constructor
  · exact h.received_eq (h.sound.spent (by rw [hr]; rfl))
  · intro i hi
    obtain ⟨-, -, hdone, hlast⟩ := h.sound.fits i (h.crew ▸ hi)
    have hgone : (c.pump.worker i).state = .gone := hlast hr
    simp [Pump.path, Worker.frames, hgone, (hdone (.inr hgone)).1, hr, WorkerState.inHand,
      ReaderState.waiting]

/-- A frame that was handled comes from the source and went to the worker that its key asks for. -/
theorem Holds.routed (h : Holds workers room frames c) :
    ∀ e ∈ c.handled, e.2 ∈ frames ∧ Shard.workerOf workers e.2 = .ok e.1 := by
  intro e he
  have hin : e.2 ∈ handledBy c.handled e.1 :=
    List.mem_map_of_mem (List.mem_filter.mpr ⟨he, beq_self_eq_true e.1⟩)
  have hread : e.2 ∈ (frames.take c.pump.received).filter (Shard.goesTo workers e.1) := by
    rw [← h.order e.1 (h.range e he)]
    exact List.mem_append.mpr (.inl hin)
  obtain ⟨htaken, hgoes⟩ := List.mem_filter.mp hread
  exact ⟨List.mem_of_mem_take htaken, Shard.goesTo_iff.mp hgoes⟩

/-- When the reader is done every worker has handled the frames whose key asks for it. -/
theorem Holds.handledBy_eq (h : Holds workers room frames c) (hr : c.pump.reader = .finished)
    {i : Nat} (hi : i < workers) :
    handledBy c.handled i = frames.filter (Shard.goesTo workers i) := by
  obtain ⟨hreceived, hpath⟩ := h.finished hr
  have horder := h.order i hi
  rwa [hpath i hi, List.append_nil, hreceived, List.take_length] at horder

/-- Whatever the order of the turns: what was read for a worker was handled by it or is on its way
to it, in the order of the source; frames are handled by the worker that their key asks for; no
buffer holds more than it has room for; until the reader is done somebody can take a turn, every
turn leaves less to do, and there are turns that lead to the end; and when the reader is done all
frames were read and handled, each once, and none is left. With one worker the frames are handled in
the order of the source. -/
theorem reachable_delivery (hworkers : 0 < workers)
    (hkeys : ∀ v ∈ frames, ∃ key, Shard.keyOf v = .ok key)
    (h : Reachable workers room frames c) :
    (∀ i < workers, handledBy c.handled i ++ c.pump.path i =
        (frames.take c.pump.received).filter (Shard.goesTo workers i)) ∧
      (∀ e ∈ c.handled, e.1 < workers ∧ Shard.workerOf workers e.2 = .ok e.1) ∧
      (∀ i < workers, (c.pump.worker i).buffer.length ≤ room) ∧
      (c.pump.reader ≠ .finished → ∃ who, who ∈ c.awake) ∧
      (∀ who ∈ c.awake, (c.after who).pump.effort < c.pump.effort) ∧
      (∃ turns, c.allows turns = true ∧ (c.run turns).pump.reader = .finished) ∧
      (c.pump.reader = .finished → c.pump.received = frames.length ∧
        c.pump.handled = frames.length ∧ (c.handled.map Prod.snd).Perm frames ∧
        ∀ i < workers, c.pump.path i = []) ∧
      (workers = 1 →
        c.handled.map Prod.snd ++ c.pump.path 0 = frames.take c.pump.received) := by
  have hholds := h.holds hworkers hkeys
  refine ⟨hholds.order, fun e he => ⟨hholds.range e he, (hholds.routed e he).2⟩, fun i hi => ?_,
    hholds.exists_awake, fun who => hholds.effort_after_lt, hholds.exists_run, fun hr => ?_,
    fun hone => ?_⟩
  · exact hholds.room ▸ (hholds.sound.fits i (hholds.crew ▸ hi)).bounded
  · obtain ⟨hreceived, hpath⟩ := hholds.finished hr
    -- Sorted by worker, what was handled and what there was to read are the same.
    have hperm : (c.handled.map Prod.snd).Perm frames := by
      refine (perm_handledBy hholds.range).symm.trans ?_
      rw [List.flatMap_congr fun i hi => hholds.handledBy_eq hr (List.mem_range.mp hi)]
      exact perm_goesTo hworkers hkeys
    refine ⟨hreceived, ?_, hperm, hpath⟩
    rw [hholds.count, ← hperm.length_eq, List.length_map]
  · subst hone
    have hall : handledBy c.handled 0 = c.handled.map Prod.snd := by
      rw [handledBy, List.filter_eq_self.mpr]
      intro e he
      have hzero := hholds.range e he
      simp [Nat.lt_one_iff.mp hzero]
    have hread : (frames.take c.pump.received).filter (Shard.goesTo 1 0) =
        frames.take c.pump.received := by
      refine List.filter_eq_self.mpr fun v hv => ?_
      obtain ⟨key, hkey⟩ := hkeys v (List.mem_of_mem_take hv)
      have hroute : Shard.workerOf 1 v = .ok (Shard.workerFor 1 key) :=
        map_eq_ok.mpr ⟨key, hkey, rfl⟩
      have hzero := Shard.workerFor_lt Nat.one_pos key
      rw [Shard.goesTo_iff, hroute, Nat.lt_one_iff.mp hzero]
    rw [← hall, ← hread]
    exact hholds.order 0 Nat.one_pos

/-- Two frames for two workers without buffers. The first frame has to wait for its worker, and the
second one, which has no key, is handled before it. -/
theorem reachable_delivery_crossed : ∃ (frames : List Value) (c : Course),
    (∀ v ∈ frames, ∃ key, Shard.keyOf v = .ok key) ∧ Reachable 2 0 frames c ∧
      c.handled.map Prod.fst = [0, 1] ∧ c.pump.reader = .finished ∧
      (c.handled.map Prod.snd).Perm frames ∧ c.pump.handled = frames.length := by
  -- The first frame goes to worker 1, the one without a key to worker 0.
  let keyed : Value := .map [(.text "d", .map [(.text "guild_id", .text "1")])]
  let frames : List Value := [keyed, .null]
  -- Worker 0 gets its frame at once because it is parked by then, and handles it first.
  let turns : List Party :=
    [.reader, .worker 0, .worker 1, .reader, .worker 0, .worker 1, .reader, .worker 0, .worker 0,
      .worker 1, .worker 1, .reader]
  have hkeys : ∀ v ∈ frames, ∃ key, Shard.keyOf v = .ok key := by
    intro v hv
    rcases List.mem_cons.mp hv with rfl | hv
    · exact ⟨some "1", by cbv⟩
    · rw [List.mem_singleton.mp hv]
      exact ⟨none, rfl⟩
  have hturns : (start 2 0 frames).allows turns = true := by decide +kernel
  have hreach : Reachable 2 0 frames ((start 2 0 frames).run turns) := Reachable.start.run hturns
  -- The run ends, so what holds at the end of every course holds here.
  have hend : ((start 2 0 frames).run turns).pump.reader = .finished := by cbv
  obtain ⟨-, -, -, -, -, -, hdone, -⟩ := reachable_delivery (by decide) hkeys hreach
  obtain ⟨-, hhandled, hperm, -⟩ := hdone hend
  exact ⟨frames, _, hkeys, hreach, by decide +kernel, hend, hperm, hhandled⟩

end Switchboard.Course
