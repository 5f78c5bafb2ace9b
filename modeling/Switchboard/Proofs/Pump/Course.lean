import Switchboard.Proofs.Pump.Effort
import Switchboard.Proofs.Pump.Path
import Switchboard.Proofs.Pump.Wakes

/-!
# The course of a pump

A `Course` is a pump at work with the parties that are awake and the frames that were handled so
far. Any party that is awake may take the next turn, so the courses that are `Reachable` are those
of all interleavings of the reader and the workers. `Course.Holds` is kept by every turn
(`Holds.after`): nobody is left asleep who could move, and every frame that was read is handled or
on its way to the worker that its key asks for, in the order of the source.
-/

namespace Switchboard

open Pump (Moves Rouses Carries)

/-- A pump at work, the parties that are awake, and the frames that were handled so far, each with
the worker that did it. -/
structure Course where
  pump : Pump
  awake : List Party
  handled : List (Nat × Value) := []

namespace Course

/-- A pump of frames begins with everybody awake. -/
def start (workers room : Nat) (frames : List Value) : Course :=
  { pump := .create workers room (frames.map .frame)
    awake := .reader :: (List.range workers).map .worker }

/-- After the turn of a party that one sleeps, unless its turn wakes it again. -/
def after (c : Course) (who : Party) : Course :=
  let t := c.pump.turn who
  { pump := t.pump
    awake := c.awake.erase who ++ t.wakes
    handled := c.handled ++ t.entries who }

/-- The courses of a pump, in whatever order its parties take their turns. -/
inductive Reachable (workers room : Nat) (frames : List Value) : Course → Prop
  | start : Reachable workers room frames (start workers room frames)
  | turn {c : Course} {who : Party} (h : Reachable workers room frames c) (hw : who ∈ c.awake) :
      Reachable workers room frames (c.after who)

/-- The parties can take their turns one after another. -/
def allows (c : Course) : List Party → Bool
  | [] => true
  | who :: turns => c.awake.contains who && (c.after who).allows turns

/-- The course after some turns. -/
def run (c : Course) (turns : List Party) : Course := turns.foldl after c

/-- What holds of a course at any time. -/
structure Holds (workers room : Nat) (frames : List Value) (c : Course) : Prop where
  sound : c.pump.Sound
  crew : c.pump.workers.length = workers
  room : c.pump.room = room
  /-- Nobody is woken twice. -/
  nodup : c.awake.Nodup
  /-- Nobody is left asleep who could move. -/
  awake : ∀ who, who ∈ c.awake ↔ c.pump.CanMove who
  count : c.pump.handled = c.handled.length
  range : ∀ e ∈ c.handled, e.1 < workers
  received : c.pump.received ≤ frames.length
  source : c.pump.source = (frames.drop c.pump.received).map .frame
  /-- A worker has handled the first of the frames that were read for it, and the rest of them are
  on their way to it. -/
  order : ∀ i < workers, handledBy c.handled i ++ c.pump.path i =
    (frames.take c.pump.received).filter (Shard.goesTo workers i)

variable {workers room : Nat} {frames : List Value} {c : Course} {who : Party}

/-- At first every worker is about to ask for a frame. -/
theorem worker_start {i : Nat} (hi : i < workers) :
    (start workers room frames).pump.worker i = {} := by
  simp [start, Pump.create, Pump.worker, hi]

/-- At first there are as many workers as asked for. -/
theorem length_workers_start : (start workers room frames).pump.workers.length = workers := by
  simp [start, Pump.create]

/-- A pump begins sound. -/
theorem sound_start (hworkers : 0 < workers)
    (hkeys : ∀ v ∈ frames, ∃ key, Shard.keyOf v = .ok key) :
    (start workers room frames).pump.Sound where
  manned := by
    rw [length_workers_start]
    exact hworkers
  failure := rfl
  -- All frames are to be read, and each has a key.
  readable := by
    refine ⟨frames, rfl, fun v hv => ?_⟩
    obtain ⟨key, hkey⟩ := hkeys v hv
    exact ⟨_, map_eq_ok.mpr ⟨key, hkey, rfl⟩⟩
  spent hc := by cases hc
  target i v hr := by cases hr
  fits i hi := by
    rw [length_workers_start] at hi
    -- A new worker has an empty buffer and asks.
    rw [worker_start hi]
    exact .busy (Nat.zero_le _) (by simp [start, Pump.create]) (.inl rfl)

/-- What holds of a course holds at first. -/
theorem holds_start (hworkers : 0 < workers)
    (hkeys : ∀ v ∈ frames, ∃ key, Shard.keyOf v = .ok key) :
    Holds workers room frames (start workers room frames) where
  sound := sound_start hworkers hkeys
  crew := length_workers_start
  room := rfl
  -- The reader and the workers are all different.
  nodup := by
    refine List.nodup_cons.mpr ⟨by simp, List.nodup_range.map fun i j he => ?_⟩
    cases he
    rfl
  -- At first everybody can move.
  awake who := by
    cases who with
    | reader => simp [start, Pump.CanMove, Pump.create]
    | worker i =>
      have hin : Party.worker i ∈ (start workers room frames).awake ↔ i < workers := by
        simp [start]
      rw [hin]
      constructor
      · intro hi
        show ((start workers room frames).pump.worker i).state.isReady = true
        rw [worker_start hi]
        rfl
      · intro hm
        have hi := Pump.lt_of_isReady hm
        rwa [length_workers_start] at hi
  count := rfl
  range e he := by cases he
  received := Nat.zero_le _
  source := rfl
  order i hi := by
    rw [Pump.path, worker_start hi]
    rfl

/-- Frames that come next in a source of frames are the next frames. -/
theorem drop_of_source {n : Nat} {read : List Value} {source : List Feed}
    (h : (frames.drop n).map .frame = read.map .frame ++ source) :
    frames.drop n = read ++ frames.drop (n + read.length) ∧
      source = (frames.drop (n + read.length)).map .frame := by
  have hinj : Function.Injective Feed.frame := fun v v' he => by cases he; rfl
  obtain ⟨first, rest, hsplit, hfirst, hrest⟩ := List.map_eq_append_iff.mp h
  obtain rfl : first = read := List.map_injective_iff.mpr hinj hfirst
  have hdrop : frames.drop (n + first.length) = rest := by
    rw [← List.drop_drop, hsplit, List.drop_left]
  rw [hdrop]
  exact ⟨hsplit, hrest.symm⟩

/-- A turn of a party that is awake keeps what holds of a course. -/
theorem Holds.after (h : Holds workers room frames c) (hw : who ∈ c.awake) :
    Holds workers room frames (c.after who) := by
  have hcan : c.pump.CanMove who := (h.awake who).mp hw
  have hmove : c.pump.Moves who (c.pump.turn who) :=
    Pump.turn_moves h.sound.failure h.sound.readable hcan
  obtain ⟨hnodup, hfresh, hnext⟩ := hmove.rouses h.sound
  obtain ⟨read, hcarries⟩ := hmove.carries h.sound
  have hcrew := h.crew
  -- What is read are the next frames of the source.
  obtain ⟨hread, hsource⟩ := drop_of_source (h.source ▸ hcarries.source)
  have hreceived : (c.after who).pump.received = c.pump.received + read.length :=
    hcarries.received
  have hmem (x : Party) : x ∈ c.awake.erase who ↔ x ≠ who ∧ c.pump.CanMove x := by
    rw [h.nodup.mem_erase_iff, h.awake]
  constructor
  case sound => exact hmove.sound h.sound
  case crew => exact hcarries.crew.trans hcrew
  case room => exact hcarries.room.trans h.room
  case nodup =>
    refine List.nodup_append.mpr ⟨h.nodup.erase who, hnodup, fun x hx y hy hxy => ?_⟩
    -- Those who stay awake are not woken.
    obtain ⟨hne, hx⟩ := (hmem x).mp hx
    rcases hfresh y hy with he | hy
    · exact hne (hxy.trans he)
    · exact hy (hxy ▸ hx)
  case awake =>
    intro x
    refine Iff.trans ?_ (hnext x).symm
    show x ∈ c.awake.erase who ++ (c.pump.turn who).wakes ↔ _
    rw [List.mem_append, hmem, and_comm]
  case count =>
    show (c.pump.turn who).pump.handled = (c.handled ++ (c.pump.turn who).entries who).length
    rw [hcarries.handled, h.count, List.length_append]
  case range =>
    intro e he
    rcases List.mem_append.mp he with he | he
    · exact h.range e he
    · exact hcrew ▸ hcarries.range e he
  case received =>
    have hlen := congrArg List.length hread
    rw [List.length_append, List.length_drop, List.length_drop] at hlen
    have hold := h.received
    rw [hreceived]
    omega
  case source =>
    rw [hreceived]
    exact hsource
  case order =>
    -- What was read for a worker: the frames so far, and those of this turn.
    intro i hi
    rw [hreceived, List.take_add, hread, List.take_left, List.filter_append, ← h.order i hi]
    have hpath := hcarries.path i (hcrew ▸ hi)
    rw [hcrew] at hpath
    rw [List.append_assoc, hpath]
    show handledBy (c.handled ++ (c.pump.turn who).entries who) i ++ _ = _
    rw [handledBy_append, List.append_assoc]
    rfl

/-- Turns that can be taken lead to a course that can be reached. -/
theorem Reachable.run {turns : List Party} (h : Reachable workers room frames c)
    (ht : c.allows turns = true) : Reachable workers room frames (c.run turns) := by
  induction turns generalizing c with
  | nil => exact h
  | cons who turns ih =>
    simp only [allows, Bool.and_eq_true, List.contains_iff_mem] at ht
    exact ih (h.turn ht.1) ht.2

/-- What holds of a course holds of every one that can be reached. -/
theorem Reachable.holds (hworkers : 0 < workers)
    (hkeys : ∀ v ∈ frames, ∃ key, Shard.keyOf v = .ok key)
    (h : Reachable workers room frames c) : Holds workers room frames c := by
  induction h with
  | start => exact holds_start hworkers hkeys
  | turn _ hw ih => exact ih.after hw

/-- A turn of a party that is awake leaves less to do. -/
theorem Holds.effort_after_lt (h : Holds workers room frames c) (hw : who ∈ c.awake) :
    (c.after who).pump.effort < c.pump.effort := by
  have hmove := Pump.turn_moves h.sound.failure h.sound.readable ((h.awake who).mp hw)
  exact hmove.effort_lt h.sound

/-- Until the reader is done somebody is awake. -/
theorem Holds.exists_awake (h : Holds workers room frames c) (hr : c.pump.reader ≠ .finished) :
    ∃ who, who ∈ c.awake := by
  obtain ⟨who, hw⟩ := h.sound.exists_canMove hr
  exact ⟨who, (h.awake who).mpr hw⟩

/-- From every course there are turns that lead to the end. -/
theorem Holds.exists_run (h : Holds workers room frames c) :
    ∃ turns, c.allows turns = true ∧ (c.run turns).pump.reader = .finished := by
  -- Whoever is awake may go next, since there is less to do afterwards.
  induction heffort : c.pump.effort using Nat.strongRecOn generalizing c with
  | _ n ih =>
    by_cases hr : c.pump.reader = .finished
    · exact ⟨[], rfl, hr⟩
    · obtain ⟨who, hw⟩ := h.exists_awake hr
      obtain ⟨turns, hallowed, hend⟩ :=
        ih _ (heffort ▸ h.effort_after_lt hw) (h.after hw) rfl
      refine ⟨who :: turns, ?_, hend⟩
      simp only [allows, Bool.and_eq_true, List.contains_iff_mem]
      exact ⟨hw, hallowed⟩

end Course

end Switchboard
