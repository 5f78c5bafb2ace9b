import Switchboard.Proofs.Shard
import Switchboard.Pump

/-!
# The turns of a pump

`Pump.Moves` lists what the reader and the workers can do in one turn, with the conditions under
which they do it, for a pump whose source gives nothing but frames with keys. A party `CanMove` as
long as it does not wait for another one, and then its turn is one of those moves (`turn_moves`).
`Pump.Sound` is what holds between turns; every move keeps it (`Moves.sound`).
-/

namespace Switchboard

namespace ReaderState

/-- No more frames will be sent. -/
def isClosed : ReaderState → Bool
  | closing | finished => true
  | reading | sending .. => false

/-- The frame that the reader waits to send to a worker. -/
def waiting (r : ReaderState) (i : Nat) : List Value :=
  match r with
  | sending j frame => if j = i then [frame] else []
  | _ => []

/-- Either nothing waits for a worker, or one frame does. -/
theorem waiting_cases (r : ReaderState) (i : Nat) :
    r.waiting i = [] ∨ ∃ frame, r = .sending i frame := by
  cases r with
  | sending j frame =>
    by_cases hj : j = i
    · exact .inr ⟨frame, by rw [hj]⟩
    · exact .inl (if_neg hj)
  | _ => exact .inl rfl

end ReaderState

namespace WorkerState

/-- The worker does not wait and is not gone. -/
def isReady : WorkerState → Bool
  | asking | holding _ | leaving => true
  | parked | gone => false

/-- The worker waits. -/
theorem isParked_iff {s : WorkerState} : s.isParked = true ↔ s = .parked := by
  cases s <;> simp [isParked]

/-- The worker is gone. -/
theorem isGone_iff {s : WorkerState} : s.isGone = true ↔ s = .gone := by
  cases s <;> simp [isGone]

/-- The frame that the worker has in hand. -/
def inHand : WorkerState → List Value
  | holding frame => [frame]
  | _ => []

end WorkerState

/-- The frames that a worker has, the one to be handled first in front. -/
def Worker.frames (w : Worker) : List Value := w.state.inHand ++ w.buffer

namespace Pump

/-- The turn of a party. -/
def turn (p : Pump) : Party → Turn
  | .reader => p.readerTurn
  | .worker i => p.workerTurn i

/-- The frames that are on their way to be handled by a worker, in the order in which they will be:
those that it has, and the one that waits to be sent to it. -/
def path (p : Pump) (i : Nat) : List Value := (p.worker i).frames ++ p.reader.waiting i

/-- The party does not wait for another one. -/
def CanMove (p : Pump) : Party → Prop
  | .reader => p.reader = .reading ∨ (p.reader = .closing ∧ p.isDeserted = true)
  | .worker i => (p.worker i).state.isReady = true

/-! ## Workers by index -/

section

variable {p : Pump} {i j : Nat} {w : Worker}

/-- A worker that is not gone is one of the workers. -/
theorem lt_of_isReady (h : (p.worker i).state.isReady = true) : i < p.workers.length := by
  by_contra hi
  have hnone : p.workers[i]? = none := List.getElem?_eq_none (Nat.le_of_not_lt hi)
  rw [worker, List.getD_eq_getElem?_getD, hnone] at h
  cases h

/-- The worker in the place of another one. -/
theorem worker_setWorker_self (hi : i < p.workers.length) : (p.setWorker i w).worker i = w := by
  simp [worker, setWorker, hi]

/-- The other workers stay. -/
theorem worker_setWorker_of_ne (h : j ≠ i) : (p.setWorker i w).worker j = p.worker j := by
  simp [worker, setWorker, List.getElem?_set_ne h.symm]

/-- The workers after one of them was replaced: the new one, and the others as they were. -/
theorem worker_of_workers_eq {q : Pump} (hi : i < p.workers.length)
    (h : q.workers = (p.setWorker i w).workers) :
    q.worker i = w ∧ ∀ j ≠ i, q.worker j = p.worker j := by
  have hlook (j : Nat) : q.worker j = (p.setWorker i w).worker j := by
    simp only [worker, h]
  constructor
  · rw [hlook, worker_setWorker_self hi]
  · intro j hj
    rw [hlook, worker_setWorker_of_ne hj]

/-- A worker that is there stands in the list. -/
theorem worker_eq_getElem (hi : i < p.workers.length) : p.worker i = p.workers[i] := by
  simp [worker, hi]

/-- Every worker is gone when each of them is. -/
theorem isDeserted_iff :
    p.isDeserted = true ↔ ∀ i < p.workers.length, (p.worker i).state = .gone := by
  rw [isDeserted, List.all_eq_true]
  constructor
  · intro h i hi
    rw [worker_eq_getElem hi]
    exact WorkerState.isGone_iff.mp (h _ (List.getElem_mem hi))
  · intro h w hw
    obtain ⟨i, hi, rfl⟩ := List.mem_iff_getElem.mp hw
    rw [← worker_eq_getElem hi]
    exact WorkerState.isGone_iff.mpr (h i hi)

/-- Nobody is gone as long as one worker is not. -/
theorem isDeserted_eq_false (h : (p.worker i).state ≠ .gone) (hi : i < p.workers.length) :
    p.isDeserted = false := by
  rw [Bool.eq_false_iff]
  exact fun hd => h (isDeserted_iff.mp hd i hi)

/-- The pump is closed when its reader is. -/
theorem isClosed_eq (p : Pump) : p.isClosed = p.reader.isClosed := by
  unfold isClosed
  cases p.reader <;> rfl

end

/-! ## What a turn can do -/

/-- What the parties can do in a turn. -/
inductive Moves (p : Pump) : Party → Turn → Prop
  /-- A frame is handed to a worker that waits for it. -/
  | handOver {v : Value} {rest : List Feed} {i : Nat} (hr : p.reader = .reading)
      (hs : p.source = .frame v :: rest) (hi : Shard.workerOf p.workers.length v = .ok i)
      (hw : (p.worker i).state = .parked) :
      Moves p .reader
        { pump := setWorker { p with source := rest, received := p.received + 1 } i
            { p.worker i with state := .holding v }
          wakes := [.worker i, .reader] }
  /-- A frame joins the buffer of a worker. -/
  | store {v : Value} {rest : List Feed} {i : Nat} (hr : p.reader = .reading)
      (hs : p.source = .frame v :: rest) (hi : Shard.workerOf p.workers.length v = .ok i)
      (hw : (p.worker i).state ≠ .parked) (hroom : (p.worker i).buffer.length < p.room) :
      Moves p .reader
        { pump := setWorker { p with source := rest, received := p.received + 1 } i
            { p.worker i with buffer := (p.worker i).buffer ++ [v] }
          wakes := [.reader] }
  /-- A frame has to wait until its worker has room. -/
  | block {v : Value} {rest : List Feed} {i : Nat} (hr : p.reader = .reading)
      (hs : p.source = .frame v :: rest) (hi : Shard.workerOf p.workers.length v = .ok i)
      (hw : (p.worker i).state ≠ .parked) (hroom : p.room ≤ (p.worker i).buffer.length) :
      Moves p .reader
        { pump := { p with source := rest, received := p.received + 1, reader := .sending i v } }
  /-- All frames are read. -/
  | close (hr : p.reader = .reading) (hs : p.source = []) : Moves p .reader (p.close none)
  /-- All workers are gone. -/
  | finish (hr : p.reader = .closing) (hd : p.isDeserted = true) :
      Moves p .reader { pump := { p with reader := .finished } }
  /-- A worker lets in the frame that waits for it, and takes its first frame. -/
  | letIn {i : Nat} {v f : Value} {rest : List Value} (hw : (p.worker i).state = .asking)
      (hr : p.reader = .sending i v) (hb : (p.worker i).buffer ++ [v] = f :: rest) :
      Moves p (.worker i)
        { pump := setWorker { p with reader := .reading } i ⟨.holding f, rest⟩
          wakes := [.reader, .worker i] }
  /-- A worker takes its first frame. -/
  | fetch {i : Nat} {f : Value} {rest : List Value} (hw : (p.worker i).state = .asking)
      (hr : p.reader.waiting i = []) (hb : (p.worker i).buffer = f :: rest) :
      Moves p (.worker i) { pump := p.setWorker i ⟨.holding f, rest⟩, wakes := [.worker i] }
  /-- A worker without frames waits for one. -/
  | park {i : Nat} (hw : (p.worker i).state = .asking) (hr : p.reader.waiting i = [])
      (hb : (p.worker i).buffer = []) (hc : p.reader.isClosed = false) :
      Moves p (.worker i) { pump := p.setWorker i ⟨.parked, []⟩ }
  /-- A worker without frames sees the end. -/
  | quit {i : Nat} (hw : (p.worker i).state = .asking) (hr : p.reader.waiting i = [])
      (hb : (p.worker i).buffer = []) (hc : p.reader.isClosed = true) :
      Moves p (.worker i) { pump := p.setWorker i ⟨.leaving, []⟩, wakes := [.worker i] }
  /-- A worker handles the frame in its hand. -/
  | handle {i : Nat} {f : Value} (hw : (p.worker i).state = .holding f) :
      Moves p (.worker i)
        { pump := { p.setWorker i { p.worker i with state := .asking } with
            handled := p.handled + 1 }
          wakes := [.worker i]
          handles := some f }
  /-- A worker goes. -/
  | depart {i : Nat} (hw : (p.worker i).state = .leaving) : Moves p (.worker i) (p.depart i)

/-- The source gives nothing but frames, and every frame has a worker. -/
def Readable (p : Pump) : Prop :=
  ∃ frames : List Value, p.source = frames.map .frame ∧
    ∀ v ∈ frames, ∃ i, Shard.workerOf p.workers.length v = .ok i

/-- A reader that reads makes one of its moves. -/
theorem readNext_moves {p : Pump} (hs : p.Readable) (hr : p.reader = .reading) :
    p.Moves .reader p.readNext := by
  obtain ⟨frames, hsource, hroute⟩ := hs
  cases frames with
  -- At the end of the source the reader closes.
  | nil =>
    have hsource : p.source = [] := hsource
    unfold readNext
    rw [hsource]
    exact .close hr hsource
  | cons v frames =>
    have hsource : p.source = .frame v :: frames.map .frame := hsource
    -- Otherwise the next frame has a worker, and its state decides how it gets it.
    obtain ⟨i, hi⟩ := hroute v List.mem_cons_self
    unfold readNext
    rw [hsource]
    dsimp only
    rw [hi]
    dsimp only [send]
    -- A parked worker gets the frame at once, and a busy one by its buffer if there is room.
    split
    · rename_i hw
      exact .handOver hr hsource hi (WorkerState.isParked_iff.mp hw)
    · rename_i hw
      have hw : (p.worker i).state ≠ .parked := fun h => hw (WorkerState.isParked_iff.mpr h)
      split
      · rename_i hroom
        exact .store hr hsource hi hw hroom
      · rename_i hroom
        exact .block hr hsource hi hw (Nat.le_of_not_lt hroom)

/-- Nothing is let in when nothing waits for the worker. -/
theorem letIn_of_waiting_eq_nil {p : Pump} {i : Nat} (h : p.reader.waiting i = []) :
    p.letIn i = (p, []) := by
  unfold letIn
  split
  · rename_i j frame hr
    rw [hr] at h
    rw [if_neg]
    rintro rfl
    simp [ReaderState.waiting] at h
  · rfl

/-- The frame that waits for the worker joins its buffer. -/
theorem letIn_of_sending {p : Pump} {i : Nat} {v : Value} (h : p.reader = .sending i v) :
    p.letIn i =
      ({ p.setWorker i { p.worker i with buffer := (p.worker i).buffer ++ [v] } with
          reader := .reading }, [.reader]) := by
  unfold letIn
  rw [h]
  exact if_pos rfl

/-- A worker that asks makes one of its moves. -/
theorem ask_moves {p : Pump} (hf : p.failure = none) {i : Nat}
    (hw : (p.worker i).state = .asking) : p.Moves (.worker i) (p.ask i) := by
  -- A worker that asks is one of the crew.
  have hi : i < p.workers.length := lt_of_isReady (by rw [hw]; rfl)
  unfold ask
  rw [if_neg (by simp [hf])]
  rcases p.reader.waiting_cases i with hr | ⟨v, hr⟩
  · -- No frame waits outside for the worker, so it looks at its buffer.
    rw [letIn_of_waiting_eq_nil hr]
    dsimp only
    split
    · rename_i f rest hb
      exact .fetch hw hr hb
    · -- With an empty buffer it leaves if no more frames come, and parks otherwise.
      rename_i hb
      split
      · rename_i hc
        exact .quit hw hr hb (by rwa [isClosed_eq] at hc)
      · rename_i hc
        exact .park hw hr hb (by rwa [isClosed_eq, Bool.not_eq_true] at hc)
  · -- The frame that waits for the worker joins its buffer, which then holds one at least.
    have hlook (w : Worker) : worker { p.setWorker i w with reader := .reading } i = w :=
      worker_setWorker_self hi
    rw [letIn_of_sending hr]
    dsimp only
    rw [hlook]
    dsimp only
    split
    · rename_i f rest hb
      have hmove : p.Moves (.worker i) _ := .letIn hw hr hb
      simpa [setWorker] using hmove
    · rename_i hb
      simp at hb

/-- The turn of a party that can move is one of its moves. -/
theorem turn_moves {p : Pump} (hf : p.failure = none) (hs : p.Readable) {who : Party}
    (hm : p.CanMove who) : p.Moves who (p.turn who) := by
  cases who with
  | reader =>
    unfold turn readerTurn
    dsimp only
    rcases hm with hr | ⟨hr, hd⟩
    · rw [hr]
      exact readNext_moves hs hr
    · rw [hr]
      dsimp only
      rw [if_pos hd]
      exact .finish hr hd
  | worker i =>
    have hm : (p.worker i).state.isReady = true := hm
    unfold turn workerTurn
    dsimp only
    split
    · rename_i hw
      exact ask_moves hf hw
    · rename_i f hw
      exact .handle hw
    · rename_i hw
      exact .depart hw
    -- A worker that waits or is gone cannot move.
    · rename_i hw
      rw [hw] at hm
      cases hm
    · rename_i hw
      rw [hw] at hm
      cases hm

/-! ## What holds between turns -/

/-- What holds of a worker of an index, given where the reader stands. -/
structure Fits (room i : Nat) (r : ReaderState) (w : Worker) : Prop where
  bounded : w.buffer.length ≤ room
  /-- A worker waits only for a frame that is still to come. -/
  parked : w.state = .parked → w.buffer = [] ∧ r.isClosed = false ∧ r.waiting i = []
  /-- A worker leaves only after the end, with nothing left to do. -/
  done : w.state = .leaving ∨ w.state = .gone → w.buffer = [] ∧ r.isClosed = true
  /-- The reader is the last one to be done. -/
  last : r = .finished → w.state = .gone

/-- What holds of a pump between turns. -/
structure Sound (p : Pump) : Prop where
  manned : 0 < p.workers.length
  failure : p.failure = none
  readable : p.Readable
  /-- The reader is only done when all frames are read. -/
  spent : p.reader.isClosed = true → p.source = []
  /-- The reader waits only for a worker that is there. -/
  target : ∀ i v, p.reader = .sending i v → i < p.workers.length
  fits : ∀ i < p.workers.length, Fits p.room i p.reader (p.worker i)

section

variable {p : Pump} {who : Party} {t : Turn}

/-- Another worker in the place of one does not change the number of workers. -/
@[simp] theorem length_setWorker (p : Pump) (i : Nat) (w : Worker) :
    (p.setWorker i w).workers.length = p.workers.length := by
  simp [setWorker]

/-- A worker that fits takes the place of another one. -/
theorem Sound.setWorker (h : p.Sound) {i : Nat} {w : Worker} (hw : Fits p.room i p.reader w) :
    (p.setWorker i w).Sound where
  manned := by simpa using h.manned
  failure := h.failure
  readable := by
    obtain ⟨frames, hsource, hroute⟩ := h.readable
    exact ⟨frames, hsource, by simpa using hroute⟩
  spent := h.spent
  target j v hv := by
    rw [length_setWorker]
    exact h.target j v hv
  fits j hj := by
    rw [length_setWorker] at hj
    -- The other workers fit as before.
    by_cases hij : j = i
    · subst hij
      rw [worker_setWorker_self hj]
      exact hw
    · rw [worker_setWorker_of_ne hij]
      exact h.fits j hj

/-- A frame is taken from the source of a pump that reads. -/
theorem Sound.read (h : p.Sound) (hr : p.reader = .reading) {v : Value} {rest : List Feed}
    (hs : p.source = .frame v :: rest) :
    Sound { p with source := rest, received := p.received + 1 } where
  manned := h.manned
  failure := h.failure
  readable := by
    -- The frames that follow have workers, too.
    obtain ⟨frames, hsource, hroute⟩ := h.readable
    cases frames with
    | nil =>
      rw [hs] at hsource
      cases hsource
    | cons v' frames =>
      rw [hs] at hsource
      cases hsource
      exact ⟨frames, rfl, fun v' hv' => hroute v' (List.mem_cons_of_mem v hv')⟩
  spent hc := by
    have hc : p.reader.isClosed = true := hc
    rw [hr] at hc
    cases hc
  target := h.target
  fits := h.fits

/-- Where the reader stands after a turn, with the same workers. -/
theorem Sound.withReader (h : p.Sound) {r : ReaderState}
    (hspent : r.isClosed = true → p.source = [])
    (htarget : ∀ i v, r = .sending i v → i < p.workers.length)
    (hfits : ∀ i < p.workers.length, Fits p.room i r (p.worker i)) :
    Sound { p with reader := r } where
  manned := h.manned
  failure := h.failure
  readable := h.readable
  spent := hspent
  target := htarget
  fits := hfits

/-- A worker with a frame in hand, or about to ask for one, fits until the reader is done. -/
theorem Fits.busy {room i : Nat} {r : ReaderState} {w : Worker} (hb : w.buffer.length ≤ room)
    (hr : r ≠ .finished) (hw : w.state = .asking ∨ ∃ f, w.state = .holding f) :
    Fits room i r w := by
  refine ⟨hb, fun hp => ?_, fun hd => ?_, fun hl => absurd hl hr⟩
  · rw [hp] at hw
    simp at hw
  · rcases hd with hd | hd
    · rw [hd] at hw
      simp at hw
    · rw [hd] at hw
      simp at hw

/-- Before the end no worker leaves. -/
theorem Fits.stays {room i : Nat} {r : ReaderState} {w : Worker} (h : Fits room i r w)
    (hr : r.isClosed = false) : ¬ (w.state = .leaving ∨ w.state = .gone) := by
  intro hd
  have hc := (h.done hd).2
  rw [hr] at hc
  cases hc

/-- The reader is not done as long as a worker can go on. -/
theorem Sound.reader_ne_finished (h : p.Sound) {i : Nat}
    (hw : (p.worker i).state.isReady = true) : p.reader ≠ .finished := by
  intro hr
  rw [(h.fits i (lt_of_isReady hw)).last hr] at hw
  cases hw

/-- Closing wakes the workers that wait and leaves the others as they are. -/
theorem worker_close {i : Nat} (hi : i < p.workers.length) :
    (p.close none).pump.worker i = if (p.worker i).state.isParked
      then { p.worker i with state := .asking } else p.worker i := by
  have hlen : i < (p.close none).pump.workers.length := by simpa [close] using hi
  rw [worker_eq_getElem hlen, worker_eq_getElem hi]
  simp [close]

/-- Every move leaves the pump sound. -/
theorem Moves.sound (hm : p.Moves who t) (h : p.Sound) : t.pump.Sound := by
  have hfit {i : Nat} (hi : i < p.workers.length) := h.fits i hi
  cases hm with
  | @handOver v rest i hr hs hi hw =>
    have hi' := Shard.workerOf_lt h.manned hi
    refine (h.read hr hs).setWorker (.busy (hfit hi').bounded ?_ (.inr ⟨v, rfl⟩))
    simp [hr]
  | @store v rest i hr hs hi hw hroom =>
    have hi' := Shard.workerOf_lt h.manned hi
    have hstays := (hfit hi').stays (by rw [hr]; rfl)
    refine (h.read hr hs).setWorker ⟨?_, fun hp => absurd hp hw, fun hd => absurd hd hstays, ?_⟩
    · rw [List.length_append]
      exact hroom
    · simp [hr]
  | @block v rest i hr hs hi hw hroom =>
    have hi' := Shard.workerOf_lt h.manned hi
    refine (h.read hr hs).withReader (by simp [ReaderState.isClosed]) ?_ fun j hj => ?_
    · intro j v' he
      cases he
      exact hi'
    · obtain ⟨hbounded, hparked, -, -⟩ := hfit hj
      have hstays := (hfit hj).stays (by rw [hr]; rfl)
      refine ⟨hbounded, fun hp => ⟨(hparked hp).1, rfl, if_neg ?_⟩, fun hd => absurd hd hstays,
        by simp⟩
      -- The worker for which the reader waits does not wait itself.
      rintro rfl
      exact hw hp
  | close hr hs =>
    have hlen : (p.close none).pump.workers.length = p.workers.length := by simp [Pump.close]
    refine ⟨hlen ▸ h.manned, rfl, ⟨[], hs, by simp⟩, fun _ => hs, by simp [Pump.close],
      fun i hi => ?_⟩
    rw [hlen] at hi
    rw [worker_close hi]
    split
    · exact .busy (hfit hi).bounded (by simp [Pump.close]) (.inl rfl)
    · rename_i hw
      refine ⟨(hfit hi).bounded, fun hp => ?_, fun hd => ⟨((hfit hi).done hd).1, rfl⟩, ?_⟩
      · exact absurd (WorkerState.isParked_iff.mpr hp) hw
      · simp [Pump.close]
  | finish hr hd =>
    refine h.withReader (fun _ => h.spent (by rw [hr]; rfl)) (by simp) fun j hj => ?_
    have hgone := isDeserted_iff.mp hd j hj
    refine ⟨(hfit hj).bounded, ?_, fun hd => ⟨((hfit hj).done hd).1, rfl⟩, fun _ => hgone⟩
    rw [hgone]
    intro hp
    cases hp
  | @letIn i v f rest hw hr hb =>
    have hi := h.target i v hr
    have hreading : Sound { p with reader := .reading } := by
      refine h.withReader (by simp [ReaderState.isClosed]) (by simp) fun j hj => ?_
      obtain ⟨hbounded, hparked, -, -⟩ := hfit hj
      have hstays := (hfit hj).stays (by rw [hr]; rfl)
      exact ⟨hbounded, fun hp => ⟨(hparked hp).1, rfl, rfl⟩, fun hd => absurd hd hstays, by simp⟩
    refine hreading.setWorker (.busy ?_ (by simp) (.inr ⟨f, rfl⟩))
    -- As many frames are left in the buffer as there were.
    have hlen := congrArg List.length hb
    rw [List.length_append, List.length_singleton, List.length_cons] at hlen
    have hbounded := (hfit hi).bounded
    show rest.length ≤ p.room
    omega
  | @fetch i f rest hw hr hb =>
    have hready : (p.worker i).state.isReady = true := by rw [hw]; rfl
    have hbounded := (hfit (lt_of_isReady hready)).bounded
    rw [hb, List.length_cons] at hbounded
    exact h.setWorker (.busy (Nat.le_of_succ_le hbounded) (h.reader_ne_finished hready)
      (.inr ⟨f, rfl⟩))
  | @park i hw hr hb hc =>
    refine h.setWorker ⟨Nat.zero_le _, fun _ => ⟨rfl, hc, hr⟩, by simp, fun hl => ?_⟩
    rw [hl] at hc
    cases hc
  | @quit i hw hr hb hc =>
    have hready : (p.worker i).state.isReady = true := by rw [hw]; rfl
    refine h.setWorker ⟨Nat.zero_le _, by simp, fun _ => ⟨rfl, hc⟩, fun hl => ?_⟩
    exact absurd hl (h.reader_ne_finished hready)
  | @handle i f hw =>
    have hready : (p.worker i).state.isReady = true := by rw [hw]; rfl
    have hasks : (p.setWorker i { p.worker i with state := .asking }).Sound :=
      h.setWorker (.busy (hfit (lt_of_isReady hready)).bounded (h.reader_ne_finished hready)
        (.inl rfl))
    exact ⟨hasks.manned, hasks.failure, hasks.readable, hasks.spent, hasks.target, hasks.fits⟩
  | @depart i hw =>
    have hready : (p.worker i).state.isReady = true := by rw [hw]; rfl
    obtain ⟨hbounded, -, hdone, -⟩ := hfit (lt_of_isReady hready)
    exact h.setWorker ⟨hbounded, by simp, fun _ => hdone (.inl hw), fun _ => rfl⟩

end

end Pump

end Switchboard
