import Switchboard.Proofs.Pump.Delivery
import Switchboard.Proofs.Pump.Source

/-!
# What a pump takes from its source

A pump of any source `Draws` from it, whatever the order of the turns. Until its source fails, a
course is one of the frames of the harvest (`Reads`), for the things that are skipped cost the
reader a turn and nothing else. Once its source has failed, it is one of no frames but those that
the workers have handled or have in hand (`Breaks`), for all others are dropped. So the theory of
pumps of frames holds for it (`Draws.stands`), and when the reader is done the pump has taken the
harvest (`Draws.finished`).
-/

namespace Switchboard

namespace Course

variable {workers room n : Nat} {frames : List Value} {source : List Feed} {c : Course}
  {logs : List LogRecord} {who : Party}

/-- A pump of any source begins with everybody awake. -/
def ofSource (workers room : Nat) (source : List Feed) : Course :=
  { pump := .create workers room source
    awake := .reader :: (List.range workers).map .worker }

/-- The courses of a pump of any source, in whatever order its parties take their turns, with what
was logged so far. -/
inductive Draws (workers room : Nat) (source : List Feed) : Course → List LogRecord → Prop
  | start : Draws workers room source (ofSource workers room source) []
  | turn {c : Course} {logs : List LogRecord} {who : Party} (h : Draws workers room source c logs)
      (hw : who ∈ c.awake) :
      Draws workers room source (c.after who) (logs ++ (c.pump.turn who).logs)

/-- The course after a turn of a party, whatever the turn is. -/
def afterTurn (c : Course) (who : Party) (t : Turn) : Course :=
  { pump := t.pump
    awake := c.awake.erase who ++ t.wakes
    handled := c.handled ++ t.entries who }

/-- The course with a source of the frames that the source has still to give. -/
def sifted (c : Course) : Course := { c with pump := c.pump.sifted }

/-- The course with nothing to read and nothing in the buffers, as if the pump had not failed and
had read a number of frames. -/
def relieved (c : Course) (received : Nat) : Course :=
  { c with pump := c.pump.relieved received }

/-! ## Before a failure -/

/-- What holds of a course until its source fails. -/
structure Reads (workers room : Nat) (source : List Feed) (c : Course) (logs : List LogRecord) :
    Prop where
  holds : Holds workers room (Feed.harvest source).frames c.sifted
  spent : c.pump.reader.isClosed = true → c.pump.source = []
  logs : logs ++ (Feed.harvest c.pump.source).logs = (Feed.harvest source).logs
  failure : (Feed.harvest c.pump.source).failure = (Feed.harvest source).failure

/-- A pump of any source begins like one of the frames of its harvest. -/
theorem reads_ofSource (hworkers : 0 < workers)
    (hkeys : ∀ v ∈ (Feed.harvest source).frames, ∃ key, Shard.keyOf v = .ok key) :
    Reads workers room source (ofSource workers room source) [] where
  holds := holds_start hworkers hkeys
  spent hc := by cases hc
  logs := rfl
  failure := rfl

/-- A turn that goes as it would if nothing were skipped takes the course of the frames on. -/
theorem after_sifted (h : c.pump.sifted.turn who = (c.pump.turn who).sifted) :
    (c.after who).sifted = c.sifted.after who := by
  show (c.after who).sifted = c.afterTurn who (c.pump.sifted.turn who)
  rw [h]
  rfl

/-- A turn that goes as it would if nothing were skipped leaves less to do. -/
theorem Reads.forward (h : Reads workers room source c logs) (hw : who ∈ c.awake)
    (hturn : c.pump.sifted.turn who = (c.pump.turn who).sifted)
    (hlogs : (c.pump.turn who).logs = [])
    (hspent : (c.after who).pump.reader.isClosed = true → (c.after who).pump.source = [])
    (hsame : (Feed.harvest (c.after who).pump.source).logs = (Feed.harvest c.pump.source).logs ∧
      (Feed.harvest (c.after who).pump.source).failure = (Feed.harvest c.pump.source).failure)
    (hlength : (c.after who).pump.source.length + (Feed.harvest c.pump.source).frames.length =
      c.pump.source.length + (Feed.harvest (c.after who).pump.source).frames.length) :
    Reads workers room source (c.after who) (logs ++ (c.pump.turn who).logs) ∧
      (c.after who).pump.effort < c.pump.effort := by
  -- The course without what is skipped takes the same turn, and keeps to its invariant.
  constructor
  · constructor
    case holds =>
      rw [after_sifted hturn]
      exact h.holds.after hw
    case spent => exact hspent
    case logs => rw [hlogs, List.append_nil, hsame.1, h.logs]
    case failure => rw [hsame.2, h.failure]
  · -- The skipped things cost as much before as after the turn.
    have hless := h.holds.effort_after_lt hw
    rw [← after_sifted hturn] at hless
    have hbefore := Pump.effort_withSource c.pump ((Feed.harvest c.pump.source).frames.map .frame)
    have hafter := Pump.effort_withSource (c.after who).pump
      ((Feed.harvest (c.after who).pump.source).frames.map .frame)
    rw [List.length_map] at hbefore hafter
    have hless : (c.after who).pump.sifted.effort < c.pump.sifted.effort := hless
    rw [Pump.sifted, Pump.sifted] at hless
    omega

/-- It does not matter in which order those who are awake are listed. -/
theorem Holds.withAwake (h : Holds workers room frames c) {awake : List Party}
    (hperm : awake.Perm c.awake) : Holds workers room frames { c with awake } :=
  { h with
    nodup := hperm.nodup_iff.mpr h.nodup
    awake := fun who => hperm.mem_iff.trans (h.awake who) }

/-- A reader that skips something logs it and has read nothing. -/
theorem Reads.skip (h : Reads workers room source c logs) (hw : .reader ∈ c.awake)
    (hr : c.pump.reader = .reading) {r : LogRecord} {rest : List Feed}
    (hs : c.pump.source = .skipped r :: rest) :
    Reads workers room source (c.after .reader) (logs ++ (c.pump.turn .reader).logs) ∧
      (c.after .reader).pump.effort < c.pump.effort := by
  have hturn := Pump.turn_of_skipped hr hs
  have hsifted : (c.pump.withSource rest).sifted = c.pump.sifted := by
    rw [Pump.sifted, Pump.sifted, hs]
    rfl
  have hafter : c.after .reader =
      ⟨c.pump.withSource rest, c.awake.erase .reader ++ [.reader], c.handled⟩ := by
    rw [after, hturn]
    simp [Turn.entries]
  have hlogs := h.logs
  have hfailure := h.failure
  rw [hs] at hlogs hfailure
  rw [hafter, hturn]
  constructor
  · constructor
    case holds =>
      -- The course of the frames stands still, but the reader is listed at the end.
      rw [sifted, hsifted]
      refine h.holds.withAwake ((List.perm_append_singleton _ _).trans ?_)
      exact (List.perm_cons_erase hw).symm
    case spent =>
      intro hc
      have hc : c.pump.reader.isClosed = true := hc
      rw [hr] at hc
      cases hc
    case logs =>
      rw [List.append_assoc]
      exact hlogs
    case failure => exact hfailure
  · have heffort := Pump.effort_withSource c.pump rest
    rw [hs, List.length_cons] at heffort
    show (c.pump.withSource rest).effort < c.pump.effort
    omega

/-- A reader that reads a frame has read the next one. -/
theorem Reads.read (h : Reads workers room source c logs) (hw : .reader ∈ c.awake)
    (hr : c.pump.reader = .reading) {v : Value} {rest : List Feed}
    (hs : c.pump.source = .frame v :: rest) :
    Reads workers room source (c.after .reader) (logs ++ (c.pump.turn .reader).logs) ∧
      (c.after .reader).pump.effort < c.pump.effort := by
  -- The frame is the next one of the harvest, so it has a worker.
  obtain ⟨i, hi⟩ : ∃ i, Shard.workerOf c.pump.workers.length v = .ok i := by
    obtain ⟨frames, hframes, hroute⟩ := h.holds.sound.readable
    have hsource : c.sifted.pump.source = .frame v :: (Feed.harvest rest).frames.map .frame := by
      show (Feed.harvest c.pump.source).frames.map Feed.frame = _
      rw [hs]
      rfl
    rw [hsource] at hframes
    cases frames with
    | nil => cases hframes
    | cons v' frames =>
      obtain ⟨hv, -⟩ := List.cons.inj hframes
      cases hv
      exact hroute v List.mem_cons_self
  obtain ⟨hrest, hlogs, hopen⟩ := Pump.sends (c.pump.taking rest) i v
  rw [← Pump.turn_of_frame hr hs hi] at hrest hlogs hopen
  have hrest : (c.after .reader).pump.source = rest := hrest
  refine h.forward hw (Pump.turn_sifted_of_frame hr hs hi) hlogs ?_ ?_ ?_
  · intro hc
    have hc : c.pump.reader.isClosed = true := hopen hc
    rw [hr] at hc
    cases hc
  · rw [hrest, hs]
    exact ⟨rfl, rfl⟩
  · rw [hrest, hs]
    simp only [Feed.harvest, List.length_cons]
    omega

/-- A reader whose source has come to its end closes. -/
theorem Reads.close (h : Reads workers room source c logs) (hw : .reader ∈ c.awake)
    (hr : c.pump.reader = .reading) (hs : c.pump.source = []) :
    Reads workers room source (c.after .reader) (logs ++ (c.pump.turn .reader).logs) ∧
      (c.after .reader).pump.effort < c.pump.effort := by
  have hturn := Pump.turn_of_nil hr hs
  have hend : (c.pump.turn .reader).pump.source = [] := by
    rw [hturn]
    exact hs
  -- Nothing is left of the source, and the turn is the one of a pump without anything to skip.
  have hafter : (c.after .reader).pump.source = [] := hend
  refine h.forward hw ?_ (by rw [hturn]; rfl) (fun _ => hafter) ?_ ?_
  · rw [Pump.sifted_of_nil hs, Turn.sifted, Pump.sifted_of_nil hend]
  · rw [hafter, hs]
    exact ⟨rfl, rfl⟩
  · rw [hafter, hs]

/-- A turn that reads nothing takes the course on. -/
theorem Reads.idle (h : Reads workers room source c logs) (hw : who ∈ c.awake)
    (hidle : who = .reader → c.pump.reader ≠ .reading) :
    Reads workers room source (c.after who) (logs ++ (c.pump.turn who).logs) ∧
      (c.after who).pump.effort < c.pump.effort := by
  obtain ⟨hsource, -, -, hclosed, hlogs⟩ := Pump.idles_turn hidle
  have hsource : (c.after who).pump.source = c.pump.source := hsource
  refine h.forward hw (Pump.turn_sifted_of_idle hidle) hlogs ?_ ?_ ?_
  · intro hc
    rw [hsource]
    exact h.spent (hclosed ▸ hc)
  · rw [hsource]
    exact ⟨rfl, rfl⟩
  · rw [hsource, Nat.add_comm]

/-! ## After a failure -/

/-- Of things that are listed for one worker after another, a worker has those listed for it. -/
theorem handledBy_range (share : Nat → List Value) (n i : Nat) :
    handledBy ((List.range n).flatMap fun j => (share j).map (j, ·)) i =
      if i < n then share i else [] := by
  induction n with
  | zero => rfl
  | succ n ih =>
    -- The last list is that of worker `n`.
    have hlast : handledBy ((share n).map (n, ·)) i = if n = i then share n else [] := by
      by_cases hn : n = i
      · simp [handledBy, hn, List.filter_map, Function.comp_def]
      · simp [handledBy, hn, List.filter_map, Function.comp_def]
    rw [List.range_succ, List.flatMap_append, handledBy_append, ih, List.flatMap_singleton, hlast]
    -- The lists of the others are already there, or never come.
    rcases Nat.lt_trichotomy i n with hi | rfl | hi
    · rw [if_pos hi, if_neg (by omega), if_pos (by omega), List.append_nil]
    · rw [if_neg (by omega), if_pos rfl, if_pos (by omega), List.nil_append]
    · rw [if_neg (by omega), if_neg (by omega), if_neg (by omega), List.append_nil]

/-- A worker has the frame in its hand from those that were read for it. -/
theorem Holds.inHand_prefix (h : Holds workers room frames c) {i : Nat} (hi : i < workers) :
    handledBy c.handled i ++ (c.pump.worker i).state.inHand <+:
      frames.filter (Shard.goesTo workers i) := by
  have hpath : handledBy c.handled i ++ (c.pump.worker i).state.inHand <+:
      handledBy c.handled i ++ c.pump.path i := by
    rw [Pump.path, Worker.frames, List.append_assoc]
    exact (List.prefix_append_right_inj _).mpr (List.prefix_append _ _)
  rw [h.order i hi] at hpath
  exact hpath.trans ((List.take_prefix _ _).filter _)

/-- A pump that is sound and closed stays so without the frames in its buffers. -/
theorem sound_relieved {p : Pump} (h : p.Sound) (hc : p.reader.isClosed = true) :
    (p.relieved n).Sound where
  manned := by
    rw [Pump.length_relieved]
    exact h.manned
  -- What is said of the reader holds since it is closed; what is said of a worker does not need its
  -- buffer.
  failure := rfl
  readable := ⟨[], rfl, by simp⟩
  spent _ := rfl
  target i v hv := by
    have hv : p.reader = .sending i v := hv
    rw [hv] at hc
    cases hc
  fits i hi := by
    rw [Pump.length_relieved] at hi
    rw [Pump.worker_relieved]
    obtain ⟨-, hparked, hdone, hlast⟩ := h.fits i hi
    exact ⟨Nat.zero_le _, fun hp => ⟨rfl, (hparked hp).2⟩, fun hd => ⟨rfl, (hdone hd).2⟩, hlast⟩

/-- Without the frames in its buffers, a pump that is closed is one of the frames that its workers
have handled or have in hand. -/
theorem Holds.exists_relieved (h : Holds workers room frames c)
    (hc : c.pump.reader.isClosed = true) :
    ∃ kept : List Value, Holds workers room kept (c.relieved kept.length) ∧
      ∀ i < workers, kept.filter (Shard.goesTo workers i) <+:
        frames.filter (Shard.goesTo workers i) := by
  let inHand (i : Nat) : List Value := (c.pump.worker i).state.inHand
  let kept : List (Nat × Value) :=
    c.handled ++ (List.range workers).flatMap fun i => (inHand i).map (i, ·)
  -- A worker keeps what it has handled and what it has in hand.
  have hkept : ∀ i < workers, handledBy kept i = handledBy c.handled i ++ inHand i := by
    intro i hi
    rw [handledBy_append, handledBy_range, if_pos hi]
  -- So what is kept has been read and goes to the worker that keeps it.
  have hroute : ∀ e ∈ kept, Shard.workerOf workers e.2 = .ok e.1 := by
    intro e he
    rcases List.mem_append.mp he with he | he
    · exact (h.routed e he).2
    · obtain ⟨i, hi, he⟩ := List.mem_flatMap.mp he
      obtain ⟨v, hv, rfl⟩ := List.mem_map.mp he
      have hin := (h.inHand_prefix (List.mem_range.mp hi)).subset (List.mem_append_right _ hv)
      exact Shard.goesTo_iff.mp (List.mem_filter.mp hin).2
  refine ⟨kept.map Prod.snd, ?_, fun i hi => ?_⟩
  · -- The course is sound, as before, but has nothing left to read or to fetch.
    constructor
    case sound => exact sound_relieved h.sound hc
    case crew => exact Pump.length_relieved.trans h.crew
    case room => exact h.room
    case nodup => exact h.nodup
    case awake => exact fun who => (h.awake who).trans Pump.canMove_relieved.symm
    case count => exact h.count
    case range => exact h.range
    case received => exact Nat.le_refl _
    case source =>
      show ([] : List Feed) = ((kept.map Prod.snd).drop (kept.map Prod.snd).length).map .frame
      rw [List.drop_length, List.map_nil]
    -- What a worker still has on its path is in its hand.
    case order =>
      intro i hi
      have hpath : (c.pump.relieved (kept.map Prod.snd).length).path i = inHand i := by
        rw [Pump.path, Pump.worker_relieved, Worker.frames]
        show inHand i ++ [] ++ c.pump.reader.waiting i = inHand i
        rw [Pump.waiting_of_isClosed hc, List.append_nil, List.append_nil]
      show handledBy c.handled i ++ (c.pump.relieved (kept.map Prod.snd).length).path i =
        ((kept.map Prod.snd).take (kept.map Prod.snd).length).filter _
      rw [hpath, List.take_length, ← handledBy_routed hroute, hkept i hi]
  · -- What a worker keeps comes first among the frames that go to it.
    rw [← handledBy_routed hroute, hkept i hi]
    exact h.inHand_prefix hi

/-- What holds of a course once its source has failed: the pump goes on like one of the frames that
are kept. -/
structure Breaks (workers room : Nat) (source : List Feed) (kept : List Value) (c : Course)
    (logs : List LogRecord) : Prop where
  holds : Holds workers room kept (c.relieved kept.length)
  failure : c.pump.failure = (Feed.harvest source).failure
  failed : c.pump.failure.isSome = true
  closed : c.pump.reader.isClosed = true
  logs : logs = (Feed.harvest source).logs
  received : c.pump.received = (Feed.harvest source).frames.length
  /-- What is kept for a worker are the first of the frames for it. -/
  share : ∀ i < workers, kept.filter (Shard.goesTo workers i) <+:
    (Feed.harvest source).frames.filter (Shard.goesTo workers i)

/-- A source that fails at once has no frames to give, so its pump closes like one at the end. -/
theorem close_sifted {f : Failure} {rest : List Feed} (hr : c.pump.reader = .reading)
    (hs : c.pump.source = .failed f :: rest) :
    c.pump.sifted = c.pump.withSource [] ∧
      c.pump.sifted.turn .reader = (c.pump.withSource []).close none := by
  have hsifted : c.pump.sifted = c.pump.withSource [] := by
    rw [Pump.sifted, hs]
    rfl
  refine ⟨hsifted, ?_⟩
  rw [hsifted]
  exact Pump.turn_of_nil (p := c.pump.withSource []) hr rfl

/-- A reader that finds the failure leaves less to do. -/
theorem Reads.effort_fail (h : Reads workers room source c logs) (hw : .reader ∈ c.awake)
    (hr : c.pump.reader = .reading) {f : Failure} {rest : List Feed}
    (hs : c.pump.source = .failed f :: rest) :
    (c.after .reader).pump.effort < c.pump.effort := by
  obtain ⟨hsifted, hclose⟩ := close_sifted hr hs
  -- The course of the frames has less to do, and there is less to read.
  have hless : (c.pump.sifted.turn .reader).pump.effort < c.pump.sifted.effort :=
    h.holds.effort_after_lt hw
  rw [hclose, hsifted] at hless
  have hafter : (c.after .reader).pump.effort =
      (((c.pump.withSource []).close none).pump.withSource rest).effort := by
    show (c.pump.turn .reader).pump.effort = _
    rw [Pump.turn_of_failed hr hs]
    rfl
  have hbefore := Pump.effort_withSource c.pump []
  have hlater := Pump.effort_withSource ((c.pump.withSource []).close none).pump rest
  have hend : ((c.pump.withSource []).close none).pump.source = [] := rfl
  rw [hs, List.length_cons, List.length_nil] at hbefore
  rw [hend, List.length_nil] at hlater
  omega

/-- A reader whose source fails closes, like one whose source has come to its end. -/
theorem Reads.fail (h : Reads workers room source c logs) (hw : .reader ∈ c.awake)
    (hr : c.pump.reader = .reading) {f : Failure} {rest : List Feed}
    (hs : c.pump.source = .failed f :: rest) :
    ∃ kept, Breaks workers room source kept (c.after .reader)
      (logs ++ (c.pump.turn .reader).logs) := by
  have hturn := Pump.turn_of_failed hr hs
  obtain ⟨hsifted, hclose⟩ := close_sifted hr hs
  have hclosed : (c.sifted.after .reader).pump.reader.isClosed = true := by
    show (c.pump.sifted.turn .reader).pump.reader.isClosed = true
    rw [hclose]
    rfl
  obtain ⟨kept, hkept, hshare⟩ := (h.holds.after hw).exists_relieved hclosed
  -- Without what is left to read, it makes no difference how the source ended.
  have hafter : (c.after .reader).relieved kept.length =
      (c.sifted.after .reader).relieved kept.length := by
    show c.afterTurn .reader ((c.pump.turn .reader).relieved _) =
      c.afterTurn .reader ((c.pump.sifted.turn .reader).relieved _)
    rw [hturn, hclose]
    rfl
  have hpump : (c.after .reader).pump = ((c.pump.withSource rest).close (some f)).pump :=
    congrArg Turn.pump hturn
  have hlogs := h.logs
  have hfailure := h.failure
  rw [hs] at hlogs hfailure
  refine ⟨kept, ?_⟩
  constructor
  case holds =>
    rw [hafter]
    exact hkept
  case failure =>
    rw [hpump]
    exact hfailure
  case failed =>
    rw [hpump]
    rfl
  case closed =>
    rw [hpump]
    rfl
  case logs =>
    rw [hturn]
    exact hlogs
  case received =>
    rw [hpump]
    exact h.holds.received_eq (congrArg Pump.source hsifted)
  case share => exact hshare

/-- After a failure a turn goes on like one of the frames that are kept. -/
theorem Breaks.after {kept : List Value} (h : Breaks workers room source kept c logs)
    (hw : who ∈ c.awake) :
    Breaks workers room source kept (c.after who) (logs ++ (c.pump.turn who).logs) ∧
      (c.after who).pump.effort < c.pump.effort := by
  -- A closed reader does not read, so the turn changes nothing that the failure left.
  have hidle : who = .reader → c.pump.reader ≠ .reading := by
    intro _ hr
    have hc := h.closed
    rw [hr] at hc
    cases hc
  obtain ⟨hsource, hreceived, hfailure, hclosed, hlogs⟩ := Pump.idles_turn hidle
  -- The turn is the same without the frames in the buffers.
  have hafter : (c.after who).relieved kept.length = (c.relieved kept.length).after who := by
    show c.afterTurn who ((c.pump.turn who).relieved _) =
      c.afterTurn who ((c.pump.relieved _).turn who)
    rw [Pump.turn_relieved h.failed h.closed]
  constructor
  · constructor
    case holds =>
      rw [hafter]
      exact h.holds.after hw
    case failure => exact hfailure.trans h.failure
    case failed => exact (congrArg Option.isSome hfailure).trans h.failed
    case closed => exact hclosed.trans h.closed
    case logs => rw [hlogs, List.append_nil, h.logs]
    case received => exact hreceived.trans h.received
    case share => exact h.share
  · -- A turn of the kept frames takes effort, and so does this one.
    exact Pump.effort_turn_lt h.failed h.closed
      (Pump.canMove_relieved.mp ((h.holds.awake who).mp hw))

/-! ## Any course -/

/-- A turn takes a course on as long as its source has not failed, or it finds the failure. -/
theorem Reads.after (h : Reads workers room source c logs) (hw : who ∈ c.awake) :
    (Reads workers room source (c.after who) (logs ++ (c.pump.turn who).logs) ∨
        ∃ kept, Breaks workers room source kept (c.after who) (logs ++ (c.pump.turn who).logs)) ∧
      (c.after who).pump.effort < c.pump.effort := by
  -- Only a reader that reads looks at the source; every other turn goes as before.
  by_cases hread : who = .reader ∧ c.pump.reader = .reading
  · obtain ⟨rfl, hr⟩ := hread
    cases hs : c.pump.source with
    | nil => exact (h.close hw hr hs).imp_left .inl
    | cons x rest =>
      cases x with
      | frame v => exact (h.read hw hr hs).imp_left .inl
      | skipped r => exact (h.skip hw hr hs).imp_left .inl
      | failed f => exact ⟨.inr (h.fail hw hr hs), h.effort_fail hw hr hs⟩
  · exact (h.idle hw fun hwho hr => hread ⟨hwho, hr⟩).imp_left .inl

/-- At any time a course is one of frames: of those of the harvest, or of those that are kept. -/
theorem Draws.stands (hworkers : 0 < workers)
    (hkeys : ∀ v ∈ (Feed.harvest source).frames, ∃ key, Shard.keyOf v = .ok key)
    (h : Draws workers room source c logs) :
    Reads workers room source c logs ∨ ∃ kept, Breaks workers room source kept c logs := by
  induction h with
  | start => exact .inl (reads_ofSource hworkers hkeys)
  | turn _ hw ih =>
    -- The one case leads to the other, and there is no way back.
    rcases ih with ih | ⟨kept, ih⟩
    · exact (ih.after hw).1
    · exact .inr ⟨kept, (ih.after hw).1⟩

section

variable (hworkers : 0 < workers)
  (hkeys : ∀ v ∈ (Feed.harvest source).frames, ∃ key, Shard.keyOf v = .ok key)

include hworkers hkeys

/-- A worker handles the first of the frames for it, in the order of the source. -/
theorem Draws.handledBy_prefix (h : Draws workers room source c logs) {i : Nat}
    (hi : i < workers) :
    handledBy c.handled i <+: (Feed.harvest source).frames.filter (Shard.goesTo workers i) := by
  rcases h.stands hworkers hkeys with h | ⟨kept, h⟩
  · exact (List.prefix_append _ _).trans (h.holds.inHand_prefix hi)
  · exact ((List.prefix_append _ _).trans (h.holds.inHand_prefix hi)).trans (h.share i hi)

/-- Until the reader is done somebody can take a turn, and every turn leaves less to do. -/
theorem Draws.goes_on (h : Draws workers room source c logs) :
    (c.pump.reader ≠ .finished → ∃ who, who ∈ c.awake) ∧
      ∀ who ∈ c.awake, (c.after who).pump.effort < c.pump.effort := by
  rcases h.stands hworkers hkeys with h | ⟨kept, h⟩
  · exact ⟨h.holds.exists_awake, fun who hw => (h.after hw).2⟩
  · exact ⟨h.holds.exists_awake, fun who hw => (h.after hw).2⟩

/-- When the reader is done the pump has taken the harvest of its source, and if the source has not
failed every frame is handled once. -/
theorem Draws.finished (h : Draws workers room source c logs) (hr : c.pump.reader = .finished) :
    c.pump.received = (Feed.harvest source).frames.length ∧ logs = (Feed.harvest source).logs ∧
      c.pump.failure = (Feed.harvest source).failure ∧
      (c.pump.failure = none → (c.handled.map Prod.snd).Perm (Feed.harvest source).frames) := by
  rcases h.stands hworkers hkeys with h | ⟨kept, h⟩
  · have hspent := h.spent (by rw [hr]; rfl)
    have hlogs := h.logs
    have hfailure := h.failure
    rw [hspent] at hlogs hfailure
    refine ⟨(h.holds.finished hr).1, (List.append_nil _).symm.trans hlogs,
      h.holds.sound.failure.trans hfailure, fun _ => ?_⟩
    -- Sorted by worker, what was handled and what there was to read are the same.
    refine (perm_handledBy h.holds.range).symm.trans ?_
    rw [List.flatMap_congr fun i hi => h.holds.handledBy_eq hr (List.mem_range.mp hi)]
    exact perm_goesTo hworkers hkeys
  · refine ⟨h.received, h.logs, h.failure, fun hnone => ?_⟩
    have hfailed := h.failed
    rw [hnone] at hfailed
    cases hfailed

/-- Every course can be brought to its end. -/
theorem Draws.exists_finished (h : Draws workers room source c logs) :
    ∃ c' logs', Draws workers room source c' logs' ∧ c'.pump.reader = .finished := by
  -- Whoever is awake may go next, since there is less to do afterwards.
  induction heffort : c.pump.effort using Nat.strongRecOn generalizing c logs with
  | _ n ih =>
    obtain ⟨hawake, hless⟩ := h.goes_on hworkers hkeys
    by_cases hr : c.pump.reader = .finished
    · exact ⟨c, logs, h, hr⟩
    · obtain ⟨who, hw⟩ := hawake hr
      exact ih _ (heffort ▸ hless who hw) (h.turn hw) rfl

end

end Course

end Switchboard
