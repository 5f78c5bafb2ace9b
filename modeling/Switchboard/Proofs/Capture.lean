import Mathlib.Data.List.TakeWhile
import Switchboard.Replay
import Switchboard.Proofs.Json
import Switchboard.Proofs.Pump.Harvest
import Switchboard.Proofs.Text.Blank
import Switchboard.Proofs.Text.Octets

/-!
# Lines of captures

A capture is a list of `entries`: its lines that are not blank, without the blanks at their ends,
each with its number among all lines. A pump that draws from a capture takes the entries in their
order: those that are JSON as frames, and it skips the others with a warning that names the line
(`feed_delivery`).

That goes well for the whole capture unless an entry holds an integer with too many digits. Such an
entry is not skipped like the others that cannot be read: the pump fails at it, and nothing after it
is read.
-/

namespace Switchboard

namespace Capture

/-- A line without the blanks at its ends, and its number. -/
structure Line where
  number : Nat
  body : List Char

namespace Line

/-- The value, if the line is JSON that can be read. -/
def value? (l : Line) : Option Value := (Json.read (some digitLimit) l.body).toOption

/-- The failure of a line that holds an integer with too many digits. -/
def failure? (l : Line) : Option Failure :=
  match Json.read (some digitLimit) l.body with
  | .error (.tooManyDigits n) => some (.tooManyDigits n)
  | _ => none

/-- What the line gives. -/
def feed (path : String) (l : Line) : Feed :=
  match Json.read (some digitLimit) l.body with
  | .ok v => .frame v
  | .error .malformed => .skipped (.lineSkipped l.number path)
  | .error (.tooManyDigits n) => .failed (.tooManyDigits n)

/-- A line is JSON that can be read, or no JSON, or it holds an integer with too many digits. -/
theorem gives (path : String) (l : Line) :
    (∃ v, l.feed path = .frame v ∧ l.value? = some v ∧ l.failure? = none) ∨
      (l.feed path = .skipped (.lineSkipped l.number path) ∧ l.value? = none ∧
        l.failure? = none) ∨
      ∃ f, l.feed path = .failed f ∧ l.value? = none ∧ l.failure? = some f := by
  unfold feed value? failure?
  cases Json.read (some digitLimit) l.body with
  | ok v => exact .inl ⟨v, rfl, rfl, rfl⟩
  | error p =>
    cases p with
    | malformed => exact .inr (.inl ⟨rfl, rfl, rfl⟩)
    | tooManyDigits n => exact .inr (.inr ⟨_, rfl, rfl, rfl⟩)

/-- A line that fails has no value. -/
theorem value?_of_failure? {l : Line} {f : Failure} (h : l.failure? = some f) :
    l.value? = none := by
  rcases l.gives "" with ⟨v, -, -, hnone⟩ | ⟨-, hvalue, -⟩ | ⟨f', -, hvalue, -⟩
  · rw [h] at hnone
    cases hnone
  · exact hvalue
  · exact hvalue

/-- The value of a line can be written. -/
theorem isWritable_of_value? {l : Line} {v : Value} (h : l.value? = some v) :
    v.isWritable = true :=
  Json.Document.isWritable ⟨l.body, eq_ok_of_toOption h⟩

end Line

variable {path : String} {cs : List Char} {ls : List Line}

/-- The lines without the blanks at their ends, numbered from a number on. -/
def numbered (number : Nat) (lines : List (List Char)) : List Line :=
  (lines.zipIdx number).map fun e => ⟨e.2, trim e.1⟩

/-- The lines of a text that are not blank. -/
def entries (cs : List Char) : List Line := (numbered 1 (lines cs)).filter (!·.body.isEmpty)

/-- The lines up to the first that fails. -/
def reached (ls : List Line) : List Line := ls.takeWhile (·.failure?.isNone)

/-- The values of the lines that have one. -/
def frames (ls : List Line) : List Value := ls.filterMap Line.value?

/-- The warnings about the lines that have no value. -/
def warnings (path : String) (ls : List Line) : List LogRecord :=
  (ls.filter (·.value?.isNone)).map fun l => .lineSkipped l.number path

/-! ## What a capture gives -/

/-- A line gives something unless it is blank. -/
theorem lineFeed?_eq (path : String) (number : Nat) (line : List Char) :
    lineFeed? path number line =
      if (trim line).isEmpty then none else some (Line.feed path ⟨number, trim line⟩) := by
  unfold lineFeed? Line.feed
  dsimp only
  split
  · rfl
  · cases Json.read (some digitLimit) (trim line) with
    | ok v => rfl
    | error p => cases p <;> rfl

/-- A capture gives what its entries give. -/
theorem feed_eq (path : String) (cs : List Char) :
    feed path cs = (entries cs).map (Line.feed path) := by
  unfold feed entries
  -- The rest of the lines is counted from the next number on.
  generalize 1 = number
  induction lines cs generalizing number with
  | nil => rfl
  | cons line rest ih =>
    have hnumbered : numbered number (line :: rest) =
        ⟨number, trim line⟩ :: numbered (number + 1) rest := by
      rw [numbered, List.zipIdx_cons]
      rfl
    rw [feedFrom, ih, hnumbered, List.filter_cons, lineFeed?_eq]
    by_cases hblank : (trim line).isEmpty = true
    · simp [hblank]
    · simp [hblank]

/-- What comes of reading lines one after another. -/
theorem harvest_map (path : String) (ls : List Line) :
    Feed.harvest (ls.map (Line.feed path)) =
      ⟨frames (reached ls), warnings path (reached ls), ls.findSome? Line.failure?⟩ := by
  induction ls with
  | nil => rfl
  | cons l ls ih =>
    rw [List.map_cons, reached, List.takeWhile_cons, List.findSome?_cons]
    -- Only a line that fails keeps the reading from going on with the others.
    rcases l.gives path with ⟨v, hfeed, hvalue, hfailure⟩ | ⟨hfeed, hvalue, hfailure⟩ |
      ⟨f, hfeed, hvalue, hfailure⟩
    · rw [hfeed, hfailure, Feed.harvest, ih]
      simp [hvalue, frames, warnings, reached]
    · rw [hfeed, hfailure, Feed.harvest, ih]
      simp [hvalue, frames, warnings, reached]
    · rw [hfeed, hfailure]
      rfl

/-- What comes of reading a capture. -/
theorem harvest_feed (path : String) (cs : List Char) :
    Feed.harvest (feed path cs) = ⟨frames (reached (entries cs)),
      warnings path (reached (entries cs)), (entries cs).findSome? Line.failure?⟩ := by
  rw [feed_eq, harvest_map]

/-- Every frame of a capture has a worker. -/
theorem exists_keyOf (path : String) (cs : List Char) :
    ∀ v ∈ (Feed.harvest (feed path cs)).frames, ∃ key, Shard.keyOf v = .ok key := by
  intro v hv
  rw [harvest_feed] at hv
  obtain ⟨l, -, hvalue⟩ := List.mem_filterMap.mp hv
  exact Shard.exists_keyOf (l.isWritable_of_value? hvalue)

/-- Every line is reached if none fails. -/
theorem reached_eq_self (h : ∀ l ∈ ls, l.failure? = none) : reached ls = ls :=
  List.takeWhile_eq_self_iff.mpr fun l hl => by rw [h l hl]; rfl

/-! ## Replays -/

/-- The whole capture is replayed: nothing has failed, the lines that are JSON are read as frames
and handled once each, and there is one warning for every other line. -/
structure Replayed (path : String) (cs : List Char) (c : Course) (logs : List LogRecord) :
    Prop where
  failure : c.pump.failure = none
  received : c.pump.received = (frames (entries cs)).length
  handled : (c.handled.map Prod.snd).Perm (frames (entries cs))
  logs : logs = warnings path (entries cs)

variable {workers room : Nat} {c : Course} {logs : List LogRecord}

/-- Whatever the order of the turns, until the reader is done somebody can take one and every turn
leaves less to do; a worker handles the frames for it in the order of the lines. In the end the
lines up to the first that holds an integer with too many digits are read, each that is JSON as a
frame and each other with a warning, and if there is such a line the pump has failed for it. So the
whole capture is replayed exactly when there is no such line. -/
theorem feed_delivery (hworkers : 0 < workers)
    (h : Course.Draws workers room (feed path cs) c logs) :
    (c.pump.reader ≠ .finished → ∃ who, who ∈ c.awake) ∧
      (∀ who ∈ c.awake, (c.after who).pump.effort < c.pump.effort) ∧
      (∀ i < workers, handledBy c.handled i <+:
        (frames (reached (entries cs))).filter (Shard.goesTo workers i)) ∧
      (c.pump.reader = .finished →
        c.pump.received = (frames (reached (entries cs))).length ∧
          logs = warnings path (reached (entries cs)) ∧
          c.pump.failure = (entries cs).findSome? Line.failure? ∧
          (Replayed path cs c logs ↔ ∀ l ∈ entries cs, l.failure? = none)) := by
  -- Every frame of a capture is JSON, so it has a key.
  have hkeys := exists_keyOf path cs
  obtain ⟨hawake, hless⟩ := h.goes_on hworkers hkeys
  refine ⟨hawake, hless, fun i hi => ?_, fun hr => ?_⟩
  · -- The order at each worker.
    have hprefix := h.handledBy_prefix hworkers hkeys hi
    rwa [harvest_feed] at hprefix
  · -- What holds once the reader is done.
    obtain ⟨hreceived, hlogs, hfailure, hhandled⟩ := h.finished hworkers hkeys hr
    rw [harvest_feed] at hreceived hlogs hfailure hhandled
    -- A whole replay has no failure, so no line has one.
    refine ⟨hreceived, hlogs, hfailure, fun hreplayed => ?_, fun hall => ?_⟩
    · rw [hreplayed.failure] at hfailure
      exact List.findSome?_eq_none_iff.mp hfailure.symm
    · -- Without such a line all lines are reached.
      have hnone := List.findSome?_eq_none_iff.mpr hall
      rw [hnone] at hfailure
      rw [reached_eq_self hall] at hreceived hlogs hhandled
      exact ⟨hfailure, hreceived, hhandled hfailure, hlogs⟩

/-- A capture with a blank line and one that is no JSON. -/
def ragged : List Char := "[]\n\nnope\n 1 \n".toList

/-- The frames before and after a line that is no JSON are replayed. -/
theorem feed_delivery_ragged : ∃ (c : Course) (logs : List LogRecord),
    Course.Draws 1 0 (feed "capture.jsonl" ragged) c logs ∧ c.pump.reader = .finished ∧
      Replayed "capture.jsonl" ragged c logs ∧ c.pump.received = 2 ∧
      logs = [.lineSkipped 3 "capture.jsonl"] := by
  -- Some course runs to its end, whatever the scheduler does.
  have hkeys := exists_keyOf "capture.jsonl" ragged
  have hstart : Course.Draws 1 0 (feed "capture.jsonl" ragged) _ [] := .start
  obtain ⟨c, logs, hdraws, hr⟩ := hstart.exists_finished Nat.one_pos hkeys
  -- What this capture holds.
  have hall : ∀ l ∈ entries ragged, l.failure? = none := by decide +kernel
  have hframes : (frames (entries ragged)).length = 2 := by decide +kernel
  have hwarnings : warnings "capture.jsonl" (entries ragged) =
      [.lineSkipped 3 "capture.jsonl"] := by decide +kernel
  -- The general statement, for this course.
  obtain ⟨-, -, -, hfinished⟩ := feed_delivery Nat.one_pos hdraws
  obtain ⟨-, -, -, hreplayed⟩ := hfinished hr
  have hreplayed := hreplayed.mpr hall
  exact ⟨c, logs, hdraws, hr, hreplayed, hreplayed.received.trans hframes,
    hreplayed.logs.trans hwarnings⟩

/-- A capture with a row of digits between two frames. -/
def parted (row : List Char) : List Char := [['[', ']'], row, ['[', ']']].flatMap (· ++ ['\n'])

section

variable {row : List Char} (hrow : ∀ c ∈ row, c = '1') (hlong : digitLimit < row.length)

include hrow hlong

/-- No line of the capture is blank. -/
theorem entries_parted :
    entries (parted row) = [⟨1, ['[', ']']⟩, ⟨2, row⟩, ⟨3, ['[', ']']⟩] := by
  -- The row is one line, with the other two around it.
  have hne : row ≠ [] := List.ne_nil_of_length_pos (Nat.zero_lt_of_lt hlong)
  have hlines : lines (parted row) = [['[', ']'], row, ['[', ']']] := by
    refine lines_flatMap (List.forall_mem_cons.mpr ⟨by decide, List.forall_mem_cons.mpr ⟨?_, ?_⟩⟩)
    · exact ⟨fun hin => absurd (hrow _ hin) (by decide), fun hin => absurd (hrow _ hin) (by decide)⟩
    · simp
  -- Nothing is trimmed off a line.
  have htrim : trim row = row := by
    refine trim_eq_self_iff.mpr ⟨fun c hc => ?_, fun c hc => ?_⟩
    · rw [hrow c (List.mem_of_head? hc)]
      rfl
    · rw [hrow c (List.mem_of_getLast? hc)]
      rfl
  have hframe : trim ['[', ']'] = ['[', ']'] := by decide
  rw [entries, hlines]
  simp [numbered, htrim, hframe, hne]

/-- A row of too many digits fails. -/
theorem failure?_row (number : Nat) :
    Line.failure? ⟨number, row⟩ = some (.tooManyDigits row.length) := by
  cases row with
  | nil => cases hlong
  | cons c rest =>
    obtain ⟨rfl, hrest⟩ := List.forall_mem_cons.mp hrow
    have hdigits : ∀ c ∈ rest, (asciiDigit? c).isSome = true := by
      intro c hc
      rw [hrest c hc]
      rfl
    rw [Line.failure?, Json.read_of_digits hdigits (Nat.le_of_lt_succ hlong)]
    rfl

/-- Both frames are among the entries of the capture. -/
theorem frames_parted : frames (entries (parted row)) = [.list [], .list []] := by
  have hvalue : Line.value? ⟨2, row⟩ = none :=
    Line.value?_of_failure? (failure?_row hrow hlong 2)
  rw [entries_parted hrow hlong, frames, List.filterMap_cons, List.filterMap_cons, hvalue]
  decide +kernel

/-- Reading the capture ends at the row, after the first frame. -/
theorem harvest_parted : Feed.harvest (feed path (parted row)) =
    ⟨[.list []], [], some (.tooManyDigits row.length)⟩ := by
  -- Only the row fails, and the line before it is a frame.
  have hfirst : Line.failure? ⟨1, ['[', ']']⟩ = none := by decide
  have hsecond := failure?_row hrow hlong 2
  have hvalue : Line.value? ⟨1, ['[', ']']⟩ = some (.list []) := by decide +kernel
  have hreached : reached (entries (parted row)) = [⟨1, ['[', ']']⟩] := by
    rw [entries_parted hrow hlong, reached, List.takeWhile_cons, hfirst, List.takeWhile_cons,
      hsecond]
    rfl
  rw [harvest_feed, hreached, entries_parted hrow hlong, List.findSome?_cons, hfirst,
    List.findSome?_cons, hsecond]
  simp [frames, warnings, hvalue]

end

/-- An integer with too many digits stops the replay: the frame after it is not read. -/
theorem feed_stopped : ∃ (cs : List Char) (c : Course) (logs : List LogRecord),
    cs = parted (List.replicate 4301 '1') ∧
      Course.Draws 1 0 (feed "capture.jsonl" cs) c logs ∧ c.pump.reader = .finished ∧
      c.pump.failure = some (.tooManyDigits 4301) ∧ c.pump.received = 1 ∧ logs = [] ∧
      frames (entries cs) = [.list [], .list []] ∧ ¬ Replayed "capture.jsonl" cs c logs := by
  -- The row is not written out, lest its characters be counted one by one.
  obtain ⟨row, heq⟩ : ∃ row, row = List.replicate 4301 '1' := ⟨_, rfl⟩
  have hrow : ∀ c ∈ row, c = '1' := by
    intro c hc
    rw [heq] at hc
    exact List.eq_of_mem_replicate hc
  have hlength : row.length = 4301 := by rw [heq, List.length_replicate]
  have hlong : digitLimit < row.length := by
    rw [hlength]
    decide
  have hkeys := exists_keyOf "capture.jsonl" (parted row)
  have hstart : Course.Draws 1 0 (feed "capture.jsonl" (parted row)) _ [] := .start
  obtain ⟨c, logs, hdraws, hr⟩ := hstart.exists_finished Nat.one_pos hkeys
  obtain ⟨hreceived, hlogs, hfailed, -⟩ := hdraws.finished Nat.one_pos hkeys hr
  rw [harvest_parted hrow hlong] at hreceived hlogs hfailed
  rw [hlength] at hfailed
  refine ⟨parted row, c, logs, by rw [heq], hdraws, hr, hfailed, hreceived, hlogs,
    frames_parted hrow hlong, fun hreplayed => ?_⟩
  rw [hreplayed.failure] at hfailed
  cases hfailed

end Capture

end Switchboard
