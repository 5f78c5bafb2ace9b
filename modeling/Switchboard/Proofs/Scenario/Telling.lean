import Switchboard.Proofs.Scenario.Journal

/-!
# Who is told of the failure of a listener

`tellings` are the failures of listeners that observers with a script have found in the journal, and
`loggings` counts the records of observers that log. Whatever is performed on the way tells nobody
of the failure of a listener (`aside_perform`). So the failure of a listener is told once to each
observer that there was, in the order in which they were added, whether observers fail or not
(`told_report`).
-/

namespace Switchboard

/-- The subject is a frame or a packet. -/
def Subject.isExternal : Subject → Bool
  | .frame _ | .packet _ => true
  | .signal _ => false

namespace Session

/-- What is refused of a frame or a packet concerns it, and no observer has logged yet. -/
structure External (h : Handled) : Prop where
  refusal : ∀ r, h.refusal = some r → r.subject.isExternal = true
  logs : ∀ kind message, .pipelineFailed kind message ∉ h.logs

/-- Handling a packet is concluded. -/
theorem external_conclude (s : Session) (p : Packet) {logs : List LogRecord}
    (hl : ∀ kind message, .pipelineFailed kind message ∉ logs) (f : Option Failure) :
    External (s.conclude p logs f) := by
  cases f with
  | none => exact ⟨fun r h => (nomatch h), hl⟩
  | some f =>
    refine ⟨fun r h => Option.some.inj h ▸ rfl, fun kind message hin => ?_⟩
    rcases List.mem_append.mp hin with hin | hin
    · exact hl kind message hin
    · cases f <;> simp [failureRecord] at hin

/-- What is logged of a notice is logged by no observer. -/
theorem not_mem_noticeRecords (n : Notice) (failure : Option Failure) (kind message : String) :
    .pipelineFailed kind message ∉ if failure.isNone then noticeRecords n else [] := by
  split
  · cases n <;> simp [noticeRecords]
  · simp

/-- A packet is handled. -/
theorem external_acceptPacket (now : Instant) (s : Session) (p : Packet) :
    External (s.acceptPacket now p) := by
  unfold acceptPacket
  split
  · exact external_conclude s p (by split <;> simp) none
  · unfold acceptTopic
    split
    · exact external_conclude s p (by simp) _
    · rename_i n _
      exact external_conclude _ p (not_mem_noticeRecords n _) _
  · rename_i name answer _
    have h : External (s.conclude p [] (answer p)) := external_conclude s p (by simp) (answer p)
    exact ⟨h.refusal, h.logs⟩

/-- A frame is handled. -/
theorem external_acceptFrame (now : Instant) (s : Session) (v : Value) :
    External (s.acceptFrame now v) := by
  unfold acceptFrame
  split
  · exact ⟨fun r h => Option.some.inj h ▸ rfl, by simp⟩
  · exact ⟨fun r h => (nomatch h), by simp⟩
  · exact external_acceptPacket now s _

/-- Nothing that is logged of a frame or a packet is logged by an observer. -/
theorem External.not_isObserved {h : Handled} (hh : External h) :
    ∀ r ∈ h.logs, r.isObserved = false := by
  intro r hr
  cases r with
  | pipelineFailed kind message => exact absurd hr (hh.logs kind message)
  | _ => rfl

end Session

namespace Scenario

/-- The observer logs. -/
def Observer.logs : Observer → Bool
  | .scripted .. => false
  | .logging => true

/-- What an observer finds in the journal when it is told, if it has a script. -/
def Observer.telling (refusal : Refusal) (l : Listener) :
    Observer → Option (String × Refusal × Listener)
  | .scripted name _ _ => some (name, refusal, l)
  | .logging => none

namespace Machine

/-- The failures of listeners of which observers with a script were told, in order. -/
def tellings (m : Machine) : List (String × Refusal × Listener) :=
  m.journal.reverse.filterMap fun r =>
    match r.note with
    | .observed name refusal (some l) => some (name, refusal, l)
    | _ => none

/-- The number of records of observers that log, of a failure with a signal. -/
def loggings (m : Machine) (s : Signal) (message : String) : Nat :=
  m.logs.count (.pipelineFailed s.title message)

/-! ## What happens on the way -/

/-- Nobody is told of the failure of a listener. -/
structure Aside (m m' : Machine) : Prop where
  tellings : m'.tellings = m.tellings
  loggings : ∀ s message, m'.loggings s message = m.loggings s message

namespace Aside

variable {m m₁ m' : Machine}

/-- Neither the journal nor the log changes. -/
theorem of_same (hj : m'.journal = m.journal) (hl : m'.logs = m.logs) : Aside m m' :=
  ⟨by rw [Machine.tellings, hj, Machine.tellings], fun s message => by
    rw [Machine.loggings, hl, Machine.loggings]⟩

/-- One thing happens after another. -/
theorem trans (h : Aside m m₁) (h' : Aside m₁ m') : Aside m m' :=
  ⟨h'.tellings.trans h.tellings, fun s message =>
    (h'.loggings s message).trans (h.loggings s message)⟩

/-- Something comes into the journal and the log that no observer is told of. -/
theorem of_leaves {js : List Remark} {rs : List LogRecord} (h : Leaves m m' js rs)
    (hu : Untold js rs) : Aside m m' where
  tellings := by
    -- Nothing in the journal is about an observer and a listener.
    have hnone : js.filterMap (fun r => match r.note with
        | .observed name refusal (some l) => some (name, refusal, l)
        | _ => none) = [] := by
      refine List.filterMap_eq_nil_iff.mpr fun j hj => ?_
      have hnote := hu.remarks j hj
      split
      · rename_i hobserved
        rw [hobserved] at hnote
        cases hnote
      · rfl
    rw [Machine.tellings, h.journal, List.reverse_append, List.reverse_reverse,
      List.filterMap_append, hnone, List.append_nil]
    rfl
  -- Nothing in the log is a failure that an observer has logged.
  loggings s message := by
    have hnone : rs.count (.pipelineFailed s.title message) = 0 :=
      List.count_eq_zero.mpr fun hin => nomatch hu.records _ hin
    simp [Machine.loggings, h.logs, hnone]

/-- Something is logged that is no record of an observer. -/
theorem logAll (m : Machine) {rs : List LogRecord} (h : ∀ r ∈ rs, r.isObserved = false) :
    Aside m (m.logAll rs) := .of_leaves (.logAll m rs) ⟨by simp, h⟩

/-- A chain of things that happen on the way. -/
theorem foldl {α : Type} {f : Machine → α → Machine} (h : ∀ m a, Aside m (f m a)) (m : Machine)
    (as : List α) : Aside m (as.foldl f m) := by
  induction as generalizing m with
  | nil => exact .of_same rfl rfl
  | cons a as ih => exact (h m a).trans (ih (f m a))

end Aside

/-- What came of a frame or a packet is absorbed. -/
theorem aside_absorb {tell : Report}
    (ht : ∀ m r, r.subject.isExternal = true → Aside m (tell m r none)) (m : Machine) {h : Handled}
    (hh : Session.External h) : Aside m (m.absorb tell h) := by
  have htaken : Aside m (m.taken h) :=
    .of_leaves (leaves_taken m h) ⟨not_isObserved_callRemarks m h, hh.not_isObserved⟩
  rw [absorb_eq]
  split
  · rename_i r hr
    exact htaken.trans (ht _ _ (hh.refusal r hr))
  · exact htaken

/-- A step is performed, and nobody is told of the failure of a listener if nobody is when a frame
or a packet is refused. -/
theorem aside_performWith {tell : Report}
    (ht : ∀ m r, r.subject.isExternal = true → Aside m (tell m r none)) (m : Machine) (s : Step) :
    Aside m (m.performWith tell s).1 := by
  cases hs : s.feeds with
  | true =>
    cases s with
    | frame v => exact aside_absorb ht m (Session.external_acceptFrame m.clock m.session v)
    | packet p => exact aside_absorb ht m (Session.external_acceptPacket m.clock m.session p)
    | _ => cases hs
  | false =>
    obtain ⟨rs, h, hu⟩ := leaves_performWith tell m hs
    exact .of_leaves h hu

/-- The title of a signal is none of the words for other subjects. -/
theorem subjectKind_ne {subject : Subject} (h : subject.isExternal = true) (s : Signal) :
    subjectKind subject ≠ s.title := by
  -- The words for packets and for the kinds of values.
  have hkind : subjectKind subject ∈
      ["Packet", "NoneType", "bool", "int", "float", "str", "list", "dict"] := by
    cases subject with
    | signal s => cases h
    | packet p => simp [subjectKind]
    | frame v =>
      cases v with
      | scalar x => cases x <;> simp [subjectKind, Value.kindName]
      | _ => simp [subjectKind, Value.kindName]
  intro he
  -- None of them is the title of an event or of a note.
  rw [he] at hkind
  cases s with
  | event e => cases hk : e.kind <;> simp [Signal.title, EventKind.title, hk] at hkind
  | note name root => simp [Signal.title] at hkind

/-- A refusal of a frame or a packet is told. -/
theorem aside_report (depth : Nat) (m : Machine) {r : Refusal}
    (hr : r.subject.isExternal = true) : Aside m (report depth m r none) := by
  -- The steps of an observer tell of frames and packets again, one level deeper.
  induction depth generalizing m r with
  | zero => exact .of_same rfl rfl
  | succ depth ih =>
    refine Aside.foldl (fun m o => ?_) m m.observers
    cases o with
    -- The logging observer writes a title that is none of a signal.
    | logging =>
      refine ⟨rfl, fun s message => ?_⟩
      have hne := subjectKind_ne hr s
      simp [loggings, tellObserver, logAll, hne]
    | scripted name fails steps =>
      have hremark : Aside m (m.remark (originOf r.subject) (.observed name r none)) :=
        ⟨by simp [tellings, remark], fun _ _ => rfl⟩
      -- What an observer does after its remark is aside, too.
      have hsteps := hremark.trans
        (Aside.foldl (aside_performWith fun m r hr => ih m hr) _ steps)
      simp only [tellObserver]
      split
      · exact hsteps.trans (.logAll _ (by simp [LogRecord.isObserved]))
      · exact hsteps

/-! ## The failure of a listener -/

/-- The failure of a listener with a signal was told once to each of some observers, in order. -/
structure Told (f : Failure) (s : Signal) (l : Listener) (observers : List Observer)
    (m m' : Machine) : Prop where
  tellings : m'.tellings = m.tellings ++ observers.filterMap (Observer.telling ⟨f, .signal s⟩ l)
  loggings : m'.loggings s f.message = m.loggings s f.message + observers.countP Observer.logs

/-- The failure of a listener is told to each observer, whether it fails or not. -/
theorem told_observers (depth : Nat) (f : Failure) (s : Signal) (l : Listener)
    (observers : List Observer) (m : Machine) :
    Told f s l observers m
      (observers.foldl (tellObserver (report depth) ⟨f, .signal s⟩ (some l)) m) := by
  induction observers generalizing m with
  | nil => exact ⟨by simp, by simp⟩
  | cons o os ih =>
    rw [List.foldl_cons]
    have hrest := ih (tellObserver (report depth) ⟨f, .signal s⟩ (some l) m o)
    cases o with
    | logging =>
      refine ⟨?_, ?_⟩
      · rw [hrest.tellings, List.filterMap_cons]
        rfl
      · rw [hrest.loggings, List.countP_cons]
        simp [tellObserver, loggings, logAll, subjectKind, Observer.logs]
        omega
    | scripted name fails steps =>
      -- The observer is told, and what it does then is on the way.
      let m₁ := m.remark (originOf (.signal s)) (.observed name ⟨f, .signal s⟩ (some l))
      have hsteps : Aside m₁ (tellObserver (report depth) ⟨f, .signal s⟩ (some l) m
          (.scripted name fails steps)) := by
        have hfold := Aside.foldl
          (aside_performWith fun m r hr => aside_report depth m hr) m₁ steps
        simp only [tellObserver]
        split
        · exact hfold.trans (.logAll _ (by simp [LogRecord.isObserved]))
        · exact hfold
      have htold : m₁.tellings = m.tellings ++ [(name, ⟨f, .signal s⟩, l)] := by
        simp [m₁, tellings, remark]
      refine ⟨?_, ?_⟩
      · rw [hrest.tellings, hsteps.tellings, htold, List.append_assoc, List.filterMap_cons]
        rfl
      · rw [hrest.loggings, hsteps.loggings, List.countP_cons]
        rfl

/-- The failure of a listener is told to each observer that there is, in order. -/
theorem told_tellAll (m : Machine) (f : Failure) (s : Signal) (l : Listener) :
    Told f s l m.observers m (tellAll m ⟨f, .signal s⟩ (some l)) :=
  told_observers _ f s l m.observers m

/-! ## Actions that fail -/

/-- The action of a listener fails. -/
inductive Fails : Action → Failure → Prop
  | fail (message : String) : Fails (.fail message) (.thrown message)
  | sleep {d : Duration} (h : d < 0) : Fails (.sleep d) .negativeSleep

/-- When an action of a listener fails, every observer is told of it once, and the thread goes on
with its drain. -/
theorem exec_fails {a : Action} {f : Failure} (h : Fails a f) (m : Machine) (id : ThreadId)
    (l : Listener) (s : Signal) (code : List Instr) :
    ∃ m', m.exec id code (.act a l s) = .go m' (code.dropWhile (!isDrain ·)) ∧
      Told f s l m.observers m m' := by
  -- The record of the listener's failure is not among those that are counted.
  have htold : Told f s l m.observers m
      (tellAll (m.logAll [.listenerFailed l s.title]) ⟨f, .signal s⟩ (some l)) := by
    have h := told_tellAll (m.logAll [.listenerFailed l s.title]) f s l
    have haside : Aside m (m.logAll [.listenerFailed l s.title]) :=
      .logAll m (by simp [LogRecord.isObserved])
    exact ⟨by rw [h.tellings, haside.tellings]; rfl, by rw [h.loggings, haside.loggings]; rfl⟩
  refine ⟨_, ?_, htold⟩
  cases h with
  | fail message => rfl
  | sleep hd => simp only [exec, act, if_pos hd, failCall]

end Machine

end Scenario

end Switchboard
