import Mathlib.Logic.Relation
import Switchboard.Proofs.Scenario.Machine
import Switchboard.Proofs.Session.Dated

/-!
# The effects of steps and instructions

Whatever a step or an instruction does to a machine is a chain of `Effect`s: something is noted, the
session is changed, a thread is started, woken or put to sleep, an observer is added. None of them
moves the time, takes away a thread that is ready or sleeps, or dates a message that enters back
(`Effects.onward`). What may be added as an observer is restricted by a predicate on the steps that
observers perform. So it is for steps (`effects_perform`) and for instructions (`effects_exec`) that
put no message into the cache themselves.
-/

namespace Switchboard.Scenario

/-! ## Steps of observers -/

/-- The step puts a message into the cache that no packet brings. -/
def Step.putsMessage : Step → Bool
  | .put (.message ..) => true
  | _ => false

mutual

/-- An observer that the step adds performs only steps that are let pass, and so do those that it
adds itself. -/
def Step.adds (p : Step → Bool) : Step → Bool
  | .observe _ _ steps => Step.allOnly p steps
  | _ => true

/-- All steps are let pass, and so are those of the observers that they add. -/
def Step.allOnly (p : Step → Bool) : List Step → Bool
  | [] => true
  | s :: ss => p s && s.adds p && Step.allOnly p ss

end

/-- Each of the steps is let pass, and so are those of the observers that it adds. -/
theorem Step.allOnly_iff {p : Step → Bool} {steps : List Step} :
    allOnly p steps = true ↔ ∀ s ∈ steps, p s = true ∧ s.adds p = true := by
  induction steps with
  | nil => simp [allOnly]
  | cons s ss ih => simp [allOnly, ih]

/-- The instruction performs no step that puts a message into the cache, and an observer that it
adds performs only steps that are let pass. -/
def Instr.keepsTo (p : Step → Bool) : Instr → Bool
  | .perform step _ => !step.putsMessage && step.adds p
  | _ => true

/-- The observer performs only steps that are let pass, and so do those that it adds. -/
def Observer.only (p : Step → Bool) : Observer → Bool
  | .scripted _ _ steps => Step.allOnly p steps
  | .logging => true

namespace Machine

/-- All observers perform only steps that are let pass, and so do those that they add. -/
def Only (p : Step → Bool) (m : Machine) : Prop := ∀ o ∈ m.observers, o.only p = true

/-! ## Effects -/

/-- One thing that is done to a machine. -/
inductive Effect (p : Step → Bool) : Machine → Machine → Prop
  | remark (m : Machine) (origin : Origin) (note : Note) : Effect p m (m.remark origin note)
  | log (m : Machine) (rs : List LogRecord) : Effect p m (m.logAll rs)
  | record (m : Machine) (a : Answer) : Effect p m (m.record a)
  | session {m : Machine} {s : Session} (h : m.session.cache.Dated m.clock s.cache) :
      Effect p m { m with session := s }
  | spawn (m : Machine) {id : ThreadId} (code : List Instr) (h : id ≠ .sweeper) :
      Effect p m (m.spawn id code)
  | wake (m : Machine) (ids : List ThreadId) : Effect p m (m.wake ids)
  | sleep {m : Machine} {t : Instant} (id : ThreadId) (h : m.clock ≤ t) :
      Effect p m { m with sleepers := m.sleepers ++ [(t, id)] }
  | observe (m : Machine) {o : Observer} (h : o.only p = true) :
      Effect p m { m with observers := m.observers ++ [o] }
  /-- Something is kept for later: answers, pumps, threads that wait for others, the end. -/
  | keep (m : Machine) (issued : List (Nat × Registration)) (waiters patient : List ThreadId)
      (intakes : List Intake) (failure : Option Failure) :
      Effect p m { m with issued, waiters, patient, intakes, failure }

/-- Any number of things are done to a machine. -/
abbrev Effects (p : Step → Bool) : Machine → Machine → Prop := Relation.ReflTransGen (Effect p)

/-- What no effect changes, and what it only adds to. -/
structure Onward (p : Step → Bool) (m m' : Machine) : Prop where
  clock : m'.clock = m.clock
  ready : m.ready <+: m'.ready
  sleepers : m.sleepers <+: m'.sleepers
  /-- Nobody sleeps until an instant that has passed. -/
  future : (∀ e ∈ m.sleepers, m.clock ≤ e.1) → ∀ e ∈ m'.sleepers, m'.clock ≤ e.1
  sweeper : Table.find? .sweeper m'.threads = Table.find? .sweeper m.threads
  only : m.Only p → m'.Only p
  dated : m.session.cache.Dated m.clock m'.session.cache

/-- A machine goes on with whatever is done to it. -/
theorem Effect.onward {p : Step → Bool} {m m' : Machine} (h : Effect p m m') : Onward p m m' := by
  -- Most effects touch none of these parts.
  have hsame : Onward p m m :=
    ⟨rfl, List.prefix_rfl, List.prefix_rfl, id, rfl, id, .of_same rfl⟩
  cases h with
  | session h => exact { hsame with dated := h }
  | spawn code h =>
    exact { hsame with
      ready := List.prefix_append _ _
      sweeper := Table.find?_put_of_ne h.symm code m.threads }
  | wake ids => exact { hsame with ready := List.prefix_append _ _ }
  -- A new sleeper wakes no earlier than now.
  | sleep id h =>
    refine { hsame with sleepers := List.prefix_append _ _, future := fun hf e he => ?_ }
    rcases List.mem_append.mp he with he | he
    · exact hf e he
    · rw [List.mem_singleton.mp he]
      exact h
  | observe h =>
    refine { hsame with only := fun ho o hin => ?_ }
    rcases List.mem_append.mp hin with hin | hin
    · exact ho o hin
    · exact List.mem_singleton.mp hin ▸ h
  | _ => exact ⟨rfl, List.prefix_rfl, List.prefix_rfl, id, rfl, id, .of_same rfl⟩

/-- A machine goes on with all that is done to it. -/
theorem Effects.onward {p : Step → Bool} {m m' : Machine} (h : Effects p m m') : Onward p m m' := by
  induction h with
  | refl => exact ⟨rfl, List.prefix_rfl, List.prefix_rfl, id, rfl, id, .of_same rfl⟩
  | tail _ he ih =>
    have hstep := he.onward
    exact
      { clock := hstep.clock.trans ih.clock
        ready := ih.ready.trans hstep.ready
        sleepers := ih.sleepers.trans hstep.sleepers
        future := hstep.future ∘ ih.future
        sweeper := hstep.sweeper.trans ih.sweeper
        only := hstep.only ∘ ih.only
        dated := ih.dated.trans (ih.clock ▸ hstep.dated) }

/-! ## What is done on the way -/

section

variable {p : Step → Bool}

/-- A session takes the place of another one. -/
theorem effects_withSession {m : Machine} {s : Session}
    (h : m.session.cache.Dated m.clock s.cache) : Effects p m (m.withSession s) := by
  have hspawn (roots : List Root) (m : Machine) :
      Effects p m (roots.foldl (fun m root => m.spawn (.lane root) [.drain root]) m) := by
    induction roots generalizing m with
    | nil => exact .refl
    | cons root roots ih =>
      exact Relation.ReflTransGen.head (.spawn m _ (by simp)) (ih _)
  exact Relation.ReflTransGen.head (.session h) (hspawn _ _)

/-- A session with the same messages takes the place of another one. -/
theorem effects_withSession_same {m : Machine} {s : Session}
    (h : s.cache.messages = m.session.cache.messages) : Effects p m (m.withSession s) :=
  effects_withSession (.of_same h)

/-- A thread goes to sleep or lets the others go first. -/
theorem effects_sleepFor (m : Machine) (id : ThreadId) (d : Duration) :
    Effects p m (m.sleepFor id d) := by
  unfold sleepFor
  split
  · exact .single (.wake m _)
  · rename_i hd
    have hlater : 0 ≤ d := Int.le_of_lt (Int.not_le.mp hd)
    exact .single (.sleep id (Int.le_add_of_nonneg_right hlater))

/-- A chain of things is done, one for each item of a list, while all observers keep to their
steps. -/
theorem effects_foldl {α : Type} {f : Machine → α → Machine} {as : List α}
    (h : ∀ m, m.Only p → ∀ a ∈ as, Effects p m (f m a)) {m : Machine} (hm : m.Only p) :
    Effects p m (as.foldl f m) := by
  induction as generalizing m with
  | nil => exact .refl
  | cons a as ih =>
    have hfirst := h m hm a List.mem_cons_self
    exact hfirst.trans
      (ih (fun m hm b hb => h m hm b (List.mem_cons_of_mem a hb)) (hfirst.onward.only hm))

/-! ## Steps -/

variable {tell : Report} (ht : ∀ m r l, m.Only p → Effects p m (tell m r l))

include ht

/-- What came of a frame is absorbed. -/
theorem effects_absorb {m : Machine} (hm : m.Only p) {h : Handled}
    (hd : m.session.cache.Dated m.clock h.session.cache) : Effects p m (m.absorb tell h) := by
  -- First comes what the frame changes, with or without the call of a handler.
  have htaken : Effects p m (m.taken h) := by
    cases hc : h.called with
    | none =>
      simp only [taken, hc]
      exact (effects_withSession hd).tail (.log _ _)
    | some call =>
      simp only [taken, hc]
      have hnote : Effects p m (m.remark .packet (.handled call.1 call.2)) := .single (.remark ..)
      exact (hnote.trans (effects_withSession hd)).tail (.log _ _)
  rw [absorb_eq]
  -- A refusal is told to the observers.
  split
  · exact htaken.trans (ht _ _ _ (htaken.onward.only hm))
  · exact htaken

/-- A step is performed that puts no message into the cache, if telling the observers is a chain of
effects. -/
theorem effects_performWith {m : Machine} (hm : m.Only p) {s : Step}
    (hs : s.putsMessage = false) (ha : s.adds p = true) :
    Effects p m (m.performWith tell s).1 := by
  cases s with
  -- A frame changes the cache as its packet does.
  | frame v => exact effects_absorb ht hm (Session.dated_acceptFrame m.clock m.session v)
  | packet q => exact effects_absorb ht hm (Session.dated_acceptPacket m.clock m.session q)
  | listen kind listener scope =>
    have hregistry : Effects p m
        (m.withRegistry (m.session.registry.attach scope kind listener).2) :=
      effects_withSession_same rfl
    exact hregistry.tail (.keep ..)
  | unlisten id =>
    -- A registration that is not there is not taken back.
    simp only [performWith, unlisten]
    split
    · exact .refl
    · exact effects_withSession_same rfl
  | observe name fails steps => exact .single (.observe m ha)
  | observeLogging => exact .single (.observe m rfl)
  | handle type name answer =>
    have hhandlers : Effects p m (m.withSession { m.session with
        handlers := (m.session.handlers.assign type (.custom name answer)).2 }) :=
      effects_withSession_same rfl
    exact hhandlers.tail (.log _ _)
  | dispatch root listeners name =>
    simp only [performWith, dispatch]
    split
    · exact .refl
    · exact effects_withSession_same rfl
  -- The sweep is refused for its time, or drops what is too old.
  | sweep maxAge now =>
    simp only [performWith, sweep]
    split
    · exact .refl
    · rename_i n s' hsweep
      cases maxAge with
      | error f => cases hsweep
      | ok a =>
        exact (effects_withSession (Session.dated_sweep m.clock hsweep)).tail (.log _ _)
  | put i =>
    cases i with
    -- A message that is put is excluded, and everything else is no message.
    | message msg enteredAt => cases hs
    | _ => exact effects_withSession_same rfl
  -- To remove something drops messages at most.
  | remove r =>
    cases r with
    | server id =>
      exact effects_withSession (Cache.Dated.trans (.of_same rfl) (.dropChannels _ _))
    | channel id => exact effects_withSession (.dropChannels m.session.cache [id])
    | message id => exact effects_withSession (.of_sublist List.filter_sublist)
  | evict maxAge now =>
    simp only [performWith, evict]
    split
    · exact .refl
    · rename_i gone cache hc
      cases maxAge with
      | error f => cases hc
      | ok a =>
        obtain ⟨cutoff, -, he⟩ := map_eq_ok.mp hc
        have hcache : cache = (m.session.cache.dropUntil cutoff).2 := by rw [he]
        rw [hcache]
        exact effects_withSession (.of_sublist List.filter_sublist)
  | capacity n => exact effects_withSession_same rfl
  | clear => exact effects_withSession (.of_sublist (List.nil_sublist _))
  | dropScope scope => exact effects_withSession_same rfl
  | close => exact effects_withSession (.of_sublist (List.nil_sublist _))
  | _ => exact .refl

omit ht

/-! ## Observers -/

variable (hp : ∀ s : Step, p s = true → s.putsMessage = false)

include hp

/-- Observers are told, whose steps put no message into the cache. -/
theorem effects_report (depth : Nat) {m : Machine} (hm : m.Only p) (refusal : Refusal)
    (l : Option Listener) : Effects p m (report depth m refusal l) := by
  induction depth generalizing m refusal l with
  | zero => exact .refl
  | succ depth ih =>
    have hsteps {m : Machine} (hm : m.Only p) {steps : List Step}
        (hs : Step.allOnly p steps = true) :
        Effects p m (steps.foldl (fun m s => (m.performWith (report depth) s).1) m) := by
      refine effects_foldl (fun m hm s hin => ?_) hm
      obtain ⟨hpass, hadds⟩ := Step.allOnly_iff.mp hs s hin
      exact effects_performWith (fun m r l hm => ih hm r l) hm (hp s hpass) hadds
    -- The observers that are told are those of the machine at the beginning.
    have htold {os : List Observer} (hos : ∀ o ∈ os, o.only p = true) {m : Machine}
        (hm : m.Only p) :
        Effects p m (os.foldl (tellObserver (report depth) refusal l) m) := by
      refine effects_foldl (fun m hm o hin => ?_) hm
      cases o with
      | logging => exact .single (.log m _)
      | scripted name fails steps =>
        let m₁ := m.remark (originOf refusal.subject) (.observed name refusal l)
        have hnote : Effects p m m₁ := .single (.remark ..)
        have hrest := hnote.trans (hsteps (hnote.onward.only hm) (hos _ hin))
        simp only [tellObserver]
        split
        · exact hrest.tail (.log _ _)
        · exact hrest
    exact htold hm hm

/-- All observers are told, whose steps put no message into the cache. -/
theorem effects_tellAll {m : Machine} (hm : m.Only p) (refusal : Refusal) (l : Option Listener) :
    Effects p m (tellAll m refusal l) :=
  effects_report hp reportDepth hm refusal l

/-- A step is performed that puts no message into the cache. -/
theorem effects_perform {m : Machine} (hm : m.Only p) {s : Step} (hs : s.putsMessage = false)
    (ha : s.adds p = true) : Effects p m (m.perform s).1 :=
  effects_performWith (fun _ r l hm => effects_tellAll hp hm r l) hm hs ha

/-! ## Instructions -/

/-- A listener fails. -/
theorem effects_failCall {m : Machine} (hm : m.Only p) (f : Failure) (l : Listener) (s : Signal)
    (code : List Instr) : Effects p m (m.failCall f l s code).machine := by
  have hlog : Effects p m (m.logAll [.listenerFailed l s.title]) := .single (.log m _)
  exact hlog.trans (effects_tellAll hp (hlog.onward.only hm) _ _)

/-- A listener acts. -/
theorem effects_act {m : Machine} (hm : m.Only p) (id : ThreadId) (a : Action) (l : Listener)
    (s : Signal) (code : List Instr) : Effects p m (m.act id a l s code).machine := by
  -- A call that fails is reported; the other actions are of one effect each.
  cases a with
  | fail message => exact effects_failCall hp hm _ l s code
  | sleep d =>
    simp only [act]
    split
    · exact effects_failCall hp hm _ l s code
    · exact effects_sleepFor m id d
  | look => exact .single (.remark ..)
  | perform step => exact .refl
  | log =>
    cases s with
    | event e => exact .single (.log m _)
    | note name root => exact .refl

/-- A pump takes a turn. -/
theorem effects_takeTurn {m : Machine} (hm : m.Only p) (i : Nat) (intake : Intake) (t : Turn) :
    Effects p m (m.takeTurn i intake t) := by
  have hkeep : Effects p m (logAll { m with
      intakes := m.intakes.set i { intake with pump := t.pump } } t.logs) :=
    Relation.ReflTransGen.tail (.single (.keep m _ _ _ _ _)) (.log _ _)
  unfold takeTurn
  cases t.handles with
  | none => exact hkeep.tail (.wake _ _)
  | some v =>
    have hframe := effects_perform hp (hkeep.onward.only hm) (s := .frame v) rfl rfl
    exact (hkeep.trans hframe).tail (.wake _ _)

/-- A reader takes a turn. -/
theorem effects_read {m : Machine} (hm : m.Only p) (i : Nat) (sink : Sink) (code : List Instr) :
    Effects p m (m.read i sink code).machine := by
  unfold read
  split
  · exact .refl
  · rename_i intake _
    -- The turn is taken, and what it meets is logged.
    have hturn := effects_takeTurn hp hm i intake intake.pump.readerTurn
    dsimp only
    split
    · split
      · exact hturn
      · exact hturn.tail (.log _ _)
    · exact hturn
    · exact hturn
    · exact hturn

/-- A worker takes a turn. -/
theorem effects_work {m : Machine} (hm : m.Only p) (i w : Nat) (code : List Instr) :
    Effects p m (m.work i w code).machine := by
  unfold work
  split
  · exact .refl
  · rename_i intake _
    have hturn := effects_takeTurn hp hm i intake (intake.pump.workerTurn w)
    dsimp only
    split <;> exact hturn

omit hp

/-- A pump is started. -/
theorem effects_consume (m : Machine) (id : ThreadId) (source : List Feed) (paced : Bool)
    (sink : Sink) (code : List Instr) :
    Effects p m (m.consume id source paced sink code).machine := by
  unfold consume
  split
  · exact .refl
  · rename_i workers room _
    -- The workers of the pump are spawned one after another.
    have hspawn (i : Nat) (ws : List Nat) (m : Machine) :
        Effects p m (ws.foldl (fun m w => m.spawn (.worker i w) [.work i w]) m) := by
      induction ws generalizing m with
      | nil => exact .refl
      | cons w ws ih => exact Relation.ReflTransGen.head (.spawn m _ (by simp)) (ih _)
    have hkeep : Effects p m { m with
        intakes := m.intakes ++ [⟨.create workers room source, id, paced⟩] } :=
      .single (.keep m m.issued m.waiters m.patient _ m.failure)
    exact hkeep.trans (hspawn _ _ _)

/-- An answer is handed over. -/
theorem effects_answer (m : Machine) (a : Answer) (sink : Sink) (code : List Instr) :
    Effects p m (m.answer a sink code).machine := by
  cases sink with
  | entry => exact .refl
  | note l root => exact .single (.remark ..)
  | verdict =>
    cases a with
    | failed f => exact .single (.keep m m.issued m.waiters m.patient m.intakes _)
    | count n => exact .single (.log m _)
    | _ => exact .refl

/-- A drain takes a step. -/
theorem effects_drain (m : Machine) (id : ThreadId) (root : Root) (code : List Instr) :
    Effects p m (m.drain id root code).machine := by
  unfold drain
  split
  · exact .refl
  · rename_i move lanes _
    have hlanes : Effects p m { m with session := { m.session with lanes } } :=
      .single (.session (.of_same rfl))
    -- The lane is advanced, and the move is remarked or wakes somebody.
    cases move with
    | call l s => exact hlanes.tail (.remark ..)
    | rest => exact hlanes.tail (.wake _ _)
    | retire =>
      simp only [Flow.machine]
      split
      · exact (hlanes.tail (.wake _ _)).tail (.keep _ _ _ _ _ _)
      · exact hlanes

/-- The sweeper begins. -/
theorem effects_startSweeper (m : Machine) (id : ThreadId) (w : Sweeper) (code : List Instr) :
    Effects p m (m.startSweeper id w code).machine := by
  unfold startSweeper
  split
  · split
    · exact effects_sleepFor m id _
    · exact .refl
  · exact .single (.log m _)

include hp

/-- The sweeper sweeps. -/
theorem effects_sweepAgain {m : Machine} (hm : m.Only p) (id : ThreadId)
    (maxAge interval : Duration) (code : List Instr) :
    Effects p m (m.sweepAgain id maxAge interval code).machine := by
  have hsweep := effects_perform hp hm (s := .sweep (.ok maxAge) none) rfl rfl
  simp only [perform, performWith] at hsweep
  unfold sweepAgain
  -- The sweep comes first, then the sweeper sleeps again.
  refine Relation.ReflTransGen.trans ?_ (effects_sleepFor _ id interval)
  split
  · rename_i m' f h
    rw [h] at hsweep
    exact hsweep.tail (.log _ _)
  · rename_i m' a h
    rw [h] at hsweep
    exact hsweep

/-- An instruction is run that puts no message into the cache. -/
theorem effects_exec {m : Machine} (hm : m.Only p) (id : ThreadId) (code : List Instr) {i : Instr}
    (hi : i.keepsTo p = true) : Effects p m (m.exec id code i).machine := by
  cases i with
  | perform step sink =>
    obtain ⟨hputs, hadds⟩ : step.putsMessage = false ∧ step.adds p = true := by
      simpa [Instr.keepsTo] using hi
    have hstep := effects_perform hp hm hputs hadds
    cases step with
    | consume source paced => exact effects_consume m id source paced sink code
    | idle => exact .refl
    | sleep d =>
      simp only [exec]
      split
      · exact .refl
      · exact effects_sleepFor m id d
    | _ => exact hstep
  | answer a sink => exact effects_answer m a sink code
  | sleep d => exact effects_sleepFor m id d
  | lull => exact .single (.keep m m.issued m.waiters _ m.intakes m.failure)
  | settle =>
    simp only [exec]
    split
    · exact .refl
    · exact .single (.keep m m.issued _ m.patient m.intakes m.failure)
  | read i sink => exact effects_read hp hm i sink code
  | work i w => exact effects_work hp hm i w code
  | act a l s => exact effects_act hp hm id a l s code
  | wake l root => exact .single (.remark ..)
  | drain root => exact effects_drain m id root code
  | sweeper w => exact effects_startSweeper m id w code
  | sweep maxAge interval => exact effects_sweepAgain hp hm id maxAge interval code
  | record a => exact .single (.record m a)
  | log r => exact .single (.log m _)
  | close => exact effects_withSession (.of_sublist (List.nil_sublist _))

end

end Machine

end Switchboard.Scenario
