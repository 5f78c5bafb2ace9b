import Switchboard.Proofs.Attempt
import Switchboard.Proofs.Scenario.Machine
import Switchboard.Proofs.Session.Change
import Switchboard.Scenario

/-!
# What a scenario does to its session

Whatever a scenario does, it changes its session in no other ways than `Session.Change` lists: a
step that is performed (`reaches_perform`), an instruction of a thread (`reaches_exec`), and whole
runs (`reaches_run`). So an invariant of these changes holds in every state of every scenario.
-/

namespace Switchboard.Scenario.Machine

/-- The session of a machine becomes that of another one. -/
def Reaches (m m' : Machine) : Prop := m.session.Reaches m'.session

/-- Nothing is done to the session. -/
theorem Reaches.of_same {m m' : Machine} (h : m'.session = m.session) : Reaches m m' := by
  rw [Reaches, h]

/-- One thing is done to the session after another. -/
theorem Reaches.trans {m m₁ m₂ : Machine} (h : Reaches m m₁) (h' : Reaches m₁ m₂) :
    Reaches m m₂ :=
  Relation.ReflTransGen.trans h h'

/-- A session that has been changed takes the place of the one before. -/
theorem reaches_withSession (m : Machine) {s : Session} (h : m.session.Change s) :
    Reaches m (m.withSession s) := by
  rw [Reaches, withSession_session]
  exact .single h

/-- A chain of changes, one for each item of a list. -/
theorem reaches_foldl {α : Type} {f : Machine → α → Machine} (h : ∀ m a, Reaches m (f m a))
    (m : Machine) (as : List α) : Reaches m (as.foldl f m) := by
  induction as generalizing m with
  | nil => exact .of_same rfl
  | cons a as ih => exact (h m a).trans (ih (f m a))

/-! ## Steps -/

/-- Taking what came of a frame changes the session as the handling did, and as the observers do. -/
theorem reaches_absorb {tell : Report} (ht : ∀ m r l, Reaches m (tell m r l)) (m : Machine)
    {h : Handled} (hh : m.session.Change h.session) : Reaches m (m.absorb tell h) := by
  have htaken : Reaches m (m.taken h) := by
    rw [Reaches, taken_session]
    exact .single hh
  rw [absorb_eq]
  split
  · exact htaken.trans (ht _ _ _)
  · exact htaken

/-- A step that is performed changes the session in the listed ways, if telling the observers
does. -/
theorem reaches_performWith {tell : Report} (ht : ∀ m r l, Reaches m (tell m r l)) (m : Machine)
    (s : Step) : Reaches m (m.performWith tell s).1 := by
  cases s with
  | frame v => exact reaches_absorb ht m (.frame m.clock m.session v)
  | packet p => exact reaches_absorb ht m (.packet m.clock m.session p)
  | dispatch root listeners name =>
    simp only [performWith, dispatch]
    split
    · exact .of_same rfl
    · rename_i lanes h
      exact reaches_withSession m (.submit h)
  | sweep maxAge now =>
    simp only [performWith, sweep]
    split
    · exact .of_same rfl
    · rename_i n s hs
      cases maxAge with
      | error f => cases hs
      | ok a => exact reaches_withSession m (.sweep hs)
  | listen kind listener scope =>
    exact reaches_withSession m (.attach m.session scope kind listener)
  | unlisten id =>
    simp only [performWith, unlisten]
    split
    · exact .of_same rfl
    · exact reaches_withSession m (.detach m.session _)
  | handle type name answer =>
    exact reaches_withSession m (.assign m.session type (.custom name answer))
  | put i =>
    cases i with
    | server g => exact reaches_withSession m (.keepServer m.session g)
    | channel ch => exact reaches_withSession m (.keepChannel m.session ch)
    | user u => exact reaches_withSession m (.keepUser m.session u)
    | message msg enteredAt => exact reaches_withSession m (.keepMessage m.session _)
  | remove r =>
    cases r with
    | server id => exact reaches_withSession m (.dropServer m.session id)
    | channel id => exact reaches_withSession m (.dropChannel m.session id)
    | message id => exact reaches_withSession m (.dropMessage m.session id)
  | evict maxAge now =>
    simp only [performWith, evict]
    split
    · exact .of_same rfl
    · rename_i gone cache hc
      cases maxAge with
      | error f => cases hc
      | ok a =>
        -- The messages go, and nothing else of the session changes.
        obtain ⟨cutoff, -, he⟩ := map_eq_ok.mp hc
        have hcache : cache = (m.session.cache.dropUntil cutoff).2 := by rw [he]
        rw [hcache]
        exact reaches_withSession m (.dropUntil m.session cutoff)
  | capacity n => exact reaches_withSession m (.capacity m.session n)
  | clear => exact reaches_withSession m (.clear m.session)
  | dropScope scope => exact reaches_withSession m (.dropScope m.session scope)
  | close => exact reaches_withSession m (.close m.session)
  | _ => exact .of_same rfl

/-- What observers do changes the session in the listed ways. -/
theorem reaches_report (depth : Nat) (m : Machine) (refusal : Refusal) (l : Option Listener) :
    Reaches m (report depth m refusal l) := by
  -- The steps of an observer report their refusals to the observers, one level deeper.
  induction depth generalizing m refusal l with
  | zero => exact .of_same rfl
  | succ depth ih =>
    refine reaches_foldl (fun m o => ?_) m m.observers
    cases o with
    | scripted name fails steps =>
      have hsteps : Reaches m _ := reaches_foldl (reaches_performWith ih)
        (m.remark (originOf refusal.subject) (.observed name refusal l)) steps
      simp only [tellObserver]
      split
      · exact hsteps
      · exact hsteps
    | logging => exact .of_same rfl

/-- A step that is performed changes the session in the listed ways. -/
theorem reaches_perform (m : Machine) (s : Step) : Reaches m (m.perform s).1 :=
  reaches_performWith (reaches_report reportDepth) m s

/-! ## Instructions -/

/-- A turn of a pump does what its frame does. -/
theorem reaches_takeTurn (m : Machine) (i : Nat) (intake : Intake) (t : Turn) :
    Reaches m (m.takeTurn i intake t) := by
  cases hv : t.handles with
  | none =>
    simp only [takeTurn, hv]
    exact .of_same rfl
  | some v =>
    simp only [takeTurn, hv]
    exact reaches_perform (Machine.logAll
      { m with intakes := m.intakes.set i { intake with pump := t.pump } } t.logs) (.frame v)

/-- Starting a pump leaves the session alone. -/
theorem reaches_consume (m : Machine) (id : ThreadId) (source : List Feed) (paced : Bool)
    (sink : Sink) (code : List Instr) :
    Reaches m (m.consume id source paced sink code).machine := by
  unfold consume
  split
  · exact .of_same rfl
  · rename_i workers room _
    have hspawn (i : Nat) (m : Machine) (w : Nat) :
        Reaches m (m.spawn (.worker i w) [.work i w]) := .of_same rfl
    let intake : Intake := ⟨.create workers room source, id, paced⟩
    have hstart : Reaches m _ := reaches_foldl (hspawn m.intakes.length)
      { m with intakes := m.intakes ++ [intake] } (List.range workers)
    exact hstart

/-- An action of a listener does what observers do. -/
theorem reaches_act (m : Machine) (id : ThreadId) (a : Action) (l : Listener) (s : Signal)
    (code : List Instr) : Reaches m (m.act id a l s code).machine := by
  -- What fails is logged and reported.
  have hfail (f : Failure) : Reaches m (m.failCall f l s code).machine :=
    reaches_report reportDepth (m.logAll [.listenerFailed l s.title]) _ _
  cases a with
  | fail message => exact hfail _
  | sleep d =>
    simp only [act]
    split
    · exact hfail _
    · exact .of_same (sleepFor_session m id d)
  | look => exact .of_same rfl
  | perform step => exact .of_same rfl
  | log => cases s <;> exact .of_same rfl

/-- A step of a drain advances its lane. -/
theorem reaches_drain (m : Machine) (id : ThreadId) (root : Root) (code : List Instr) :
    Reaches m (m.drain id root code).machine := by
  unfold drain
  split
  · exact .of_same rfl
  · rename_i move lanes h
    -- The lane is advanced; whatever is woken or run for that leaves the session alone.
    have hadv : m.session.Reaches { m.session with lanes } := .single (.advance h)
    cases move with
    | call l s => exact hadv
    | rest => exact hadv
    | retire =>
      simp only [Flow.machine]
      split
      · exact hadv
      · exact hadv

/-- An instruction of a thread changes the session in the listed ways. -/
theorem reaches_exec (m : Machine) (id : ThreadId) (code : List Instr) (i : Instr) :
    Reaches m (m.exec id code i).machine := by
  cases i with
  | perform step sink =>
    have hstep := reaches_perform m step
    -- Steps that wait are instructions of their own.
    cases step with
    | consume source paced => exact reaches_consume m id source paced sink code
    | idle => exact .of_same rfl
    | sleep d =>
      simp only [exec]
      split
      · exact .of_same rfl
      · exact .of_same (sleepFor_session m id d)
    | _ => exact hstep
  | answer a sink =>
    cases sink with
    | verdict => cases a <;> exact .of_same rfl
    | _ => exact .of_same rfl
  | sleep d => exact .of_same (sleepFor_session m id d)
  | settle =>
    simp only [exec]
    split
    · exact .of_same rfl
    · exact .of_same rfl
  | read i sink =>
    simp only [exec, read]
    split
    · exact .of_same rfl
    · rename_i intake _
      -- The turn of the pump hands one frame over at most; what follows it is about threads.
      have ht := reaches_takeTurn m i intake intake.pump.readerTurn
      split
      · split <;> exact ht
      · exact ht
      · exact ht
      · exact ht
  | work i w =>
    simp only [exec, work]
    split
    · exact .of_same rfl
    · rename_i intake _
      have ht := reaches_takeTurn m i intake (intake.pump.workerTurn w)
      split <;> exact ht
  | act a l s => exact reaches_act m id a l s code
  | drain root => exact reaches_drain m id root code
  | sweeper w =>
    simp only [exec, startSweeper]
    split
    · split
      · exact .of_same (sleepFor_session m id _)
      · exact .of_same rfl
    · exact .of_same rfl
  | sweep maxAge interval =>
    -- The sweeper performs the step that anybody may perform.
    have hsweep := reaches_perform m (.sweep (.ok maxAge) none)
    simp only [perform, performWith] at hsweep
    simp only [exec, sweepAgain, Flow.machine, Reaches, sleepFor_session]
    split
    · rename_i m' f hs
      rw [hs] at hsweep
      exact hsweep
    · rename_i m' a hs
      rw [hs] at hsweep
      exact hsweep
  | close => exact reaches_withSession m (.close m.session)
  | _ => exact .of_same rfl

/-! ## Runs -/

/-- A thread that is run changes the session in the listed ways. -/
theorem reaches_runThread (id : ThreadId) (fuel : Nat) (m : Machine) (code : List Instr) :
    Reaches m (runThread id fuel m code).2 := by
  -- The induction is on the fuel; each instruction is one step of the chain.
  induction fuel generalizing m code with
  | zero => exact .of_same rfl
  | succ fuel ih =>
    cases code with
    | nil => exact .of_same rfl
    | cons i code =>
      have hstep := reaches_exec m id code i
      simp only [runThread]
      cases he : m.exec id code i with
      | go m' code' =>
        rw [he] at hstep
        exact hstep.trans (ih m' code')
      | wait m' code' =>
        rw [he] at hstep
        exact hstep

/-- A round changes the session in the listed ways. -/
theorem reaches_round (fuel : Nat) (m : Machine) (ids : List ThreadId) :
    Reaches m (round fuel m ids).2 := by
  unfold round
  induction ids generalizing fuel m with
  | nil => exact .of_same rfl
  | cons id ids ih =>
    simp only [List.foldl_cons]
    split
    · exact ih fuel m
    · exact (reaches_runThread id fuel m _).trans (ih _ _)

/-- A run changes the session in the listed ways. -/
theorem reaches_run (rounds fuel : Nat) (m : Machine) : Reaches m (run rounds fuel m) := by
  induction rounds generalizing fuel m with
  | zero => exact .of_same rfl
  -- A round is run as long as threads are ready; then those that wait for that are woken, and at
  -- last the clock ticks.
  | succ rounds ih =>
    unfold run
    split
    · exact .of_same rfl
    · split
      · have hround : Reaches m _ := reaches_round fuel { m with ready := [] } m.ready
        exact hround.trans (ih _ _)
      · split
        · have hwake : Reaches m { m.wake m.patient with patient := [] } := .of_same rfl
          exact hwake.trans (ih fuel _)
        · split
          · rename_i m' ht
            exact Reaches.trans (.of_same (tick?_same ht).1) (ih fuel m')
          · exact .of_same rfl

/-- The main thread of a scenario and all that runs beside it change the session in the listed
ways. -/
theorem reaches_runMain (m : Machine) (code : List Instr) : Reaches m (m.runMain code) := by
  have hround : Reaches m _ :=
    reaches_round patience { m with threads := Table.put .main code m.threads } [.main]
  exact hround.trans (reaches_run patience _ _)

end Switchboard.Scenario.Machine
