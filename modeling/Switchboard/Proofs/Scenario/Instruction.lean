import Switchboard.Proofs.Scenario.Submission

/-!
# What an instruction does to the lanes and to its thread

An instruction that is no drain submits jobs and nothing else (`submits_exec`), and puts
instructions before the rest of its thread (`code_exec`). Only the failure of a listener skips some
of the rest, up to the next drain, and only a failed replay gives up the rest. Code that a listener
may have put into the thread of its lane is `Listening`: no drain is in it and nothing that decides
over the whole run.
-/

namespace Switchboard.Scenario

namespace Machine

/-- The answer decides whether the scenario goes on. -/
def decides : Instr → Bool
  | .perform _ sink | .answer _ sink | .read _ sink => (sink matches .verdict)
  | _ => false

/-- Code without a drain and without a verdict. -/
def Listening (code : List Instr) : Prop := ∀ i ∈ code, isDrain i = false ∧ decides i = false

/-! ## Lanes -/

/-- Whatever the script of a listener does, a failed listener submits only what observers do. -/
theorem submits_failCall (m : Machine) (f : Failure) (l : Listener) (s : Signal)
    (code : List Instr) : Submits m (m.failCall f l s code).machine := by
  have h := submits_report reportDepth (m.logAll [.listenerFailed l s.title])
    ⟨f, .signal s⟩ (some l)
  exact h.of_same_left rfl rfl

/-- An action of a listener submits only what observers do. -/
theorem submits_act (m : Machine) (id : ThreadId) (a : Action) (l : Listener) (s : Signal)
    (code : List Instr) : Submits m (m.act id a l s code).machine := by
  cases a with
  | fail message => exact submits_failCall m _ l s code
  | sleep d =>
    simp only [act]
    split
    · exact submits_failCall m _ l s code
    · simp only [Flow.machine, sleepFor]
      split <;> exact .of_same rfl rfl
  | look => exact .of_same rfl rfl
  | perform step => exact .refl m
  | log => cases s <;> exact .of_same rfl rfl

/-- A turn of a pump submits what its frame does. -/
theorem submits_takeTurn (m : Machine) (i : Nat) (intake : Intake) (t : Turn) :
    Submits m (m.takeTurn i intake t) := by
  cases hv : t.handles with
  | none =>
    simp only [takeTurn, hv]
    exact .of_same rfl rfl
  | some v =>
    let m₁ : Machine := { m with intakes := m.intakes.set i { intake with pump := t.pump } }
    have h := submits_perform (m₁.logAll t.logs) (.frame v)
    simp only [takeTurn, hv]
    exact (h.of_same_left (m := m) rfl rfl).of_same_right rfl rfl

/-- A reader submits what its frames do. -/
theorem submits_read (m : Machine) (i : Nat) (sink : Sink) (code : List Instr) :
    Submits m (m.read i sink code).machine := by
  unfold read
  split
  · exact .refl m
  · rename_i intake _
    -- The jobs are those of the turn; afterwards it is only logged if the pump has failed.
    have h := submits_takeTurn m i intake intake.pump.readerTurn
    dsimp only
    split
    · split
      · exact h
      · exact h.of_same_right rfl rfl
    · exact h
    · exact h
    · exact h

/-- A worker submits what its frames do. -/
theorem submits_work (m : Machine) (i w : Nat) (code : List Instr) :
    Submits m (m.work i w code).machine := by
  unfold work
  split
  · exact .refl m
  · rename_i intake _
    have h := submits_takeTurn m i intake (intake.pump.workerTurn w)
    dsimp only
    split <;> exact h

/-- Starting a pump starts workers and submits nothing. -/
theorem submits_consume (m : Machine) (id : ThreadId) (source : List Feed) (paced : Bool)
    (sink : Sink) (code : List Instr) :
    Submits m (m.consume id source paced sink code).machine := by
  unfold consume
  split
  · exact .refl m
  · rename_i workers room _
    have hspawn (i : Nat) (m : Machine) (w : Nat) :
        Submits m (m.spawn (.worker i w) [.work i w]) :=
      submits_spawn m (by simp) (by simp [DrainFree, isDrain])
    exact (submits_foldl (hspawn _) _ _).of_same_left (m := m) rfl rfl

/-- Handing over an answer submits nothing. -/
theorem submits_answer (m : Machine) (a : Answer) (sink : Sink) (code : List Instr) :
    Submits m (m.answer a sink code).machine := by
  cases sink with
  | entry => exact .refl m
  | note l root => exact .of_same rfl rfl
  | verdict => cases a <;> exact .of_same rfl rfl

/-- The sweeper submits nothing when it begins. -/
theorem submits_startSweeper (m : Machine) (id : ThreadId) (w : Sweeper) (code : List Instr) :
    Submits m (m.startSweeper id w code).machine := by
  unfold startSweeper
  split
  · split
    · simp only [Flow.machine, sleepFor]
      split <;> exact .of_same rfl rfl
    · exact .refl m
  · exact .of_same rfl rfl

/-- The sweeper submits nothing. -/
theorem submits_sweepAgain (m : Machine) (id : ThreadId) (maxAge interval : Duration)
    (code : List Instr) : Submits m (m.sweepAgain id maxAge interval code).machine := by
  have hsleep (m' : Machine) (h : Submits m m') : Submits m (m'.sleepFor id interval) := by
    unfold sleepFor
    split <;> exact h.of_same_right rfl rfl
  have hsweep := submits_sweep m (.ok maxAge) none
  unfold sweepAgain
  -- Sleeping submits nothing, whatever the sweep has come to.
  refine hsleep _ ?_
  split
  · rename_i m' f h
    rw [h] at hsweep
    exact hsweep.of_same_right rfl rfl
  · rename_i m' a h
    rw [h] at hsweep
    exact hsweep

/-- An instruction that is no drain submits jobs and does nothing else to the lanes and their
threads. -/
theorem submits_exec (m : Machine) (id : ThreadId) (code : List Instr) {i : Instr}
    (hi : isDrain i = false) : Submits m (m.exec id code i).machine := by
  cases i with
  -- Steps that make the thread wait are instructions of their own.
  | perform step sink =>
    have hstep := submits_perform m step
    cases step with
    | consume source paced => exact submits_consume m id source paced sink code
    | idle => exact .refl m
    | sleep d =>
      simp only [exec]
      split
      · exact .refl m
      · simp only [Flow.machine, sleepFor]
        split <;> exact .of_same rfl rfl
    | _ => exact hstep
  | answer a sink => exact submits_answer m a sink code
  | sleep d =>
    simp only [exec, Flow.machine, sleepFor]
    split <;> exact .of_same rfl rfl
  | lull => exact .of_same rfl rfl
  | settle =>
    simp only [exec]
    split
    · exact .refl m
    · exact .of_same rfl rfl
  | read i sink => exact submits_read m i sink code
  | work i w => exact submits_work m i w code
  | act a l s => exact submits_act m id a l s code
  | wake l root => exact .of_same rfl rfl
  | drain root => simp [isDrain] at hi
  | sweeper w => exact submits_startSweeper m id w code
  | sweep maxAge interval => exact submits_sweepAgain m id maxAge interval code
  | record a => exact .of_same rfl rfl
  | log r => exact .of_same rfl rfl
  | close => exact submits_withSession_same m rfl

/-! ## Code -/

/-- How a thread may go on after an instruction, which is followed by some code. -/
inductive Continues (i : Instr) (code : List Instr) : List Instr → Prop
  /-- Instructions come before the rest. -/
  | before (new : List Instr)
      (h : ∀ j ∈ new, isDrain j = false ∧ (decides i = false → decides j = false)) :
      Continues i code (new ++ code)
  /-- The rest is skipped up to the next drain. -/
  | skips : Continues i code (code.dropWhile (!isDrain ·))
  /-- The rest is given up. -/
  | stops (h : decides i = true) : Continues i code [.close]

/-- The rest follows at once. -/
theorem Continues.rest (i : Instr) (code : List Instr) : Continues i code code :=
  .before [] (by simp)

/-- One instruction comes before the rest. -/
theorem Continues.one {i j : Instr} {code : List Instr} (hj : isDrain j = false)
    (hd : decides i = false → decides j = false) : Continues i code (j :: code) :=
  .before [j] (by simpa using ⟨hj, hd⟩)

/-- Two instructions come before the rest. -/
theorem Continues.two {i j j' : Instr} {code : List Instr} (hj : isDrain j = false)
    (hd : decides i = false → decides j = false) (hj' : isDrain j' = false)
    (hd' : decides i = false → decides j' = false) : Continues i code (j :: j' :: code) :=
  .before [j, j'] (by simpa using ⟨⟨hj, hd⟩, hj', hd'⟩)

/-- How a thread goes on after an action of a listener. -/
theorem code_act (m : Machine) (id : ThreadId) (a : Action) (l : Listener) (s : Signal)
    (code : List Instr) : Continues (.act a l s) code (m.act id a l s code).code := by
  cases a with
  | fail message => exact .skips
  | sleep d =>
    simp only [act]
    split
    · exact .skips
    · exact .one rfl fun _ => rfl
  | look => exact .rest _ _
  | perform step => exact .one rfl fun _ => rfl
  | log => cases s <;> exact .rest _ _

/-- How a thread goes on after the turn of a reader. -/
theorem code_read (m : Machine) (i : Nat) (sink : Sink) (code : List Instr) :
    Continues (.read i sink) code (m.read i sink code).code := by
  unfold read
  split
  · exact .rest _ _
  · rename_i intake _
    dsimp only
    -- The reader stops, goes on, or waits for the crew.
    split
    · split <;> exact .one rfl id
    · simp only [Flow.code, readCode]
      split
      · exact .two rfl (fun _ => rfl) rfl id
      · exact .one rfl id
    · exact .one rfl id
    · exact .one rfl id

/-- How a thread goes on after it has started a pump. -/
theorem code_consume (m : Machine) (id : ThreadId) (source : List Feed) (paced : Bool)
    (sink : Sink) (code : List Instr) :
    Continues (.perform (.consume source paced) sink) code
      (m.consume id source paced sink code).code := by
  unfold consume
  split
  · exact .one rfl fun h => h
  · simp only [Flow.code, readCode]
    split
    · exact .two rfl (fun _ => rfl) rfl fun h => h
    · exact .one rfl fun h => h

/-- How a thread goes on after an answer was handed over. -/
theorem code_answer (m : Machine) (a : Answer) (sink : Sink) (code : List Instr) :
    Continues (.answer a sink) code (m.answer a sink code).code := by
  cases sink with
  | entry =>
    simp only [answer, Flow.code]
    split
    · exact .two rfl (fun _ => rfl) rfl fun _ => rfl
    · exact .one rfl fun _ => rfl
  | note l root => exact .rest _ _
  | verdict =>
    cases a with
    | failed f => exact .stops rfl
    | _ => exact .rest _ _

/-- How a thread goes on after an instruction that is no drain. -/
theorem code_exec (m : Machine) (id : ThreadId) (code : List Instr) {i : Instr}
    (hi : isDrain i = false) : Continues i code (m.exec id code i).code := by
  cases i with
  -- A step that waits goes on with the answer that it waits for.
  | perform step sink =>
    cases step with
    | consume source paced => exact code_consume m id source paced sink code
    | idle => exact .two rfl (fun _ => rfl) rfl fun h => h
    | sleep d =>
      simp only [exec]
      split <;> exact .one rfl fun h => h
    | _ => exact .one rfl fun h => h
  | answer a sink => exact code_answer m a sink code
  | settle =>
    simp only [exec]
    split
    · exact .rest _ _
    · exact .one rfl fun _ => rfl
  | read i sink => exact code_read m i sink code
  | work i w =>
    simp only [exec, work]
    split
    · exact .rest _ _
    · split
      · exact .rest _ _
      · exact .one rfl fun _ => rfl
  | act a l s => exact code_act m id a l s code
  | drain root => simp [isDrain] at hi
  -- A sweeper that is switched off leaves its thread to end.
  | sweeper w =>
    simp only [exec, startSweeper]
    split
    · split
      · exact .one rfl fun _ => rfl
      · exact .rest _ _
    · exact .rest _ _
  | sweep maxAge interval => exact .one rfl fun _ => rfl
  | _ => exact .rest _ _

/-- Code without drains is left for code without drains. -/
theorem Continues.drainFree {i : Instr} {code code' : List Instr} (h : Continues i code code')
    (hc : DrainFree code) : DrainFree code' := by
  cases h with
  | before new h => exact fun j hj => (List.mem_append.mp hj).elim (fun hj => (h j hj).1) (hc j)
  | skips => exact fun j hj => hc j ((List.dropWhile_sublist _).subset hj)
  | stops h => exact fun j hj => by simp [List.mem_singleton.mp hj, isDrain]

/-- A listener within its script leaves a script before the drain of its lane. -/
theorem Continues.listening {i : Instr} {script code' : List Instr} {root : Root}
    (h : Continues i (script ++ [.drain root]) code') (hi : decides i = false)
    (hs : Listening script) :
    ∃ script', code' = script' ++ [.drain root] ∧ Listening script' := by
  cases h with
  | before new h =>
    refine ⟨new ++ script, (List.append_assoc ..).symm, fun j hj => ?_⟩
    rcases List.mem_append.mp hj with hj | hj
    · exact ⟨(h j hj).1, (h j hj).2 hi⟩
    · exact hs j hj
  | skips =>
    -- No instruction of the script is a drain, so the whole script is skipped.
    refine ⟨[], ?_, by simp [Listening]⟩
    have hskip : ∀ j ∈ script, (!isDrain j) = true := fun j hj => by simp [(hs j hj).1]
    rw [List.dropWhile_append_of_pos hskip]
    rfl
  | stops h => simp [hi] at h

end Machine

end Switchboard.Scenario
