import Switchboard.Proofs.Table
import Switchboard.Scenario.Run

/-!
# Parts of a machine

What the operations on machines do to the parts that the proofs look at: the session, the code of
each thread (`codeOf`), and the observers.
-/

namespace Switchboard.Scenario

/-- The machine after an instruction. -/
def Flow.machine : Flow → Machine
  | .go m _ | .wait m _ => m

/-- What a thread has still to run after an instruction. -/
def Flow.code : Flow → List Instr
  | .go _ code | .wait _ code => code

namespace Machine

/-! ## Threads -/

/-- The instructions that a thread has still to run. -/
def codeOf (m : Machine) (id : ThreadId) : List Instr := (Table.find? id m.threads).getD []

/-- A thread that is added has its code, the others keep theirs. -/
theorem codeOf_spawn (m : Machine) (id id' : ThreadId) (code : List Instr) :
    (m.spawn id code).codeOf id' = if id' = id then code else m.codeOf id' := by
  by_cases h : id' = id
  · simp [codeOf, spawn, h]
  · simp [codeOf, spawn, h, Table.find?_put_of_ne h]

/-- The threads after a drain is added for each of some lanes. -/
theorem codeOf_foldl_spawn (roots : List Root) (m : Machine) (id : ThreadId) :
    (roots.foldl (fun m root => m.spawn (.lane root) [.drain root]) m).codeOf id =
      match id with
      | .lane root => if root ∈ roots then [.drain root] else m.codeOf (.lane root)
      | id => m.codeOf id := by
  induction roots generalizing m with
  | nil => cases id <;> rfl
  | cons r roots ih =>
    rw [List.foldl_cons, ih]
    -- A lane gets its drain from the first spawn that is for it; other threads get nothing.
    cases id with
    | lane root =>
      by_cases hr : root = r
      · subst hr
        simp [codeOf_spawn]
      · simp [codeOf_spawn, hr]
    | _ => simp [codeOf_spawn]

/-- What starting threads leaves alone is left alone when drains are started. -/
theorem foldl_spawn_same {α : Type} (f : Machine → α)
    (hf : ∀ (m : Machine) (id : ThreadId) (code : List Instr), f (m.spawn id code) = f m)
    (roots : List Root) (m : Machine) :
    f (roots.foldl (fun m root => m.spawn (.lane root) [.drain root]) m) = f m := by
  induction roots generalizing m with
  | nil => rfl
  | cons r roots ih => exact (ih _).trans (hf m _ _)

/-- The session of a machine is the one it is given. -/
@[simp] theorem withSession_session (m : Machine) (s : Session) : (m.withSession s).session = s :=
  foldl_spawn_same session (fun _ _ _ => rfl) _ _

/-- A session that takes the place of another one leaves the observers as they are. -/
@[simp] theorem withSession_observers (m : Machine) (s : Session) :
    (m.withSession s).observers = m.observers :=
  foldl_spawn_same observers (fun _ _ _ => rfl) _ _

/-- A session that takes the place of another one leaves the journal as it is. -/
@[simp] theorem withSession_journal (m : Machine) (s : Session) :
    (m.withSession s).journal = m.journal :=
  foldl_spawn_same journal (fun _ _ _ => rfl) _ _

/-- A session that takes the place of another one leaves the log as it is. -/
@[simp] theorem withSession_logs (m : Machine) (s : Session) : (m.withSession s).logs = m.logs :=
  foldl_spawn_same logs (fun _ _ _ => rfl) _ _

/-- A machine with what came of a frame, before a refusal is told. -/
def taken (m : Machine) (h : Handled) : Machine :=
  let m := match h.called with
    | some (name, p) => m.remark .packet (.handled name p)
    | none => m
  (m.withSession h.session).logAll h.logs

/-- Absorbing what came of a frame is to take it and to tell its refusal. -/
theorem absorb_eq (tell : Report) (m : Machine) (h : Handled) :
    m.absorb tell h = match h.refusal with
      | some r => tell (m.taken h) r none
      | none => m.taken h := rfl

/-- The session of a machine that has taken what came of a frame is the one that came of it. -/
@[simp] theorem taken_session (m : Machine) (h : Handled) : (m.taken h).session = h.session :=
  withSession_session _ _

/-- Taking what came of a frame leaves the observers as they are. -/
@[simp] theorem taken_observers (m : Machine) (h : Handled) :
    (m.taken h).observers = m.observers := by
  simp only [taken, logAll, withSession_observers]
  split
  · rfl
  · rfl

/-! ## Rounds -/

/-- A thread that has ended is not run. -/
theorem round_skip {m : Machine} {id : ThreadId} (h : Table.find? id m.threads = none)
    (fuel : Nat) (ids : List ThreadId) : round fuel m (id :: ids) = round fuel m ids := by
  simp only [round, List.foldl_cons, h]

/-- A thread is run, and then the others. -/
theorem round_enter {m : Machine} {id : ThreadId} {code : List Instr}
    (h : Table.find? id m.threads = some code) (fuel : Nat) (ids : List ThreadId) :
    round fuel m (id :: ids) =
      round (runThread id fuel m code).1 (runThread id fuel m code).2 ids := by
  simp only [round, List.foldl_cons, h]

/-- Once the instructions are used up, the threads that are left are not run. -/
theorem fuel_left {fuel : Nat} {m : Machine} {ids : List ThreadId}
    (h : 0 < (round fuel m ids).1) : 0 < fuel := by
  have hspent (m : Machine) (ids : List ThreadId) : (round 0 m ids).1 = 0 := by
    induction ids generalizing m with
    | nil => rfl
    | cons id ids ih =>
      simp only [round, List.foldl_cons] at ih ⊢
      split <;> exact ih _
  rcases Nat.eq_zero_or_pos fuel with rfl | hpos
  · rw [hspent] at h
    exact absurd h (Nat.lt_irrefl 0)
  · exact hpos

/-- Without instructions left the machine stays as it is. -/
theorem run_spent (rounds : Nat) (m : Machine) : run rounds 0 m = m := by
  cases rounds <;> simp [run]

/-! ## Time -/

/-- Time that moves on leaves the session and the threads alone. -/
theorem tick?_same {m m' : Machine} (h : m.tick? = some m') :
    m'.session = m.session ∧ m'.threads = m.threads := by
  unfold tick? at h
  split at h
  · cases h
  · cases h
    exact ⟨rfl, rfl⟩

/-- A thread that goes to sleep leaves the session alone. -/
@[simp] theorem sleepFor_session (m : Machine) (id : ThreadId) (d : Duration) :
    (m.sleepFor id d).session = m.session := by
  unfold sleepFor
  split
  · rfl
  · rfl

end Machine

end Switchboard.Scenario
