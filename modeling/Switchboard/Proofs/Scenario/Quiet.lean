import Switchboard.Proofs.Scenario.Machine

/-!
# Observers that leave the session alone

Some steps only look at a machine or change what is no part of its session. An observer whose steps
are all of this kind is quiet, and when all observers are quiet, then what a frame does to the
session is what its handling does (`perform_frame_session`).
-/

namespace Switchboard.Scenario

/-- The step may change the session. -/
def Step.touches : Step → Bool
  | .frame _ | .packet _ | .listen .. | .unlisten _ | .handle .. | .dispatch .. | .sweep .. | .put _
  | .remove _ | .evict .. | .capacity _ | .clear | .dropScope _ | .close => true
  | _ => false

/-- The observer leaves the session alone. -/
def Observer.quiet : Observer → Bool
  | .scripted _ _ steps => steps.all (!·.touches)
  | .logging => true

namespace Machine

/-- All observers leave the session alone. -/
def Quiet (m : Machine) : Prop := ∀ o ∈ m.observers, o.quiet

/-- A step that does not touch the session leaves it as it is. -/
theorem performWith_session (tell : Report) (m : Machine) {s : Step} (h : s.touches = false) :
    (m.performWith tell s).1.session = m.session := by
  cases s <;> first | rfl | simp [Step.touches] at h

/-- A chain of changes that leave the session alone leaves it alone. -/
theorem foldl_session {α : Type} {f : Machine → α → Machine} {as : List α}
    (h : ∀ m, ∀ a ∈ as, (f m a).session = m.session) (m : Machine) :
    (as.foldl f m).session = m.session := by
  induction as generalizing m with
  | nil => rfl
  | cons a as ih =>
    rw [List.foldl_cons, ih fun m b hb => h m b (List.mem_cons_of_mem a hb)]
    exact h m a List.mem_cons_self

/-- A quiet observer that is told of a failure leaves the session alone. -/
theorem tellObserver_session (tell : Report) (refusal : Refusal) (l : Option Listener) (m : Machine)
    {o : Observer} (h : o.quiet) : (tellObserver tell refusal l m o).session = m.session := by
  cases o with
  | scripted name fails steps =>
    have hsteps : ∀ m, ∀ s ∈ steps, (performWith tell m s).1.session = m.session := by
      intro m s hs
      have hs' := List.all_eq_true.mp h s hs
      exact performWith_session tell m (by simpa using hs')
    simp only [tellObserver]
    split
    · exact foldl_session hsteps _
    · exact foldl_session hsteps _
  | logging => rfl

/-- Quiet observers that are told of a failure leave the session alone. -/
theorem tellAll_session {m : Machine} (h : m.Quiet) (refusal : Refusal) (l : Option Listener) :
    (tellAll m refusal l).session = m.session :=
  foldl_session (fun m' o ho => tellObserver_session _ refusal l m' (h o ho)) m

/-- With quiet observers a frame does to the session what its handling does. -/
theorem perform_frame_session {m : Machine} (h : m.Quiet) (v : Value) :
    (m.perform (.frame v)).1.session = (m.session.acceptFrame m.clock v).session := by
  simp only [perform, performWith]
  generalize m.session.acceptFrame m.clock v = handled
  have hquiet : (m.taken handled).Quiet := by
    rw [Quiet, taken_observers]
    exact h
  rw [absorb_eq]
  split
  · rw [tellAll_session hquiet, taken_session]
  · exact taken_session m handled

/-- A sweep that fails leaves the session alone, another does to it what sweeping does. -/
theorem perform_sweep_session (m : Machine) (maxAge : Except Failure Duration)
    (now : Option Instant) :
    (m.perform (.sweep maxAge now)).1.session = m.session ∨
      ∃ a n s', maxAge = .ok a ∧ m.session.sweep a (now.getD m.clock) = .ok (n, s') ∧
        (m.perform (.sweep maxAge now)).1.session = s' := by
  simp only [perform, performWith, sweep]
  cases maxAge with
  | error f => exact .inl rfl
  | ok a =>
    simp only [Except.bind]
    cases hs : m.session.sweep a (now.getD m.clock) with
    | error f => exact .inl rfl
    | ok r => exact .inr ⟨a, r.1, r.2, rfl, hs, withSession_session m r.2⟩

end Machine

end Switchboard.Scenario
