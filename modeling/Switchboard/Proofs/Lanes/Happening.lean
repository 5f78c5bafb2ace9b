import Switchboard.Proofs.Lanes

/-!
# Histories of the lanes

A history lists what has happened in the lanes, oldest first: jobs were accepted, calls of listeners
began and ended. `Delivered` says of a lane that its calls are those of the jobs accepted for it, in
the order of submission, and that each call began only after the one before had ended.

`Tally` ties a history to the lanes after it: what the accepted jobs ask for is what has been called
and then what is pending, and of the calls that began all have ended but the one under way. Each
thing that can happen keeps the tally, so a history that is told step by step is `Delivered`.
-/

namespace Switchboard

/-- Something that happens in the lanes. -/
inductive Happening where
  /-- A job is accepted for a lane. -/
  | accepted (root : Root) (job : Job)
  /-- A call of a listener begins. -/
  | started (root : Root) (listener : Listener) (signal : Signal)
  /-- The call that is under way in a lane ends. -/
  | ended (root : Root)
  deriving DecidableEq

namespace Happening

/-- The jobs that were accepted for a lane, in the order of submission. -/
def jobs (root : Root) (hs : List Happening) : List Job :=
  hs.filterMap fun
    | accepted r job => if r = root then some job else none
    | _ => none

/-- The calls that began in a lane, in order. -/
def calls (root : Root) (hs : List Happening) : List (Listener × Signal) :=
  hs.filterMap fun
    | started r listener signal => if r = root then some (listener, signal) else none
    | _ => none

/-- The number of calls that ended in a lane. -/
def endings (root : Root) (hs : List Happening) : Nat := hs.count (ended root)

/-- The calls that the accepted jobs of a lane ask for, in order. -/
def asked (root : Root) (hs : List Happening) : List (Listener × Signal) :=
  (jobs root hs).flatMap Job.calls

/-- The calls of a lane are those of its jobs, in the order of submission and one at a time. -/
structure Delivered (root : Root) (hs : List Happening) : Prop where
  /-- At every time the calls so far are the first of those that the jobs so far ask for. -/
  inOrder : ∀ sofar, sofar <+: hs → calls root sofar <+: asked root sofar
  /-- When a call begins, as many calls have ended as began before it. -/
  apart : ∀ before listener signal after, hs = before ++ started root listener signal :: after →
    endings root before = (calls root before).length

section

variable (root : Root) (hs hs' : List Happening)

@[simp] theorem calls_append : calls root (hs ++ hs') = calls root hs ++ calls root hs' :=
  List.filterMap_append

@[simp] theorem asked_append : asked root (hs ++ hs') = asked root hs ++ asked root hs' := by
  simp [asked, jobs, List.filterMap_append, List.flatMap_append]

@[simp] theorem endings_append : endings root (hs ++ hs') = endings root hs + endings root hs' :=
  List.count_append

end

/-- The history in which nothing has happened. -/
theorem Delivered.nil (root : Root) : Delivered root [] where
  inOrder sofar h := by simp [List.prefix_nil.mp h, calls]
  apart before listener signal after h := by simp at h

/-- One more thing happens: the calls still come first among those asked for, and a call that begins
finds none under way. -/
theorem Delivered.snoc {root : Root} {hs : List Happening} (h : Delivered root hs) {x : Happening}
    (hnext : calls root (hs ++ [x]) <+: asked root (hs ++ [x]))
    (hfree : ∀ listener signal, x = started root listener signal →
      endings root hs = (calls root hs).length) : Delivered root (hs ++ [x]) where
  inOrder sofar hp := by
    -- The story so far is all of it, or was there before.
    rcases List.prefix_concat_iff.mp hp with rfl | hp
    · exact hnext
    · exact h.inOrder sofar hp
  apart before listener signal after he := by
    rcases List.eq_nil_or_concat after with rfl | ⟨after', y, rfl⟩
    · -- The call that begins is the last thing that happened.
      obtain ⟨rfl, hx⟩ := List.append_inj' he rfl
      exact hfree listener signal (List.cons.inj hx).1
    · rw [List.concat_eq_append, ← List.cons_append, ← List.append_assoc] at he
      exact h.apart before listener signal after' (List.append_inj' he rfl).1

end Happening

open Happening

/-- The history leads to the lanes, and in the lanes that are busy a call is under way. -/
structure Tally (hs : List Happening) (l : Lanes) (busy : Root → Bool) : Prop where
  /-- The lanes are sound. -/
  sound : l.Sound
  /-- The history is one of orderly delivery. -/
  delivered : ∀ root, Delivered root hs
  /-- What is asked for has been called or is pending. -/
  owed : ∀ root, asked root hs = calls root hs ++ l.pending root
  /-- All calls have ended but those under way. -/
  open_calls : ∀ root, (calls root hs).length = endings root hs + (busy root).toNat

namespace Tally

variable {hs : List Happening} {l l' : Lanes} {busy busy' : Root → Bool} {root : Root}

/-- Lanes in which nothing has happened. -/
theorem nil (hs : l.Sound) (hp : ∀ root, l.pending root = []) (hb : ∀ root, busy root = false) :
    Tally [] l busy where
  sound := hs
  delivered := Delivered.nil
  owed root := by simp [asked, jobs, calls, hp root]
  open_calls root := by simp [calls, endings, hb root]

/-- A job is accepted. -/
theorem accept (h : Tally hs l busy) {job : Job} (hl : l.submit root job = .ok l') :
    Tally (hs ++ [.accepted root job]) l' busy := by
  -- The job is asked for, and no call begins.
  have hcalls (r : Root) : calls r [.accepted root job] = [] := rfl
  have hasked (r : Root) :
      asked r [.accepted root job] = if root = r then job.calls else [] := by
    by_cases hr : root = r <;> simp [asked, jobs, hr]
  have howed (r : Root) : asked r (hs ++ [.accepted root job]) =
      calls r (hs ++ [.accepted root job]) ++ l'.pending r := by
    simp [hcalls, hasked, h.owed r, Lanes.pending_submit h.sound hl r]
  refine ⟨h.sound.submit hl, fun r => (h.delivered r).snoc ⟨_, (howed r).symm⟩ ?_, howed, ?_⟩
  · intro listener signal hx
    cases hx
  · intro r
    have hend : endings r [.accepted root job] = 0 := by simp [endings]
    simpa [hcalls, hend] using h.open_calls r

/-- Jobs are accepted one after another. -/
theorem acceptAll (h : Tally hs l busy) {js : List (Root × Job)} (hl : l.Accepts js l') :
    Tally (hs ++ js.map fun j => .accepted j.1 j.2) l' busy := by
  induction hl generalizing hs with
  | nil => simpa using h
  | cons first _ ih => simpa using ih (h.accept first)

/-- What counts is in which lanes a call is under way. -/
theorem congr (h : Tally hs l busy) (hb : ∀ r, busy' r = busy r) : Tally hs l busy' := by
  rwa [show busy' = busy from funext hb]

/-- A call begins in a lane in which none is under way. -/
theorem start (h : Tally hs l busy) {c : Listener} {s : Signal}
    (hl : l.advance root = some (.call c s, l')) (hfree : busy root = false)
    (hbusy : busy' root = true) (hsame : ∀ r, r ≠ root → busy' r = busy r) :
    Tally (hs ++ [.started root c s]) l' busy' := by
  -- The call comes from the front of what the lane has to do.
  have hcalls (r : Root) : calls r [.started root c s] = if root = r then [(c, s)] else [] := by
    by_cases hr : root = r <;> simp [calls, hr]
  have hasked (r : Root) : asked r [.started root c s] = [] := rfl
  have howed (r : Root) : asked r (hs ++ [.started root c s]) =
      calls r (hs ++ [.started root c s]) ++ l'.pending r := by
    simp [hcalls, hasked, h.owed r, Lanes.pending_advance hl r, Move.calls]
  refine ⟨h.sound.advance hl, fun r => (h.delivered r).snoc ⟨_, (howed r).symm⟩ ?_, howed, ?_⟩
  · intro listener signal hx
    obtain ⟨rfl, -, -⟩ := Happening.started.inj hx
    simpa [hfree] using (h.open_calls root).symm
  · -- The call that begins is the open one of its lane.
    intro r
    have hend : endings r [.started root c s] = 0 := by simp [endings]
    by_cases hr : r = root
    · subst hr
      simpa [hcalls, hend, hbusy, hfree] using h.open_calls r
    · simpa [hcalls, hend, hsame r hr, Ne.symm hr] using h.open_calls r

/-- The call under way in a lane ends. -/
theorem finish (h : Tally hs l busy) (hbusy : busy root = true) (hfree : busy' root = false)
    (hsame : ∀ r, r ≠ root → busy' r = busy r) : Tally (hs ++ [.ended root]) l busy' := by
  -- Nothing is asked for and no call begins.
  have hcalls (r : Root) : calls r [.ended root] = [] := rfl
  have hasked (r : Root) : asked r [.ended root] = [] := rfl
  have howed (r : Root) : asked r (hs ++ [.ended root]) =
      calls r (hs ++ [.ended root]) ++ l.pending r := by
    simp [hcalls, hasked, h.owed r]
  refine ⟨h.sound, fun r => (h.delivered r).snoc ⟨_, (howed r).symm⟩ ?_, howed, ?_⟩
  · intro listener signal hx
    cases hx
  · -- The call that ends was the open one of its lane.
    intro r
    have hopen := h.open_calls r
    by_cases hr : r = root
    · subst hr
      simpa [hcalls, endings, hbusy, hfree] using hopen
    · simpa [hcalls, endings, hsame r hr, Ne.symm hr] using hopen

/-- A drain takes a step without a call. -/
theorem pause (h : Tally hs l busy) {move : Move} (hl : l.advance root = some (move, l'))
    (hmove : move.calls = []) : Tally hs l' busy where
  sound := h.sound.advance hl
  delivered := h.delivered
  owed r := by
    have hp := Lanes.pending_advance hl r
    rw [hmove, ite_self, List.nil_append] at hp
    rw [h.owed r, hp]
  open_calls := h.open_calls

/-- A lane that is not active and in which no call is under way has made all the calls that were
asked for, and all of them have ended. -/
theorem all_delivered (h : Tally hs l busy) (ha : root ∉ l.active) (hfree : busy root = false) :
    calls root hs = asked root hs ∧ endings root hs = (calls root hs).length := by
  have howed := h.owed root
  rw [Lanes.pending_of_inactive h.sound ha, List.append_nil] at howed
  have hopen := h.open_calls root
  rw [hfree] at hopen
  exact ⟨howed.symm, hopen.symm⟩

end Tally

end Switchboard
