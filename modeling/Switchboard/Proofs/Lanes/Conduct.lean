import Switchboard.Proofs.Lanes.Happening

/-!
# What listeners do decides what happens in the lanes

A `Conduct` tells what the call that is under way does next: it submits a job, it waits, or it ends.
It may go by all that was done from outside so far, and by all that has happened in the lanes. How a
call ends, by coming to its end or by failing, makes no difference to the lanes, and so there is
nothing about it in a conduct. `Score` says what happens in the lanes, and what becomes of them,
when the listeners keep to a conduct: there is only one thing that can happen (`Score.unique`).
-/

namespace Switchboard

/-- What is done to the lanes from outside. -/
inductive Beat where
  /-- A job is submitted. -/
  | submit (root : Root) (job : Job)
  /-- The drain of a lane has its turn. -/
  | turn (root : Root)

/-- What the call of a listener does next. -/
inductive Deed where
  /-- It submits a job. -/
  | submit (root : Root) (job : Job)
  | wait
  | stop

/-- What the call under way does next, by the beats so far, the last one first, and by what has
happened. -/
abbrev Conduct := List Beat → List Happening → Deed

/-- What happens from some time on is what the conduct says. -/
def Conduct.Leads (c : Conduct) (beats : List Beat) : List Happening → List Happening → Prop
  | _, [] => True
  | hs, x :: xs =>
    (match x with
      | .accepted root job => c beats hs = .submit root job
      | .started .. => True
      | .ended _ => c beats hs = .stop) ∧ c.Leads beats (hs ++ [x]) xs

/-- One thing happens after another. -/
theorem Conduct.leads_append {c : Conduct} {beats : List Beat} {hs xs ys : List Happening} :
    c.Leads beats hs (xs ++ ys) ↔ c.Leads beats hs xs ∧ c.Leads beats (hs ++ xs) ys := by
  induction xs generalizing hs with
  | nil => simp [Leads]
  | cons x xs ih => simp [Leads, ih, and_assoc]

namespace Happening

/-- A call is under way in the lane. -/
def UnderWay (root : Root) (hs : List Happening) : Prop :=
  endings root hs < (calls root hs).length

/-- The calls under way stay so while a job is accepted. -/
theorem underWay_accepted {root r : Root} {hs : List Happening} {job : Job} :
    UnderWay root (hs ++ [.accepted r job]) ↔ UnderWay root hs := by
  simp [UnderWay, endings, calls]

/-- The calls under way stay so while jobs are accepted. -/
theorem underWay_acceptAll {root : Root} {hs : List Happening} {js : List (Root × Job)} :
    UnderWay root (hs ++ js.map fun j => .accepted j.1 j.2) ↔ UnderWay root hs := by
  induction js generalizing hs with
  | nil => simp
  | cons j js ih => rw [List.map_cons, List.append_cons, ih, underWay_accepted]

end Happening

open Happening

/-- In the lanes that are busy a call is under way. -/
theorem Tally.underWay {hs : List Happening} {l : Lanes} {busy : Root → Bool}
    (h : Tally hs l busy) (root : Root) : UnderWay root hs ↔ busy root = true := by
  have hopen := h.open_calls root
  unfold UnderWay
  cases hb : busy root with
  | true => simp [hopen, hb]
  | false => simp [hopen, hb]

/-- After a call has begun in a lane it is under way. -/
theorem Tally.underWay_started {hs : List Happening} {l : Lanes} {busy : Root → Bool}
    (h : Tally hs l busy) (root : Root) (k : Listener) (s : Signal) :
    UnderWay root (hs ++ [.started root k s]) := by
  have hopen := h.open_calls root
  have hend : endings root [.started root k s] = 0 := by simp [endings]
  have hcall : (calls root [.started root k s]).length = 1 := by simp [calls]
  rw [UnderWay, endings_append, calls_append, List.length_append, hend, hcall]
  omega

/-! ## Turns -/

/-- What a lane does in a turn, and what has happened when the turn is over. -/
inductive Goes (c : Conduct) (beats : List Beat) (root : Root) :
    Lanes → List Happening → Lanes → List Happening → Prop
  /-- The call under way submits a job. -/
  | submits {l l₁ l' : Lanes} {hs hs' : List Happening} {r : Root} {job : Job}
      (hu : UnderWay root hs) (hd : c beats hs = .submit r job) (hl : l.submit r job = .ok l₁)
      (h : Goes c beats root l₁ (hs ++ [.accepted r job]) l' hs') : Goes c beats root l hs l' hs'
  /-- The call under way waits. -/
  | waits {l : Lanes} {hs : List Happening} (hu : UnderWay root hs) (hd : c beats hs = .wait) :
      Goes c beats root l hs l hs
  /-- The call under way ends. -/
  | stops {l l' : Lanes} {hs hs' : List Happening} (hu : UnderWay root hs)
      (hd : c beats hs = .stop) (h : Goes c beats root l (hs ++ [.ended root]) l' hs') :
      Goes c beats root l hs l' hs'
  /-- The drain calls a listener. -/
  | calls {l l₁ l' : Lanes} {hs hs' : List Happening} {k : Listener} {s : Signal}
      (hu : ¬ UnderWay root hs) (ha : l.advance root = some (.call k s, l₁))
      (h : Goes c beats root l₁ (hs ++ [.started root k s]) l' hs') : Goes c beats root l hs l' hs'
  /-- A job is done, and the drain lets the others go first. -/
  | rests {l l' : Lanes} {hs : List Happening} (hu : ¬ UnderWay root hs)
      (ha : l.advance root = some (.rest, l')) : Goes c beats root l hs l' hs
  /-- The lane retires. -/
  | retires {l l' : Lanes} {hs : List Happening} (hu : ¬ UnderWay root hs)
      (ha : l.advance root = some (.retire, l')) : Goes c beats root l hs l' hs

namespace Goes

variable {c : Conduct} {beats : List Beat} {root : Root} {l l₁ l' l'' : Lanes}
  {hs hs' hs'' : List Happening}

/-- A turn goes in one way only. -/
theorem unique (h : Goes c beats root l hs l' hs') (h' : Goes c beats root l hs l'' hs'') :
    l'' = l' ∧ hs'' = hs' := by
  induction h with
  | submits hu hd hl _ ih => cases h' <;> grind
  | waits hu hd => cases h' <;> grind
  | stops hu hd _ ih => cases h' <;> grind
  | calls hu ha _ ih => cases h' <;> grind
  | rests hu ha => cases h' <;> grind
  | retires hu ha => cases h' <;> grind

/-- The call under way submits some jobs first. -/
theorem submitsAll {js : List (Root × Job)} (hjs : l.Accepts js l₁) (hu : UnderWay root hs)
    (hc : c.Leads beats hs (js.map fun j => .accepted j.1 j.2))
    (h : Goes c beats root l₁ (hs ++ js.map fun j => .accepted j.1 j.2) l' hs') :
    Goes c beats root l hs l' hs' := by
  induction hjs generalizing hs with
  | nil => simpa using h
  | cons first _ ih =>
    obtain ⟨hd, hrest⟩ := hc
    refine .submits hu hd first (ih (underWay_accepted.mpr hu) hrest ?_)
    simpa using h

end Goes

/-! ## Beats -/

/-- What has happened after some beats, the last one first, and what has become of the lanes. -/
inductive Score (c : Conduct) (l₀ : Lanes) : List Beat → List Happening → Lanes → Prop
  | nil : Score c l₀ [] [] l₀
  /-- A job is submitted. -/
  | submits {beats : List Beat} {hs : List Happening} {l l' : Lanes} {root : Root} {job : Job}
      (h : Score c l₀ beats hs l) (hl : l.submit root job = .ok l') :
      Score c l₀ (.submit root job :: beats) (hs ++ [.accepted root job]) l'
  /-- A lane has its turn. -/
  | turns {beats : List Beat} {hs hs' : List Happening} {l l' : Lanes} {root : Root}
      (h : Score c l₀ beats hs l) (hg : Goes c (.turn root :: beats) root l hs l' hs') :
      Score c l₀ (.turn root :: beats) hs' l'

/-- Only one thing can happen when the listeners keep to a conduct. -/
theorem Score.unique {c : Conduct} {l₀ l l' : Lanes} {beats : List Beat} {hs hs' : List Happening}
    (h : Score c l₀ beats hs l) (h' : Score c l₀ beats hs' l') : hs' = hs ∧ l' = l := by
  -- The last beat of both scores is the same, and so is what came before it.
  induction h generalizing hs' l' with
  | nil =>
    cases h'
    exact ⟨rfl, rfl⟩
  | submits _ hl ih =>
    cases h' with
    | submits h₁ hl₁ =>
      obtain ⟨rfl, rfl⟩ := ih h₁
      exact ⟨rfl, Except.ok.inj (hl₁.symm.trans hl)⟩
  | turns _ hg ih =>
    cases h' with
    | turns h₁ hg₁ =>
      obtain ⟨rfl, rfl⟩ := ih h₁
      exact (hg.unique hg₁).symm

end Switchboard
