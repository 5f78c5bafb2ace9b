import Switchboard.Proofs.Scenario.Machine
import Switchboard.Proofs.Session.Lanes

/-!
# What a step of a scenario does to the lanes and their threads

`Machine.codeOf` is what a thread has still to run. `Machine.Submits` says how far a machine can go
without a drain: jobs are submitted, a lane that becomes active gets a thread with its drain, the
threads of the other lanes stay as they are, and no other thread gets a drain. Every step that is
performed, with all that the error observers do on the way, goes no further (`submits_perform`).
-/

namespace Switchboard.Scenario.Machine

/-- The code has no drain of a lane in it. -/
def DrainFree (code : List Instr) : Prop := ∀ i ∈ code, isDrain i = false

/-- A machine becomes another by submitting jobs. -/
structure Submits (m m' : Machine) : Prop where
  /-- The lanes take in jobs. -/
  accepts : ∃ js, m.session.lanes.Accepts js m'.session.lanes
  /-- A lane that becomes active gets a thread with its drain. -/
  fresh : ∀ root, root ∉ m.session.lanes.active → root ∈ m'.session.lanes.active →
    m'.codeOf (.lane root) = [.drain root]
  /-- The threads of the other lanes stay as they are. -/
  kept : ∀ root, root ∈ m.session.lanes.active ∨ root ∉ m'.session.lanes.active →
    m'.codeOf (.lane root) = m.codeOf (.lane root)
  /-- The other threads get no drain. -/
  others : ∀ id, (∀ root, id ≠ .lane root) → DrainFree (m.codeOf id) → DrainFree (m'.codeOf id)

/-- Nothing is submitted when the lanes and the threads stay as they are. -/
theorem Submits.of_same {m m' : Machine} (hl : m'.session.lanes = m.session.lanes)
    (ht : m'.threads = m.threads) : Submits m m' where
  accepts := ⟨[], hl ▸ .nil _⟩
  fresh root hn ha := absurd (hl ▸ ha) hn
  kept root _ := by simp only [codeOf, ht]
  others id _ h := by simpa only [codeOf, ht] using h

/-- Nothing is submitted when nothing happens. -/
theorem Submits.refl (m : Machine) : Submits m m := .of_same rfl rfl

/-- Jobs are submitted, and then more jobs. -/
theorem Submits.trans {m m₁ m₂ : Machine} (h : Submits m m₁) (h' : Submits m₁ m₂) :
    Submits m m₂ where
  accepts := by
    obtain ⟨js, hjs⟩ := h.accepts
    obtain ⟨js', hjs'⟩ := h'.accepts
    exact ⟨js ++ js', hjs.append hjs'⟩
  fresh root hn ha := by
    by_cases h₁ : root ∈ m₁.session.lanes.active
    · rw [h'.kept root (.inl h₁), h.fresh root hn h₁]
    · exact h'.fresh root h₁ ha
  kept root hr := by
    obtain ⟨js, hjs⟩ := h.accepts
    obtain ⟨js', hjs'⟩ := h'.accepts
    -- A lane stays active on the way, and one that is not active in the end never was.
    rcases hr with ha | hn
    · rw [h'.kept root (.inl (hjs.mem_active ha)), h.kept root (.inl ha)]
    · rw [h'.kept root (.inr hn), h.kept root (.inr fun h₁ => hn (hjs'.mem_active h₁))]
  others id hid hc := h'.others id hid (h.others id hid hc)

/-- What is submitted from a machine with the same lanes and threads. -/
theorem Submits.of_same_left {m m₁ m₂ : Machine} (h : Submits m₁ m₂)
    (hl : m₁.session.lanes = m.session.lanes) (ht : m₁.threads = m.threads) : Submits m m₂ :=
  (Submits.of_same hl ht).trans h

/-- Jobs are submitted, and then the lanes and the threads stay as they are. -/
theorem Submits.of_same_right {m m₁ m₂ : Machine} (h : Submits m m₁)
    (hl : m₂.session.lanes = m₁.session.lanes) (ht : m₂.threads = m₁.threads) : Submits m m₂ :=
  h.trans (.of_same hl ht)

/-- A chain of changes that only submit jobs, one for each item of a list. -/
theorem submits_foldl {α : Type} {f : Machine → α → Machine} (h : ∀ m a, Submits m (f m a))
    (m : Machine) (as : List α) : Submits m (as.foldl f m) := by
  induction as generalizing m with
  | nil => exact .refl m
  | cons a as ih => exact (h m a).trans (ih (f m a))

/-! ## Threads that are added -/

/-- A thread that is no lane's and has no drain may be added. -/
theorem submits_spawn (m : Machine) {id : ThreadId} {code : List Instr}
    (hid : ∀ root, id ≠ .lane root) (hc : DrainFree code) : Submits m (m.spawn id code) where
  accepts := ⟨[], .nil _⟩
  fresh root hn ha := absurd ha hn
  kept root _ := by rw [codeOf_spawn, if_neg (hid root).symm]
  others id' _ h := by
    rw [codeOf_spawn]
    split
    · exact hc
    · exact h

/-- A session whose lanes have taken in jobs may take the place of the session of a machine. -/
theorem submits_withSession (m : Machine) {s : Session}
    (h : ∃ js, m.session.lanes.Accepts js s.lanes) : Submits m (m.withSession s) where
  accepts := by rwa [withSession_session]
  fresh root hn ha := by
    rw [withSession_session] at ha
    rw [withSession, codeOf_foldl_spawn]
    simp [hn, ha]
  kept root hr := by
    rw [withSession_session] at hr
    rw [withSession, codeOf_foldl_spawn]
    -- Threads are added for lanes that have become active, and this is none of them.
    have hfresh : root ∉ s.lanes.active.filter (!m.session.lanes.active.contains ·) := by
      rw [List.mem_filter]
      rintro ⟨ha, hn⟩
      simp only [List.contains_eq_mem, Bool.not_eq_true', decide_eq_false_iff_not] at hn
      exact hr.elim hn (· ha)
    simp only [if_neg hfresh]
    rfl
  others id hid hc := by
    rw [withSession, codeOf_foldl_spawn]
    cases id with
    | lane root => exact absurd rfl (hid root)
    | _ => exact hc

/-- A session with the same lanes may take the place of the session of a machine. -/
theorem submits_withSession_same (m : Machine) {s : Session} (h : s.lanes = m.session.lanes) :
    Submits m (m.withSession s) :=
  submits_withSession m ⟨[], h ▸ .nil _⟩

/-! ## Steps -/

/-- Taking what came of a frame submits what the handling submitted. -/
theorem submits_taken (m : Machine) {h : Handled}
    (hl : ∃ js, m.session.lanes.Accepts js h.session.lanes) : Submits m (m.taken h) := by
  cases hc : h.called with
  | none =>
    simp only [taken, hc]
    exact (submits_withSession m hl).of_same_right rfl rfl
  | some c =>
    have hs := submits_withSession (m.remark .packet (.handled c.1 c.2)) hl
    simp only [taken, hc]
    exact (hs.of_same_left (m := m) rfl rfl).of_same_right rfl rfl

/-- Taking what came of a frame submits what the handling submitted, and what the observers do. -/
theorem submits_absorb {tell : Report} (ht : ∀ m r l, Submits m (tell m r l)) (m : Machine)
    {h : Handled} (hl : ∃ js, m.session.lanes.Accepts js h.session.lanes) :
    Submits m (m.absorb tell h) := by
  rw [absorb_eq]
  split
  · exact (submits_taken m hl).trans (ht _ _ _)
  · exact submits_taken m hl

/-- Submitting a note submits one job at most. -/
theorem submits_dispatch (m : Machine) (root : Root) (listeners : List Listener) (name : String) :
    Submits m (m.dispatch root listeners name).1 := by
  unfold dispatch
  split
  · exact .refl m
  · rename_i lanes h
    exact submits_withSession m ⟨_, .one h⟩

/-- A sweep submits nothing. -/
theorem submits_sweep (m : Machine) (maxAge : Except Failure Duration) (now : Option Instant) :
    Submits m (m.sweep maxAge now).1 := by
  unfold sweep
  split
  · exact .refl m
  · rename_i n s h
    cases maxAge with
    | error f => cases h
    | ok a => exact (submits_withSession_same m (Session.sweep_lanes h)).of_same_right rfl rfl

/-- A step that is performed does nothing to the lanes and their threads but submit jobs, if the
observers do nothing else. -/
theorem submits_performWith {tell : Report} (ht : ∀ m r l, Submits m (tell m r l)) (m : Machine)
    (s : Step) : Submits m (m.performWith tell s).1 := by
  cases s with
  | frame v => exact submits_absorb ht m (Session.acceptFrame_accepts _ _ v)
  | packet p => exact submits_absorb ht m (Session.acceptPacket_accepts _ _ p)
  | dispatch root listeners name => exact submits_dispatch m root listeners name
  | sweep maxAge now => exact submits_sweep m maxAge now
  -- A registration is made in the session alone.
  | listen kind listener scope =>
    have hs : Submits m
        (m.withRegistry (m.session.registry.attach scope kind listener).2) :=
      submits_withSession_same m rfl
    exact hs.of_same_right rfl rfl
  | unlisten id =>
    simp only [performWith, unlisten]
    split
    · exact .refl m
    · exact submits_withSession_same m rfl
  | handle type name answer =>
    have hs : Submits m (m.withSession
        { m.session with handlers := (m.session.handlers.assign type (.custom name answer)).2 }) :=
      submits_withSession_same m rfl
    exact hs.of_same_right rfl rfl
  | put i => cases i <;> exact submits_withSession_same m rfl
  | remove r => cases r <;> exact submits_withSession_same m rfl
  -- Eviction drops messages, or fails for its time.
  | evict maxAge now =>
    simp only [performWith, evict]
    split
    · exact .refl m
    · exact submits_withSession_same m rfl
  | capacity n => exact submits_withSession_same m rfl
  | clear => exact submits_withSession_same m rfl
  | dropScope scope => exact submits_withSession_same m rfl
  | close => exact submits_withSession_same m rfl
  | observe name fails steps => exact .of_same rfl rfl
  | observeLogging => exact .of_same rfl rfl
  | _ => exact .refl m

/-- What observers do submits jobs and nothing else. -/
theorem submits_report (depth : Nat) (m : Machine) (refusal : Refusal) (l : Option Listener) :
    Submits m (report depth m refusal l) := by
  induction depth generalizing m refusal l with
  | zero => exact .refl m
  | succ depth ih =>
    refine submits_foldl (fun m o => ?_) m m.observers
    cases o with
    | scripted name fails steps =>
      -- What the steps of an observer refuse is told one level deeper.
      have hsteps := submits_foldl (submits_performWith ih)
        (m.remark (originOf refusal.subject) (.observed name refusal l)) steps
      have hall := hsteps.of_same_left (m := m) rfl rfl
      simp only [tellObserver]
      split
      · exact hall.of_same_right rfl rfl
      · exact hall
    | logging => exact .of_same rfl rfl

/-- A step that is performed does nothing to the lanes and their threads but submit jobs. -/
theorem submits_perform (m : Machine) (s : Step) : Submits m (m.perform s).1 :=
  submits_performWith (submits_report reportDepth) m s

end Switchboard.Scenario.Machine
