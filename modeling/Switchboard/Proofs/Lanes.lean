import Switchboard.Lanes
import Switchboard.Proofs.Table

/-!
# What waits in the lanes

`Lanes.pending` is the list of calls that a lane still has to make: those of the job that its drain
is in, and then those of the jobs in its queue. Submitting a job appends the calls of the job
(`pending_submit`), and a step of a drain takes the call that it makes from the front
(`pending_advance`). Both hold for lanes that are `Sound`: every active lane has a drain, and no
other lane has one. A lane that is not active has nothing pending (`pending_of_inactive`).

`Lanes.Accepts` says that jobs are submitted one after another and all of them are accepted.
-/

namespace Switchboard

/-- The calls that a job asks for, in order. -/
def Job.calls (j : Job) : List (Listener × Signal) := j.listeners.map (·, j.signal)

/-- The calls that are left of the job that a drain is in. -/
def Progress.calls : Progress → List (Listener × Signal)
  | .between => []
  | .within signal rest => rest.map (·, signal)

/-- The call that a step of a drain makes. -/
def Move.calls : Move → List (Listener × Signal)
  | .call listener signal => [(listener, signal)]
  | .rest | .retire => []

namespace Lanes

/-- The calls that a lane still has to make, in order. -/
def pending (l : Lanes) (root : Root) : List (Listener × Signal) :=
  ((Table.find? root l.drains).map Progress.calls).getD [] ++
    ((Table.find? root l.queues).getD []).flatMap Job.calls

/-- No lane is active twice, and the active lanes are those with a drain. -/
structure Sound (l : Lanes) : Prop where
  /-- No lane is active twice. -/
  nodup : l.active.Nodup
  /-- The lanes with a drain are the active ones. -/
  served : Table.keys l.drains = l.active

/-- Lanes of which none is active. -/
theorem Sound.of_nil {l : Lanes} (hq : l.queues = []) (hd : l.drains = []) : l.Sound :=
  ⟨by simp [active, hq, Table.keys], by simp [active, hq, hd, Table.keys]⟩

/-- An active lane has a drain. -/
theorem Sound.exists_drain {l : Lanes} (h : l.Sound) {root : Root} (ha : root ∈ l.active) :
    ∃ p, Table.find? root l.drains = some p :=
  Option.isSome_iff_exists.mp (Table.isSome_find?_iff.mpr (h.served ▸ ha))

/-- A lane that is not active has no drain. -/
theorem Sound.no_drain {l : Lanes} (h : l.Sound) {root : Root} (ha : root ∉ l.active) :
    Table.find? root l.drains = none :=
  Table.find?_eq_none_iff.mpr (h.served ▸ ha)

/-- A lane that is not active has nothing to do. -/
theorem pending_of_inactive {l : Lanes} (h : l.Sound) {root : Root} (ha : root ∉ l.active) :
    l.pending root = [] := by
  have hq : Table.find? root l.queues = none := Table.find?_eq_none_iff.mpr ha
  simp [pending, h.no_drain ha, hq]

/-! ## Submitting -/

/-- What an accepted job does: without listeners nothing, otherwise it joins the queue of its lane,
which becomes active if it is not. -/
theorem submit_cases {l l' : Lanes} {root : Root} {job : Job} (h : l.submit root job = .ok l') :
    (job.listeners = [] ∧ l' = l) ∨
    (∃ jobs, Table.find? root l.queues = some jobs ∧
      l' = { l with queues := Table.put root (jobs ++ [job]) l.queues }) ∨
    (Table.find? root l.queues = none ∧
      l' = { l with
        queues := l.queues ++ [(root, [job])]
        drains := Table.put root .between l.drains
        idle := false }) := by
  unfold submit at h
  -- A stopped dispatcher refuses the job.
  split at h
  · cases h
  · -- A job without listeners is dropped, and another one joins the queue of its lane or begins
    -- one.
    split at h
    · rename_i hempty
      exact .inl ⟨List.isEmpty_iff.mp hempty, (Except.ok.inj h).symm⟩
    · split at h
      · rename_i jobs hq
        exact .inr (.inl ⟨jobs, hq, (Except.ok.inj h).symm⟩)
      · rename_i hq
        exact .inr (.inr ⟨hq, (Except.ok.inj h).symm⟩)

/-- Lanes that are served accept every job. -/
theorem exists_submit {l : Lanes} (hr : l.running = true) (root : Root) (job : Job) :
    ∃ l', l.submit root job = .ok l' := by
  unfold submit
  rw [hr]
  split
  · contradiction
  · split
    · exact ⟨_, rfl⟩
    · split
      · exact ⟨_, rfl⟩
      · exact ⟨_, rfl⟩

/-- The active lanes after a job is accepted are the old ones and perhaps that of the job. -/
theorem mem_active_submit {l l' : Lanes} {root root' : Root} {job : Job}
    (h : l.submit root job = .ok l') (ha : root' ∈ l.active) : root' ∈ l'.active := by
  rcases submit_cases h with ⟨-, rfl⟩ | ⟨jobs, -, rfl⟩ | ⟨-, rfl⟩
  · exact ha
  · exact Table.mem_keys_put.mpr (.inr ha)
  · simp only [active, Table.keys, List.map_append, List.mem_append]
    exact .inl ha

/-- An accepted job leaves the lanes sound. -/
theorem Sound.submit {l l' : Lanes} (hs : l.Sound) {root : Root} {job : Job}
    (h : l.submit root job = .ok l') : l'.Sound := by
  rcases submit_cases h with ⟨-, rfl⟩ | ⟨jobs, hq, rfl⟩ | ⟨hq, rfl⟩
  · exact hs
  · -- The queue of an active lane stays where it is.
    have hroot : root ∈ Table.keys l.queues := Table.isSome_find?_iff.mp (by simp [hq])
    have hkeys := Table.keys_put_of_mem (jobs ++ [job]) hroot
    exact ⟨by simpa only [active, hkeys] using hs.nodup,
      by simpa only [active, hkeys] using hs.served⟩
  · -- A lane that becomes active comes last.
    have hroot : root ∉ l.active := Table.find?_eq_none_iff.mp hq
    have hfresh : Table.put root [job] l.queues = l.queues ++ [(root, [job])] :=
      Table.put_of_not_mem _ hroot
    constructor
    · simp only [active, ← hfresh]
      exact Table.nodup_keys_put hs.nodup
    · -- The lane had no drain, so that is added behind the others, as the queue is.
      rw [Table.put_of_not_mem _ (hs.served ▸ hroot)]
      have hserved := hs.served
      simp only [active, Table.keys, List.map_append, List.map_cons, List.map_nil] at hserved ⊢
      rw [hserved]

/-- An accepted job appends its calls to what its lane has to do. -/
theorem pending_submit {l l' : Lanes} (hs : l.Sound) {root : Root} {job : Job}
    (h : l.submit root job = .ok l') (root' : Root) :
    l'.pending root' = l.pending root' ++ if root = root' then job.calls else [] := by
  rcases submit_cases h with ⟨hempty, rfl⟩ | ⟨jobs, hq, rfl⟩ | ⟨hq, rfl⟩
  · simp [Job.calls, hempty]
  · -- The queue of the lane is one job longer; the other lanes have what they had.
    by_cases hr : root = root'
    · subst hr
      simp [pending, hq, List.flatMap_append]
    · simp [pending, hr, Table.find?_put_of_ne (Ne.symm hr)]
  · have hroot : root ∉ l.active := Table.find?_eq_none_iff.mp hq
    have hfresh : Table.put root [job] l.queues = l.queues ++ [(root, [job])] :=
      Table.put_of_not_mem _ hroot
    by_cases hr : root = root'
    · -- A lane that was not active had nothing to do, and now has the job.
      subst hr
      simp [pending_of_inactive hs hroot]
      simp [pending, ← hfresh, Progress.calls]
    · simp [pending, ← hfresh, hr, Table.find?_put_of_ne (Ne.symm hr)]

/-- Jobs are submitted one after another, and all of them are accepted. -/
inductive Accepts : Lanes → List (Root × Job) → Lanes → Prop
  | nil (l : Lanes) : Accepts l [] l
  | cons {l l₁ l₂ : Lanes} {root : Root} {job : Job} {js : List (Root × Job)}
      (first : l.submit root job = .ok l₁) (rest : Accepts l₁ js l₂) :
      Accepts l ((root, job) :: js) l₂

/-- One job is submitted and accepted. -/
theorem Accepts.one {l l' : Lanes} {root : Root} {job : Job} (h : l.submit root job = .ok l') :
    Accepts l [(root, job)] l' :=
  .cons h (.nil l')

/-- Jobs are submitted, and then more jobs. -/
theorem Accepts.append {l l₁ l₂ : Lanes} {js js' : List (Root × Job)} (h : Accepts l js l₁)
    (h' : Accepts l₁ js' l₂) : Accepts l (js ++ js') l₂ := by
  induction h with
  | nil => exact h'
  | cons first _ ih => exact .cons first (ih h')

/-- A lane that is active stays active while jobs are submitted. -/
theorem Accepts.mem_active {l l' : Lanes} {js : List (Root × Job)} (h : Accepts l js l')
    {root : Root} (ha : root ∈ l.active) : root ∈ l'.active := by
  induction h with
  | nil => exact ha
  | cons first _ ih => exact ih (mem_active_submit first ha)

/-- Submitting jobs does not start or stop the serving of the lanes. -/
theorem Accepts.running_eq {l l' : Lanes} {js : List (Root × Job)} (h : Accepts l js l') :
    l'.running = l.running := by
  induction h with
  | nil => rfl
  | cons first _ ih =>
    rcases submit_cases first with ⟨-, rfl⟩ | ⟨jobs, -, rfl⟩ | ⟨-, rfl⟩
    · exact ih
    · exact ih
    · exact ih

/-- Jobs that are accepted leave the lanes sound and append their calls to what their lanes have to
do. -/
theorem Accepts.pending {l l' : Lanes} {js : List (Root × Job)} (h : Accepts l js l')
    (hs : l.Sound) : l'.Sound ∧ ∀ root, l'.pending root =
      l.pending root ++ js.flatMap fun j => if j.1 = root then j.2.calls else [] := by
  induction h with
  | nil => exact ⟨hs, fun root => by simp⟩
  | cons first _ ih =>
    obtain ⟨hsound, hpending⟩ := ih (hs.submit first)
    refine ⟨hsound, fun root => ?_⟩
    rw [hpending, pending_submit hs first, List.flatMap_cons, List.append_assoc]

/-! ## The steps of a drain -/

/-- What a step of a drain does: it goes on with the listeners of the job it is in, or those of the
next job in the queue, or retires the lane when there is none. -/
theorem advance_cases {l l' : Lanes} {root : Root} {move : Move}
    (h : l.advance root = some (move, l')) :
    (∃ signal rest, Table.find? root l.drains = some (.within signal rest) ∧
      (move, l') = l.proceed root signal rest) ∨
    (∃ job jobs, Table.find? root l.drains = some .between ∧
      Table.find? root l.queues = some (job :: jobs) ∧
      (move, l') =
        { l with queues := Table.put root jobs l.queues }.proceed root job.signal job.listeners) ∨
    (Table.find? root l.drains = some .between ∧ (Table.find? root l.queues).getD [] = [] ∧
      move = .retire ∧ l' = l.retire root) := by
  unfold advance at h
  -- The drain is gone, in the middle of a job, or between two.
  split at h
  · cases h
  · rename_i signal rest hd
    exact .inl ⟨signal, rest, hd, (Option.some.inj h).symm⟩
  · rename_i hd
    -- Between two jobs the queue decides.
    split at h
    · rename_i hq
      cases h
      exact .inr (.inr ⟨hd, hq, rfl, rfl⟩)
    · rename_i job jobs hq
      -- A queue that is missing counts as an empty one, so this one is there.
      have hq' : Table.find? root l.queues = some (job :: jobs) := by
        cases hf : Table.find? root l.queues with
        | none => simp [hf] at hq
        | some js => simpa [hf] using hq
      exact .inr (.inl ⟨job, jobs, hd, hq', (Option.some.inj h).symm⟩)

/-- Going on with listeners makes the first of the calls and leaves the others; the queues stay. -/
theorem proceed_spec {l l' : Lanes} {root : Root} {signal : Signal} {rest : List Listener}
    {move : Move} (h : (move, l') = l.proceed root signal rest) :
    l'.queues = l.queues ∧
      ∃ p, l'.drains = Table.put root p l.drains ∧
        rest.map (·, signal) = move.calls ++ p.calls := by
  cases rest with
  | nil =>
    cases h
    exact ⟨rfl, .between, rfl, rfl⟩
  | cons c rest =>
    cases h
    exact ⟨rfl, .within signal rest, rfl, rfl⟩

/-- A lane is active until its drain retires it. -/
theorem active_advance {l l' : Lanes} {root : Root} {move : Move}
    (h : l.advance root = some (move, l')) :
    l'.active = if move = .retire then l.active.filter (!· == root) else l.active := by
  -- A drain that goes on with listeners does not retire its lane.
  have hcall {l : Lanes} {signal : Signal} {rest : List Listener}
      (hp : (move, l') = l.proceed root signal rest) : move ≠ .retire := by
    cases rest <;> cases hp <;> exact Move.noConfusion
  rcases advance_cases h with ⟨signal, rest, hd, hp⟩ | ⟨job, jobs, hd, hq, hp⟩ | ⟨hd, -, rfl, rfl⟩
  · obtain ⟨hq, -⟩ := proceed_spec hp
    rw [if_neg (hcall hp), active, hq, active]
  · obtain ⟨hq', -⟩ := proceed_spec hp
    rw [if_neg (hcall hp), active, hq',
      Table.keys_put_of_mem jobs (Table.isSome_find?_iff.mp (by simp [hq])), active]
  · rw [if_pos rfl, active, retire, Table.keys_drop, active]

/-- A step of a drain does not start or stop the serving of the lanes. -/
theorem running_advance {l l' : Lanes} {root : Root} {move : Move}
    (h : l.advance root = some (move, l')) : l'.running = l.running := by
  have hproceed {l : Lanes} {signal : Signal} {rest : List Listener}
      (hp : (move, l') = l.proceed root signal rest) : l'.running = l.running := by
    cases rest <;> cases hp <;> rfl
  rcases advance_cases h with ⟨signal, rest, -, hp⟩ | ⟨job, jobs, -, -, hp⟩ | ⟨-, -, -, rfl⟩
  · exact hproceed hp
  · exact (hproceed hp).trans rfl
  · rfl

/-- The drain of an active lane always has a step to take. -/
theorem Sound.exists_advance {l : Lanes} (hs : l.Sound) {root : Root} (ha : root ∈ l.active) :
    ∃ move l', l.advance root = some (move, l') := by
  obtain ⟨p, hp⟩ := hs.exists_drain ha
  unfold advance
  rw [hp]
  cases p with
  | within signal rest => exact ⟨_, _, rfl⟩
  | between => dsimp only; split <;> exact ⟨_, _, rfl⟩

/-- A step of a drain leaves the lanes sound. -/
theorem Sound.advance {l l' : Lanes} (hs : l.Sound) {root : Root} {move : Move}
    (h : l.advance root = some (move, l')) : l'.Sound := by
  have hactive := active_advance h
  have hkeys {t : Progress} (p : Progress) (hd : Table.find? root l.drains = some t) :
      Table.keys (Table.put root p l.drains) = l.active := by
    rw [Table.keys_put_of_mem p (Table.isSome_find?_iff.mp (by simp [hd])), hs.served]
  constructor
  · -- Only a lane that retires is not active any more.
    rw [hactive]
    split
    · exact hs.nodup.filter _
    · exact hs.nodup
  · -- The lane has a drain after the step, unless it retires.
    rcases advance_cases h with ⟨signal, rest, hd, hp⟩ | ⟨job, jobs, hd, hq, hp⟩ | ⟨hd, -, rfl, rfl⟩
    · obtain ⟨hq, p, hd', -⟩ := proceed_spec hp
      rw [hd', hkeys p hd, active, active, hq]
    · obtain ⟨hq', p, hd', -⟩ := proceed_spec hp
      rw [hd', hkeys p hd, active, active, hq',
        Table.keys_put_of_mem jobs (Table.isSome_find?_iff.mp (by simp [hq]))]
    · rw [hactive, if_pos rfl, retire, Table.keys_drop, hs.served]

/-- A step of a drain takes the call that it makes from the front of what its lane has to do, and
leaves the other lanes alone. -/
theorem pending_advance {l l' : Lanes} {root : Root} {move : Move}
    (h : l.advance root = some (move, l')) (root' : Root) :
    l.pending root' = (if root = root' then move.calls else []) ++ l'.pending root' := by
  -- The three cases of the step, each in this lane and in another one.
  rcases advance_cases h with ⟨signal, rest, hd, hp⟩ | ⟨job, jobs, hd, hq, hp⟩ | ⟨hd, hq, rfl, rfl⟩
  · obtain ⟨hq, p, hd', hcalls⟩ := proceed_spec hp
    by_cases hr : root = root'
    · subst hr
      simp [pending, hq, hd', hd, Progress.calls, hcalls]
    · simp [pending, hq, hd', hr, Table.find?_put_of_ne (Ne.symm hr)]
  · obtain ⟨hq', p, hd', hcalls⟩ := proceed_spec hp
    by_cases hr : root = root'
    · subst hr
      simp [pending, hq', hq, hd', hd, Progress.calls, Job.calls, hcalls]
    · simp [pending, hq', hd', hr, Table.find?_put_of_ne (Ne.symm hr)]
  · by_cases hr : root = root'
    · subst hr
      simp [pending, retire, hd, hq, Progress.calls, Move.calls]
    · simp [pending, retire, hr, Table.find?_drop_of_ne (Ne.symm hr)]

end Lanes

end Switchboard
