import Switchboard.Proofs.Lanes

/-!
# The flag of idleness and the order of the active lanes

The flag of idleness is set exactly while no lane is active (`Flagged`), and the active lanes stand
in the order in which they became active. The order is told by the states that the lanes have been
in: `Past` lists them, and `age` is for how many of the latest of them a lane has been active
without a break. The lane that became active first is the oldest one (`Past.ordered`).
-/

namespace Switchboard.Lanes

variable {l l' : Lanes} {root : Root}

/-- The active lanes after a job is accepted: its lane comes last if it was not active. -/
theorem active_submit {job : Job} (h : l.submit root job = .ok l') :
    l'.active = l.active ∨ root ∉ l.active ∧ l'.active = l.active ++ [root] := by
  rcases submit_cases h with ⟨-, rfl⟩ | ⟨jobs, hq, rfl⟩ | ⟨hq, rfl⟩
  · exact .inl rfl
  · have hroot : root ∈ Table.keys l.queues := Table.isSome_find?_iff.mp (by simp [hq])
    exact .inl (Table.keys_put_of_mem (jobs ++ [job]) hroot)
  · exact .inr ⟨Table.find?_eq_none_iff.mp hq, by simp [active, Table.keys]⟩

/-! ## The flag -/

/-- The flag of idleness is set exactly when no lane is active. -/
def Flagged (l : Lanes) : Prop := l.idle = true ↔ l.active = []

/-- An accepted job takes the flag down, if it has any listeners. -/
theorem Flagged.submit (hf : l.Flagged) {job : Job} (h : l.submit root job = .ok l') :
    l'.Flagged := by
  rcases submit_cases h with ⟨-, rfl⟩ | ⟨jobs, hq, rfl⟩ | ⟨-, rfl⟩
  · exact hf
  · have hroot : root ∈ Table.keys l.queues := Table.isSome_find?_iff.mp (by simp [hq])
    unfold Flagged active at hf ⊢
    rwa [Table.keys_put_of_mem (jobs ++ [job]) hroot]
  · simp [Flagged, active, Table.keys]

/-- A step of a drain puts the flag up when it retires the last lane, and otherwise leaves it. -/
theorem Flagged.advance (hf : l.Flagged) {move : Move} (h : l.advance root = some (move, l')) :
    l'.Flagged := by
  -- A drain that goes on with listeners leaves the flag and the active lanes alone.
  have hgoes {l : Lanes} {signal : Signal} {rest : List Listener} (hf : l.Flagged)
      (hp : (move, l') = l.proceed root signal rest) : l'.Flagged := by
    cases rest <;> cases hp <;> exact hf
  rcases advance_cases h with ⟨signal, rest, -, hp⟩ | ⟨job, jobs, -, hq, hp⟩ | ⟨-, -, -, rfl⟩
  · exact hgoes hf hp
  · have hroot : root ∈ Table.keys l.queues := Table.isSome_find?_iff.mp (by simp [hq])
    refine hgoes ?_ hp
    unfold Flagged active at hf ⊢
    rwa [Table.keys_put_of_mem jobs hroot]
  · -- The flag may have been up only if nothing was active, and then nothing is now.
    have hempty : l.active = [] → Table.drop root l.queues = [] := fun ha => by
      simp [Table.drop, List.map_eq_nil_iff.mp ha]
    have hidle := fun hi => hempty (hf.mp hi)
    simp only [Flagged, active, Table.keys, retire, Bool.or_eq_true, List.isEmpty_iff,
      List.map_eq_nil_iff]
    exact ⟨fun h => h.elim hidle id, .inr⟩

/-! ## The order -/

/-- The states of the lanes so far, newest first: at first no lane is active, and each state comes
of the one before by a job that is accepted or by a step of a drain. -/
inductive Past : List Lanes → Prop
  | start {l : Lanes} (h : l.active = []) : Past [l]
  | submit {l l' : Lanes} {past : List Lanes} {root : Root} {job : Job} (h : Past (l :: past))
      (hl : l.submit root job = .ok l') : Past (l' :: l :: past)
  | advance {l l' : Lanes} {past : List Lanes} {root : Root} {move : Move} (h : Past (l :: past))
      (hl : l.advance root = some (move, l')) : Past (l' :: l :: past)

/-- For how many of the latest states a lane has been active without a break. -/
def age (root : Root) (past : List Lanes) : Nat :=
  (past.takeWhile (·.active.contains root)).length

/-- A lane that is active is one state older than before. -/
theorem age_cons_of_mem (past : List Lanes) (h : root ∈ l.active) :
    age root (l :: past) = age root past + 1 := by
  simp [age, h]

/-- A lane that is not active has no age. -/
theorem age_cons_of_not_mem (past : List Lanes) (h : root ∉ l.active) :
    age root (l :: past) = 0 := by
  simp [age, h]

/-- The active lanes stand in the order in which they became active, the oldest one first. -/
theorem Past.ordered {past : List Lanes} (h : Past (l :: past)) :
    l.active.Pairwise fun r r' => age r' (l :: past) < age r (l :: past) := by
  -- Lanes that were active and stay so get older together.
  have hstay {l l' : Lanes} {past roots : List _} (hroots : roots.Sublist l.active)
      (hactive : ∀ r ∈ roots, r ∈ l'.active)
      (ih : l.active.Pairwise fun r r' => age r' (l :: past) < age r (l :: past)) :
      roots.Pairwise fun r r' => age r' (l' :: l :: past) < age r (l' :: l :: past) := by
    refine (ih.sublist hroots).imp_of_mem fun {r r'} hr hr' hlt => ?_
    rw [age_cons_of_mem _ (hactive r hr), age_cons_of_mem _ (hactive r' hr')]
    exact Nat.succ_lt_succ hlt
  generalize hpast : l :: past = all at h
  induction h generalizing l past with
  | start h =>
    obtain ⟨rfl, rfl⟩ := List.cons.inj hpast
    simp [h]
  | @submit l₀ l₁ past₀ root job _ hl ih =>
    obtain ⟨rfl, rfl⟩ := List.cons.inj hpast
    have ih := ih rfl
    rcases active_submit hl with hsame | ⟨hnew, hlast⟩
    · exact hsame ▸ hstay (.refl _) (fun r hr => hsame ▸ hr) ih
    · -- The lane that becomes active is the youngest one.
      rw [hlast, List.pairwise_append]
      refine ⟨hstay (.refl _) (fun r hr => by simp [hlast, hr]) ih, by simp, fun r hr r' hr' => ?_⟩
      rw [List.mem_singleton.mp hr', age_cons_of_mem _ (by simp [hlast]),
        age_cons_of_not_mem _ hnew, age_cons_of_mem _ (by simp [hlast, hr]), age_cons_of_mem _ hr]
      omega
  | @advance l₀ l₁ past₀ root move _ hl ih =>
    obtain ⟨rfl, rfl⟩ := List.cons.inj hpast
    have hsub : l.active.Sublist l₀.active := by
      rw [active_advance hl]
      split
      · exact List.filter_sublist
      · exact .refl _
    exact hstay hsub (fun r hr => hr) (ih rfl)

end Switchboard.Lanes
