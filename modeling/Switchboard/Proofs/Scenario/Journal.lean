import Switchboard.Proofs.Scenario.Machine

/-!
# What comes into the journal and the log

Whatever is performed only adds to the journal and to the log, and takes no time (`Leaves`). A step
that feeds no frame and no packet adds nothing to the journal, and what it logs is logged by no
observer (`leaves_performWith`). What came of a frame or a packet adds the call of a handler and the
records of the session (`leaves_taken`), and whatever observers do who are told of a refusal.
-/

namespace Switchboard

/-- The record is made by an observer that logs. -/
def LogRecord.isObserved : LogRecord → Bool
  | .pipelineFailed .. => true
  | _ => false

namespace Scenario

/-- The note is made by an observer that is told of a failure. -/
def Note.isObserved : Note → Bool
  | .observed .. => true
  | _ => false

/-- The step feeds a frame or a packet. -/
def Step.feeds : Step → Bool
  | .frame _ | .packet _ => true
  | _ => false

/-- No observer is told of anything in these remarks and records. -/
structure Untold (js : List Remark) (rs : List LogRecord) : Prop where
  remarks : ∀ j ∈ js, j.note.isObserved = false
  records : ∀ r ∈ rs, r.isObserved = false

/-- Nothing says nothing. -/
theorem Untold.nil : Untold [] [] := ⟨by simp, by simp⟩

/-- Nothing new is told when two things are told one after the other and neither is new. -/
theorem Untold.append {js js' : List Remark} {rs rs' : List LogRecord} (h : Untold js rs)
    (h' : Untold js' rs') : Untold (js ++ js') (rs ++ rs') :=
  ⟨List.forall_mem_append.mpr ⟨h.remarks, h'.remarks⟩,
    List.forall_mem_append.mpr ⟨h.records, h'.records⟩⟩

/-- No remark is of an observer. -/
theorem Untold.filter_remarks {js : List Remark} {rs : List LogRecord} (h : Untold js rs) :
    js.filter (·.note.isObserved) = [] :=
  List.filter_eq_nil_iff.mpr fun j hj => by simp [h.remarks j hj]

/-- No record is of an observer. -/
theorem Untold.filter_records {js : List Remark} {rs : List LogRecord} (h : Untold js rs) :
    rs.filter LogRecord.isObserved = [] :=
  List.filter_eq_nil_iff.mpr fun r hr => by simp [h.records r hr]

namespace Machine

/-- From one machine to another some remarks come into the journal and some records into the log, in
this order, and no time passes. -/
structure Leaves (m m' : Machine) (js : List Remark) (rs : List LogRecord) : Prop where
  clock : m'.clock = m.clock
  journal : m'.journal = js.reverse ++ m.journal
  logs : m'.logs = rs.reverse ++ m.logs

namespace Leaves

variable {m m₁ m' : Machine} {js js' : List Remark} {rs rs' : List LogRecord}

/-- Clock, journal and log stay as they are. -/
theorem of_same (hc : m'.clock = m.clock) (hj : m'.journal = m.journal) (hl : m'.logs = m.logs) :
    Leaves m m' [] [] := ⟨hc, hj, hl⟩

/-- A machine that stays as it is adds nothing. -/
theorem refl (m : Machine) : Leaves m m [] [] := of_same rfl rfl rfl

/-- One thing happens after another. -/
theorem trans (h : Leaves m m₁ js rs) (h' : Leaves m₁ m' js' rs') :
    Leaves m m' (js ++ js') (rs ++ rs') where
  clock := h'.clock.trans h.clock
  journal := by rw [h'.journal, h.journal, List.reverse_append, List.append_assoc]
  logs := by rw [h'.logs, h.logs, List.reverse_append, List.append_assoc]

/-- A session takes the place of another one. -/
theorem withSession (m : Machine) (s : Session) : Leaves m (m.withSession s) [] [] :=
  of_same (foldl_spawn_same Machine.clock (fun _ _ _ => rfl) _ _) (withSession_journal m s)
    (withSession_logs m s)

/-- Something is written to the journal. -/
theorem remark (m : Machine) (origin : Origin) (note : Note) :
    Leaves m (m.remark origin note) [⟨origin, m.clock, note⟩] [] := ⟨rfl, rfl, rfl⟩

/-- Something is logged. -/
theorem logAll (m : Machine) (rs : List LogRecord) : Leaves m (m.logAll rs) [] rs := ⟨rfl, rfl, rfl⟩

/-- What comes into the journal and the log is told by the machines. -/
theorem unique (h : Leaves m m' js rs) (h' : Leaves m m' js' rs') : js = js' ∧ rs = rs' :=
  ⟨List.reverse_injective (List.append_cancel_right (h.journal.symm.trans h'.journal)),
    List.reverse_injective (List.append_cancel_right (h.logs.symm.trans h'.logs))⟩

/-- If each of several things adds something of a kind, then all of them do. -/
theorem foldl {α : Type} {f : Machine → α → Machine} {P : List Remark → List LogRecord → Prop}
    (hnil : P [] []) (happend : ∀ {js rs js' rs'}, P js rs → P js' rs' → P (js ++ js') (rs ++ rs'))
    {as : List α} (h : ∀ m, ∀ a ∈ as, ∃ js rs, Leaves m (f m a) js rs ∧ P js rs) (m : Machine) :
    ∃ js rs, Leaves m (as.foldl f m) js rs ∧ P js rs := by
  induction as generalizing m with
  | nil => exact ⟨[], [], refl m, hnil⟩
  | cons a as ih =>
    obtain ⟨js, rs, hfirst, hp⟩ := h m a List.mem_cons_self
    obtain ⟨js', rs', hrest, hp'⟩ := ih (fun m b hb => h m b (List.mem_cons_of_mem a hb)) (f m a)
    exact ⟨_, _, hfirst.trans hrest, happend hp hp'⟩

/-- If each of several things adds something, then all of them do. -/
theorem exists_foldl {α : Type} {f : Machine → α → Machine}
    (h : ∀ m a, ∃ js rs, Leaves m (f m a) js rs) (m : Machine) (as : List α) :
    ∃ js rs, Leaves m (as.foldl f m) js rs := by
  obtain ⟨js, rs, hleaves, -⟩ := foldl (P := fun _ _ => True) trivial (fun _ _ => trivial)
    (fun m a (_ : a ∈ as) => (h m a).imp fun _ => Exists.imp fun _ h => ⟨h, trivial⟩) m
  exact ⟨js, rs, hleaves⟩

end Leaves

/-! ## Steps -/

/-- A step that feeds nothing adds nothing to the journal, and what it logs is logged by no
observer. -/
theorem leaves_performWith (tell : Report) (m : Machine) {s : Step} (hs : s.feeds = false) :
    ∃ rs, Leaves m (m.performWith tell s).1 [] rs ∧ Untold [] rs := by
  -- Most steps touch neither the journal nor the log; some log what they have done.
  have hsame {m' : Machine} (h : Leaves m m' [] []) : ∃ rs, Leaves m m' [] rs ∧ Untold [] rs :=
    ⟨[], h, .nil⟩
  have hlogged (s : Session) {rs : List LogRecord} (h : ∀ r ∈ rs, r.isObserved = false) :
      ∃ rs', Leaves m ((m.withSession s).logAll rs) [] rs' ∧ Untold [] rs' :=
    ⟨rs, (Leaves.withSession m s).trans (.logAll _ rs), by simp, h⟩
  cases s with
  | frame v => cases hs
  | packet p => cases hs
  | listen kind listener scope =>
    have hregistry : Leaves m
        (m.withRegistry (m.session.registry.attach scope kind listener).2) [] [] := .withSession m _
    exact hsame ⟨hregistry.clock, hregistry.journal, hregistry.logs⟩
  | unlisten id =>
    simp only [performWith, unlisten]
    split
    · exact hsame (.refl m)
    · exact hsame (.withSession m _)
  | handle type name answer =>
    refine hlogged _ ?_
    split <;> simp [LogRecord.isObserved]
  | dispatch root listeners name =>
    simp only [performWith, dispatch]
    split
    · exact hsame (.refl m)
    · exact hsame (.withSession m _)
  | sweep maxAge now =>
    simp only [performWith, sweep]
    split
    · exact hsame (.refl m)
    · -- The record of a sweep is about messages and registrations.
      refine hlogged _ ?_
      unfold Session.sweepRecords
      split <;> simp [LogRecord.isObserved]
  | put i => cases i <;> exact hsame (.withSession m _)
  | remove r => cases r <;> exact hsame (.withSession m _)
  | evict maxAge now =>
    simp only [performWith, evict]
    split
    · exact hsame (.refl m)
    · exact hsame (.withSession m _)
  | capacity n => exact hsame (.withSession m _)
  | clear => exact hsame (.withSession m _)
  | dropScope scope => exact hsame (.withSession m _)
  | close => exact hsame (.withSession m _)
  | _ => exact hsame (.of_same rfl rfl rfl)

/-- Steps that feed nothing, one after another. -/
theorem leaves_steps (tell : Report) {steps : List Step} (hs : ∀ s ∈ steps, s.feeds = false)
    (m : Machine) :
    ∃ rs, Leaves m (steps.foldl (fun m s => (m.performWith tell s).1) m) [] rs ∧ Untold [] rs := by
  obtain ⟨js, rs, h, rfl, hu⟩ := Leaves.foldl (P := fun js rs => js = [] ∧ Untold [] rs)
    ⟨rfl, .nil⟩ (fun h h' => ⟨by rw [h.1, h'.1, List.append_nil], h.2.append h'.2⟩)
    (fun m s hin => by
      obtain ⟨rs, h, hu⟩ := leaves_performWith tell m (hs s hin)
      exact ⟨[], rs, h, rfl, hu⟩) m
  exact ⟨rs, h, hu⟩

/-! ## Frames and packets -/

/-- The call of a handler of the embedding program. -/
def callRemarks (m : Machine) (h : Handled) : List Remark :=
  h.called.toList.map fun call => ⟨.packet, m.clock, .handled call.1 call.2⟩

/-- It is no call of an observer. -/
theorem not_isObserved_callRemarks (m : Machine) (h : Handled) :
    ∀ j ∈ m.callRemarks h, j.note.isObserved = false := by
  intro j hj
  obtain ⟨call, -, rfl⟩ := List.mem_map.mp hj
  rfl

/-- What came of a frame or a packet is taken. -/
theorem leaves_taken (m : Machine) (h : Handled) :
    Leaves m (m.taken h) (m.callRemarks h) h.logs := by
  have hnote (m : Machine) : Leaves m ((m.withSession h.session).logAll h.logs) [] h.logs :=
    (Leaves.withSession m h.session).trans (.logAll _ _)
  unfold taken callRemarks
  cases h.called with
  | none => exact hnote m
  | some call => exact (Leaves.remark m .packet _).trans (hnote _)

/-- A step of any kind only adds to the journal and the log, if telling does. -/
theorem exists_leaves_performWith {tell : Report}
    (ht : ∀ m r, ∃ js rs, Leaves m (tell m r none) js rs) (m : Machine) (s : Step) :
    ∃ js rs, Leaves m (m.performWith tell s).1 js rs := by
  -- What the steps of an observer feed is told to the observers again.
  have habsorb (h : Handled) : ∃ js rs, Leaves m (m.absorb tell h) js rs := by
    rw [absorb_eq]
    split
    · rename_i r _
      obtain ⟨js, rs, hrest⟩ := ht (m.taken h) r
      exact ⟨_, _, (leaves_taken m h).trans hrest⟩
    · exact ⟨_, _, leaves_taken m h⟩
  cases hs : s.feeds with
  | true =>
    cases s with
    | frame v => exact habsorb _
    | packet p => exact habsorb _
    | _ => cases hs
  | false =>
    obtain ⟨rs, h, -⟩ := leaves_performWith tell m hs
    exact ⟨[], rs, h⟩

end Machine

end Scenario

end Switchboard
