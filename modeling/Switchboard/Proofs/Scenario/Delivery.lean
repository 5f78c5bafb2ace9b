import Mathlib.Logic.Function.Basic
import Switchboard.Proofs.Lanes.Happening
import Switchboard.Proofs.Scenario.History
import Switchboard.Scenario

/-!
# The lanes deliver

`Steady` is what holds at every moment of a history: the tally of the lanes is right, the thread of
an active lane has the rest of a script and then the drain, and no other thread has a drain. Every
instruction keeps it (`Steady.exec`), and so does everything else that can happen
(`History.steady`). So the lanes deliver in every order of runs and submissions
(`history_delivered`).
-/

namespace Switchboard.Scenario.Machine

/-! ## What holds at every moment -/

/-- At a moment of a history the tally of the lanes is right, and only the lanes have drains. -/
structure Steady (hs : List Happening) (l : Lanes) (codes : ThreadId → List Instr) : Prop where
  /-- A call is under way in a lane when its thread has more to run than the drain. -/
  tally : Tally hs l fun root => !(codes (.lane root)).all isDrain
  /-- The thread of an active lane has the rest of a script and then the drain. -/
  serving : ∀ root ∈ l.active,
    ∃ script, codes (.lane root) = script ++ [.drain root] ∧ Listening script
  /-- The thread of a lane that is not active has nothing to run. -/
  retired : ∀ root, root ∉ l.active → codes (.lane root) = []
  /-- The other threads have no drain. -/
  others : ∀ id, (∀ root, id ≠ .lane root) → DrainFree (codes id)

namespace Steady

variable {hs : List Happening} {m m' : Machine} {id : ThreadId} {i : Instr}
  {code code' : List Instr}

/-- The thread of a lane that has something to run is that of an active lane. -/
theorem active_of_code {l : Lanes} {codes : ThreadId → List Instr} (h : Steady hs l codes)
    {root : Root} (hc : codes (.lane root) ≠ []) : root ∈ l.active := by
  by_contra ha
  exact hc (h.retired root ha)

/-- Between the steps of its drain the thread of a lane is within the script of a listener. -/
theorem within_script {l : Lanes} {codes : ThreadId → List Instr} (h : Steady hs l codes)
    {root : Root} (hc : codes (.lane root) = i :: code) (hi : isDrain i = false) :
    decides i = false ∧ ∃ script, code = script ++ [.drain root] ∧ Listening script := by
  -- A thread with something to run has the rest of a script and then the drain.
  obtain ⟨script, hs, hl⟩ := h.serving root (h.active_of_code (by simp [hc]))
  cases script with
  | nil =>
    rw [hc] at hs
    simp [(List.cons.inj hs).1, isDrain] at hi
  | cons j script =>
    rw [hc] at hs
    obtain ⟨rfl, rfl⟩ := List.cons.inj hs
    exact ⟨(hl _ List.mem_cons_self).2, script, rfl, fun j hj => hl j (List.mem_cons_of_mem _ hj)⟩

/-- The drain is the last instruction of the thread of its lane, and the only one of its kind. -/
theorem at_drain {l : Lanes} {codes : ThreadId → List Instr} (h : Steady hs l codes) {root : Root}
    (hc : codes id = .drain root :: code) : id = .lane root ∧ code = [] ∧ root ∈ l.active := by
  by_cases hid : ∃ r, id = .lane r
  · obtain ⟨r, rfl⟩ := hid
    have ha : r ∈ l.active := h.active_of_code (by simp [hc])
    obtain ⟨script, hs, hl⟩ := h.serving r ha
    -- A script has no drain, so the drain comes first only when the script is over.
    cases script with
    | nil =>
      rw [hc] at hs
      obtain ⟨hr, rfl⟩ := List.cons.inj hs
      cases hr
      exact ⟨rfl, rfl, ha⟩
    | cons j script =>
      rw [hc] at hs
      have hj := (hl j List.mem_cons_self).1
      rw [← (List.cons.inj hs).1] at hj
      simp [isDrain] at hj
  · have hfree := h.others id (fun r hr => hid ⟨r, hr⟩) (.drain root) (by simp [hc])
    simp [isDrain] at hfree

/-- An instruction that is no drain keeps what holds. -/
theorem work (h : Steady hs m.session.lanes (Function.update m.codeOf id (i :: code)))
    (hi : isDrain i = false) (hsub : Submits m m') (hc : Continues i code code')
    {js : List (Root × Job)} (hjs : m.session.lanes.Accepts js m'.session.lanes) :
    Steady (hs ++ ((js.map fun j => .accepted j.1 j.2) ++ endOf id code')) m'.session.lanes
      (Function.update m'.codeOf id code') where
  tally := by
    have hacc := h.tally.acceptAll hjs
    -- A drain that is started for another lane does not make that lane busy.
    have hother (r : Root) (hr : .lane r ≠ id) : (!(m'.codeOf (.lane r)).all isDrain) =
        !(Function.update m.codeOf id (i :: code) (.lane r)).all isDrain := by
      rw [Function.update_of_ne hr]
      by_cases ha : r ∈ m.session.lanes.active
      · rw [hsub.kept r (.inl ha)]
      · by_cases ha' : r ∈ m'.session.lanes.active
        · have hnone := h.retired r ha
          rw [Function.update_of_ne hr] at hnone
          rw [hsub.fresh r ha ha', hnone]
          rfl
        · rw [hsub.kept r (.inr ha')]
    rw [← List.append_assoc]
    -- Only in the thread of a lane can the instruction be the last one of a call.
    cases id with
    | lane root =>
      cases hover : code'.all isDrain with
      | true =>
        simp only [endOf, hover, if_true]
        refine hacc.finish (by simp [hi]) (by simp [hover]) fun r hr => ?_
        have hne : ThreadId.lane r ≠ .lane root := fun he => hr (ThreadId.lane.inj he)
        rw [Function.update_of_ne hne, hother r hne]
      | false =>
        simp only [endOf, hover, Bool.false_eq_true, if_false, List.append_nil]
        refine hacc.congr fun r => ?_
        by_cases hr : r = root
        · subst hr
          simp [hover, hi]
        · have hne : ThreadId.lane r ≠ .lane root := fun he => hr (ThreadId.lane.inj he)
          rw [Function.update_of_ne hne, hother r hne]
    | _ =>
      simp only [endOf, List.append_nil]
      exact hacc.congr fun r => by rw [Function.update_of_ne (by simp), hother r (by simp)]
  serving root ha' := by
    by_cases hr : .lane root = id
    · -- The listener of this lane goes on, and the drain still comes after its script.
      subst hr
      obtain ⟨hd, script, rfl, hl⟩ := h.within_script (Function.update_self ..) hi
      rw [Function.update_self]
      exact hc.listening hd hl
    · rw [Function.update_of_ne hr]
      by_cases ha : root ∈ m.session.lanes.active
      · have hold := h.serving root ha
        rwa [Function.update_of_ne hr, ← hsub.kept root (.inl ha)] at hold
      · exact ⟨[], hsub.fresh root ha ha', by simp [Listening]⟩
  retired root ha' := by
    have ha : root ∉ m.session.lanes.active := fun ha => ha' (hjs.mem_active ha)
    have hold := h.retired root ha
    by_cases hr : .lane root = id
    · subst hr
      simp at hold
    · rw [Function.update_of_ne hr] at hold ⊢
      rw [hsub.kept root (.inr ha'), hold]
  others id' hid' := by
    have hold := h.others id' hid'
    by_cases hr : id' = id
    · subst hr
      rw [Function.update_self] at hold ⊢
      exact hc.drainFree fun j hj => hold j (List.mem_cons_of_mem _ hj)
    · rw [Function.update_of_ne hr] at hold ⊢
      exact hsub.others id' hid' hold

/-- A step of a drain keeps what holds in the other lanes, and in its own lane when the tally is
right and its thread is left with a script and the drain, or with nothing when the lane retires. -/
theorem advance {l l' : Lanes} {codes : ThreadId → List Instr} {root : Root} {move : Move}
    {hs' : List Happening} (h : Steady hs l (Function.update codes (.lane root) code))
    (hadv : l.advance root = some (move, l'))
    (hcode : (move = .retire ∧ code' = []) ∨
      (move ≠ .retire ∧ root ∈ l.active ∧
        ∃ script, code' = script ++ [.drain root] ∧ Listening script))
    (ht : Tally hs' l' fun r => !(Function.update codes (.lane root) code' (.lane r)).all isDrain) :
    Steady hs' l' (Function.update codes (.lane root) code') where
  tally := ht
  -- A lane that is active after the step was active before, and only that of the step has a new
  -- script.
  serving r ha := by
    rw [Lanes.active_advance hadv] at ha
    by_cases hr : r = root
    · subst hr
      rw [Function.update_self]
      rcases hcode with ⟨hm, -⟩ | ⟨-, -, hscript⟩
      · simp [hm] at ha
      · exact hscript
    · have hne : ThreadId.lane r ≠ .lane root := fun he => hr (ThreadId.lane.inj he)
      have hold : r ∈ l.active := by
        split at ha
        · exact (List.mem_filter.mp ha).1
        · exact ha
      simpa only [Function.update_of_ne hne] using h.serving r hold
  -- A lane that is not active was not before, or is the one that retires.
  retired r ha := by
    rw [Lanes.active_advance hadv] at ha
    by_cases hr : r = root
    · subst hr
      rw [Function.update_self]
      rcases hcode with ⟨-, hc⟩ | ⟨hm, hact, -⟩
      · exact hc
      · rw [if_neg hm] at ha
        exact absurd hact ha
    · have hne : ThreadId.lane r ≠ .lane root := fun he => hr (ThreadId.lane.inj he)
      have hold : r ∉ l.active := by
        split at ha
        · exact fun hact => ha (List.mem_filter.mpr ⟨hact, by simp [hr]⟩)
        · exact ha
      simpa only [Function.update_of_ne hne] using h.retired r hold
  others id hid := by
    simpa only [Function.update_of_ne (hid root)] using h.others id hid

/-- The code of the thread of a lane makes no other lane busy. -/
theorem busy_of_ne (codes : ThreadId → List Instr) {root r : Root} (code code' : List Instr)
    (hr : r ≠ root) : (!(Function.update codes (.lane root) code (.lane r)).all isDrain) =
      !(Function.update codes (.lane root) code' (.lane r)).all isDrain := by
  have hne : ThreadId.lane r ≠ .lane root := fun he => hr (ThreadId.lane.inj he)
  rw [Function.update_of_ne hne, Function.update_of_ne hne]

/-- A call keeps what holds, also the call of a listener that does nothing and so ends at once. -/
theorem call {l l' : Lanes} {codes : ThreadId → List Instr} {root : Root} {c : Listener}
    {s : Signal} {script : List Instr}
    (h : Steady hs l (Function.update codes (.lane root) [.drain root]))
    (hadv : l.advance root = some (.call c s, l')) (hscript : Listening script) :
    Steady (hs ++ .started root c s :: endOf (.lane root) (script ++ [.drain root])) l'
      (Function.update codes (.lane root) (script ++ [.drain root])) := by
  have ha : root ∈ l.active := h.active_of_code (by simp)
  have hstart : Tally (hs ++ [.started root c s]) l' fun r => decide (r = root) ||
      !(Function.update codes (.lane root) [.drain root] (.lane r)).all isDrain :=
    h.tally.start hadv (by simp [isDrain]) (by simp) fun r hr => by simp [hr]
  refine h.advance hadv (.inr ⟨by simp, ha, script, rfl, hscript⟩) ?_
  rw [List.append_cons]
  -- The call is under way until its script is over, which an empty one is at once.
  cases hover : (script ++ [Instr.drain root]).all isDrain with
  | true =>
    simp only [endOf, hover, if_true]
    refine hstart.finish (by simp) ?_ fun r hr => ?_
    · simp only [Function.update_self, hover, Bool.not_true]
    · simp only [hr, decide_false, Bool.false_or]
      exact busy_of_ne codes _ _ hr
  | false =>
    simp only [endOf, hover, Bool.false_eq_true, if_false, List.append_nil]
    refine hstart.congr fun r => ?_
    by_cases hr : r = root
    · subst hr
      simp only [Function.update_self, hover, Bool.not_false, decide_true, Bool.true_or]
    · simp only [hr, decide_false, Bool.false_or]
      exact busy_of_ne codes _ _ hr

/-- A step of a drain keeps what holds. -/
theorem drain {root : Root} {hs' : List Happening}
    (h : Steady hs m.session.lanes (Function.update m.codeOf id (.drain root :: code)))
    (ht : Tells id m (m.exec id code (.drain root)) (.drain root) hs') :
    Steady (hs ++ hs') (m.exec id code (.drain root)).machine.session.lanes
      (Function.update (m.exec id code (.drain root)).machine.codeOf id
        (m.exec id code (.drain root)).code) := by
  obtain ⟨rfl, rfl, ha⟩ := h.at_drain (Function.update_self ..)
  obtain ⟨move, lanes, hadv⟩ := h.tally.sound.exists_advance ha
  -- In each case the instruction unfolds to what the machine does after this move.
  cases move with
  | call l s =>
    have hflow : m.exec (.lane root) [] (.drain root) =
        .go ({ m with session := { m.session with lanes } }.remark (.lane s.server?) (.called l s))
          (((m.scriptOf l).map fun a => .act a l s) ++ [.drain root]) := by
      simp only [exec, Machine.drain, hadv]
      rfl
    have hscript : Listening ((m.scriptOf l).map fun a => .act a l s) := by
      intro j hj
      obtain ⟨a, -, rfl⟩ := List.mem_map.mp hj
      exact ⟨rfl, rfl⟩
    rw [hflow] at ht ⊢
    cases ht with
    | pause h' => exact absurd hadv (h' l s lanes)
    | work hi _ => simp [isDrain] at hi
    | call h' =>
      rw [hadv] at h'
      cases h'
      exact h.call hadv hscript
  | rest =>
    have hflow : m.exec (.lane root) [] (.drain root) =
        .wait ({ m with session := { m.session with lanes } }.wake [.lane root]) [.drain root] := by
      simp only [exec, Machine.drain, hadv]
    rw [hflow] at ht ⊢
    cases ht with
    | call h' => rw [hadv] at h'; cases h'
    | work hi _ => simp [isDrain] at hi
    | pause _ =>
      rw [List.append_nil]
      exact h.advance hadv (.inr ⟨by simp, ha, [], rfl, by simp [Listening]⟩)
        (h.tally.pause hadv rfl)
  | retire =>
    have hflow : m.exec (.lane root) [] (.drain root) =
        .go (if lanes.idle then { m with session := { m.session with lanes } }.wakeWaiters
          else { m with session := { m.session with lanes } }) [] := by
      simp only [exec, Machine.drain, hadv]
    have hlanes : (m.exec (.lane root) [] (.drain root)).machine.session.lanes = lanes := by
      rw [hflow]
      simp only [Flow.machine]
      split <;> rfl
    have hcodes : (m.exec (.lane root) [] (.drain root)).machine.codeOf = m.codeOf := by
      rw [hflow]
      simp only [Flow.machine]
      split <;> rfl
    rw [hlanes, hcodes, hflow]
    cases ht with
    | call h' => rw [hadv] at h'; cases h'
    | work hi _ => simp [isDrain] at hi
    | pause _ =>
      rw [List.append_nil]
      refine h.advance hadv (.inl ⟨rfl, rfl⟩) ((h.tally.pause hadv rfl).congr fun r => ?_)
      by_cases hr : r = root
      · subst hr
        simp [Flow.code, isDrain]
      · exact busy_of_ne m.codeOf _ _ hr

/-- Every instruction keeps what holds. -/
theorem exec {hs' : List Happening}
    (h : Steady hs m.session.lanes (Function.update m.codeOf id (i :: code)))
    (ht : Tells id m (m.exec id code i) i hs') :
    Steady (hs ++ hs') (m.exec id code i).machine.session.lanes
      (Function.update (m.exec id code i).machine.codeOf id (m.exec id code i).code) := by
  -- Only a drain makes calls and ends them; every other instruction submits jobs at most.
  cases hi : isDrain i with
  | true =>
    obtain ⟨root, rfl⟩ : ∃ root, i = .drain root := by
      cases i <;> simp_all [isDrain]
    exact h.drain ht
  | false =>
    cases ht with
    | call _ => simp [isDrain] at hi
    | pause _ => simp [isDrain] at hi
    | work _ hjs => exact h.work hi (submits_exec m id code hi) (code_exec m id code hi) hjs

/-- A machine keeps what holds when it becomes another one by submitting jobs. -/
theorem submit (h : Steady hs m.session.lanes m.codeOf) (hsub : Submits m m')
    {js : List (Root × Job)} (hjs : m.session.lanes.Accepts js m'.session.lanes) :
    Steady (hs ++ js.map fun j => .accepted j.1 j.2) m'.session.lanes m'.codeOf where
  tally := by
    -- A lane that becomes active gets a drain that is between two jobs.
    refine (h.tally.acceptAll hjs).congr fun r => ?_
    by_cases ha : r ∈ m.session.lanes.active
    · rw [hsub.kept r (.inl ha)]
    · by_cases ha' : r ∈ m'.session.lanes.active
      · rw [hsub.fresh r ha ha', h.retired r ha]
        rfl
      · rw [hsub.kept r (.inr ha')]
  serving root ha' := by
    by_cases ha : root ∈ m.session.lanes.active
    · rw [hsub.kept root (.inl ha)]
      exact h.serving root ha
    · exact ⟨[], hsub.fresh root ha ha', by simp [Listening]⟩
  retired root ha' := by
    rw [hsub.kept root (.inr ha')]
    exact h.retired root fun ha => ha' (hjs.mem_active ha)
  others id hid := hsub.others id hid (h.others id hid)

end Steady

/-- A machine in whose lanes nothing has happened yet: no lane is active, and no thread has a drain
or is that of a lane. -/
structure Fresh (m : Machine) : Prop where
  queues : m.session.lanes.queues = []
  drains : m.session.lanes.drains = []
  lanes : ∀ root, m.codeOf (.lane root) = []
  others : ∀ id, (∀ root, id ≠ .lane root) → DrainFree (m.codeOf id)

/-- Nothing has happened in a machine without threads whose lanes are as they were made. -/
theorem fresh_still (s : Session) (scripts : List (Listener × List Action))
    (hq : s.lanes.queues = []) (hd : s.lanes.drains = []) :
    Fresh { still s with scripts } where
  queues := hq
  drains := hd
  lanes _ := rfl
  others id _ := by simp [DrainFree, codeOf, still]

/-- Nothing has happened yet when a thread is added that is no lane's. -/
theorem Fresh.spawn {m : Machine} (h : m.Fresh) {id : ThreadId} {code : List Instr}
    (hid : ∀ root, id ≠ .lane root) (hc : DrainFree code) : (m.spawn id code).Fresh where
  queues := h.queues
  drains := h.drains
  lanes root := by rw [codeOf_spawn, if_neg (hid root).symm, h.lanes root]
  others id' hid' := (submits_spawn m hid hc).others id' hid' (h.others id' hid')

/-- Before anything has happened the tally is right. -/
theorem Fresh.steady {m : Machine} (h : m.Fresh) : Steady [] m.session.lanes m.codeOf where
  tally := .nil (.of_nil h.queues h.drains)
    (fun root => by simp [Lanes.pending, h.queues, h.drains]) (fun root => by simp [h.lanes root])
  serving root ha := by simp [Lanes.active, h.queues, Table.keys] at ha
  retired root _ := h.lanes root
  others := h.others

/-- What the threads have still to run, while one of them may be running. -/
def codes (m : Machine) : Option (ThreadId × List Instr) → ThreadId → List Instr
  | none => m.codeOf
  | some (id, code) => Function.update m.codeOf id code

/-- A thread that is stored has the code it is stored with. -/
theorem codeOf_store (m : Machine) (id : ThreadId) (code : List Instr) :
    codeOf { m with threads := Table.put id code m.threads } =
      Function.update m.codeOf id code := by
  funext id'
  by_cases hid : id' = id
  · subst hid
    simp [codeOf]
  · simp [codeOf, Table.find?_put_of_ne hid, hid]

/-- A thread that is removed has nothing to run. -/
theorem codeOf_remove (m : Machine) (id : ThreadId) :
    codeOf { m with threads := Table.drop id m.threads } = Function.update m.codeOf id [] := by
  funext id'
  by_cases hid : id' = id
  · subst hid
    simp [codeOf]
  · simp [codeOf, Table.find?_drop_of_ne hid, hid]

namespace Steady

variable {hs : List Happening} {m m' : Machine}

/-- A thread that is run keeps what holds. -/
theorem entered (h : Steady hs m.session.lanes (m.codes none)) {id : ThreadId} {code : List Instr}
    (hid : Table.find? id m.threads = some code) :
    Steady hs m.session.lanes (m.codes (some (id, code))) := by
  have hcode : m.codeOf id = code := by simp [codeOf, hid]
  rw [codes, ← hcode, Function.update_eq_self]
  exact h

/-- A job from outside keeps what holds: it is one that a machine could have submitted itself. -/
theorem submitted (h : Steady hs m.session.lanes (m.codes none)) {root : Root} {job : Job}
    {lanes : Lanes} (hl : m.session.lanes.submit root job = .ok lanes) :
    Steady (hs ++ [.accepted root job]) (m.withSession { m.session with lanes }).session.lanes
      ((m.withSession { m.session with lanes }).codes none) := by
  have hjs : m.session.lanes.Accepts [(root, job)] lanes := .one hl
  have hsub := submits_withSession m (s := { m.session with lanes }) ⟨_, hjs⟩
  exact Steady.submit h hsub (by rw [withSession_session]; exact hjs)

/-- What leaves the lanes and their threads alone and starts no drain keeps what holds. -/
theorem outside (h : Steady hs m.session.lanes (m.codes none))
    (hl : m'.session.lanes = m.session.lanes)
    (hc : ∀ root, m'.codeOf (.lane root) = m.codeOf (.lane root))
    (ho : ∀ id, (∀ root, id ≠ .lane root) → DrainFree (m.codeOf id) → DrainFree (m'.codeOf id)) :
    Steady hs m'.session.lanes (m'.codes none) where
  -- Each part reads the lanes and their threads, which are as before.
  tally := by
    rw [hl]
    exact h.tally.congr fun r => by rw [codes, hc r, codes]
  serving root ha := by
    rw [codes, hc root]
    exact h.serving root (hl ▸ ha)
  retired root ha := by
    rw [codes, hc root]
    exact h.retired root (hl ▸ ha)
  others id hid := ho id hid (h.others id hid)

end Steady

/-- What holds at every moment of a history. -/
theorem History.steady {m₀ m : Machine} {hs : List Happening}
    {running : Option (ThreadId × List Instr)} (hf : m₀.Fresh) (h : History m₀ hs m running) :
    Steady hs m.session.lanes (m.codes running) := by
  -- Every step of the history is one of the lemmas above.
  induction h with
  | nil => exact hf.steady
  | enters _ hid ih => exact ih.entered hid
  | goes _ he ht ih =>
    have hstep := Steady.exec ih (he ▸ ht)
    rwa [he] at hstep
  | waits _ he ht ih =>
    have hstep := Steady.exec ih (he ▸ ht)
    rw [he] at hstep
    rw [codes, codeOf_store]
    exact hstep
  | ends _ ih =>
    rw [codes, codeOf_remove]
    exact ih
  | submits _ hl ih => exact ih.submitted hl
  | outside _ hl hc ho ih => exact ih.outside hl hc ho

/-- Whatever the order in which jobs are submitted and threads run: at every time the calls of a
lane are the first of those that its jobs ask for, in the order of submission, each call begins only
after the one before has ended, and in a lane that is not active all calls have been made and have
ended. -/
theorem history_delivered {m₀ m : Machine} {hs : List Happening}
    {running : Option (ThreadId × List Instr)} (hf : m₀.Fresh) (h : History m₀ hs m running)
    (root : Root) :
    Happening.Delivered root hs ∧
      (root ∉ m.session.lanes.active →
        Happening.calls root hs = Happening.asked root hs ∧
          Happening.endings root hs = (Happening.calls root hs).length) := by
  have hsteady := h.steady hf
  refine ⟨hsteady.tally.delivered root, fun ha => hsteady.tally.all_delivered ha ?_⟩
  simp [hsteady.retired root ha]

/-- Two listeners of one note: the second is called after the first, which sleeps, has ended. -/
theorem history_delivered_note : ∃ (s : Session) (scripts : List (Listener × List Action))
    (hs : List Happening) (m : Machine), History { still s with scripts } hs m none ∧
      hs = [.accepted none ⟨.note "hello" none, ["first", "second"]⟩,
        .started none "first" (.note "hello" none), .ended none,
        .started none "second" (.note "hello" none), .ended none] ∧
      none ∉ m.session.lanes.active ∧ Happening.Delivered none hs ∧
      Happening.calls none hs = Happening.asked none hs ∧
      Happening.endings none hs = (Happening.calls none hs).length := by
  -- The first listener sleeps, the second one returns at once.
  let s : Session :=
    { settings := [], cache := {}, handlers := .none, lanes := { running := true } }
  let scripts : List (Listener × List Action) := [("first", [.sleep 5])]
  let m₀ : Machine := { still s with scripts }
  -- The note becomes a job of the global root, whose lane is entered.
  have hsubmit : History m₀ [.accepted none ⟨.note "hello" none, ["first", "second"]⟩] _ none :=
    .submits .nil rfl
  have henter : History m₀ _ _ (some (.lane none, _)) := .enters hsubmit rfl
  -- The first call begins, and sleeps.
  have hasleep := (henter.goes rfl (.call rfl)).waits rfl (.work rfl (.nil _))
  -- It is woken and ends; the second call begins after that.
  have hwake : History m₀ _ _ (some (.lane none, _)) := .enters hasleep rfl
  have hsecond := (hwake.goes rfl (.work rfl (.nil _))).goes rfl (.call rfl)
  -- The second call ends, and the lane retires.
  have hrest := hsecond.waits rfl (.pause fun _ _ _ h => nomatch h)
  have hlast : History m₀ _ _ (some (.lane none, _)) := .enters hrest rfl
  have hdone := (hlast.goes rfl (.pause fun _ _ _ h => nomatch h)).ends
  have hidle : none ∉ ([] : List Root) := by simp
  have hd := history_delivered (fresh_still s scripts rfl rfl) hdone none
  have hall := hd.2 hidle
  exact ⟨s, scripts, _, _, hdone, rfl, hidle, hd.1, hall⟩

end Switchboard.Scenario.Machine
