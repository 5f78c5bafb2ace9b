import Switchboard.Proofs.Lanes.Order
import Switchboard.Proofs.Scenario.Delivery

/-!
# Idle lanes are done

Whatever the order in which jobs are submitted and threads run, the lanes go only through accepted
jobs and the steps of drains (`History.keeps_lanes`). So what these two keep holds at every moment:
the flag of idleness tells whether a lane is active, and the active lanes stand in the order in
which they became active. Together with what is `Steady` this says what a thread can rely on that
has waited for the lanes to be idle (`history_idle`): all jobs are done, and when it closes the
session next, nothing is lost.
-/

namespace Switchboard.Lanes

/-- What every accepted job keeps is kept when jobs are accepted one after another. -/
theorem Accepts.keeps {P : Lanes → Prop}
    (hP : ∀ l root job l', P l → l.submit root job = .ok l' → P l') {l l' : Lanes}
    {js : List (Root × Job)} (h : l.Accepts js l') (hl : P l) : P l' := by
  induction h with
  | nil => exact hl
  | cons first _ ih => exact ih (hP _ _ _ _ hl first)

end Switchboard.Lanes

namespace Switchboard.Scenario.Machine

/-- The lanes after a step of a drain are those that the step leads to. -/
theorem drain_lanes (m : Machine) (id : ThreadId) (root : Root) (code : List Instr) :
    (m.drain id root code).machine.session.lanes = m.session.lanes ∨
      ∃ move, m.session.lanes.advance root =
        some (move, (m.drain id root code).machine.session.lanes) := by
  unfold drain
  split
  · exact .inl rfl
  · rename_i move lanes hadv
    refine .inr ⟨move, hadv.trans ?_⟩
    -- Whoever is woken after the step has nothing to do with the lanes.
    cases move with
    | call l s => rfl
    | rest => rfl
    | retire =>
      dsimp only [Flow.machine]
      split <;> rfl

/-- What accepted jobs and the steps of drains keep is kept in every history. -/
theorem History.keeps_lanes {P : Lanes → Prop}
    (hsubmit : ∀ l root job l', P l → l.submit root job = .ok l' → P l')
    (hadvance : ∀ l root move l', P l → l.advance root = some (move, l') → P l')
    {m₀ m : Machine} {hs : List Happening} {running : Option (ThreadId × List Instr)}
    (h : History m₀ hs m running) (h₀ : P m₀.session.lanes) : P m.session.lanes := by
  -- An instruction is a drain, which takes one step, or submits jobs one after another.
  have hexec (m : Machine) (id : ThreadId) (code : List Instr) (i : Instr)
      (hm : P m.session.lanes) : P (m.exec id code i).machine.session.lanes := by
    cases hi : isDrain i with
    | false =>
      obtain ⟨js, hjs⟩ := (submits_exec m id code hi).accepts
      exact hjs.keeps hsubmit hm
    | true =>
      obtain ⟨root, rfl⟩ : ∃ root, i = .drain root := by
        cases i <;> simp_all [isDrain]
      rcases m.drain_lanes id root code with hsame | ⟨move, hadv⟩
      · exact hsame.symm ▸ hm
      · exact hadvance _ _ _ _ hm hadv
  -- Only instructions and submissions touch the lanes.
  induction h with
  | nil => exact h₀
  | enters _ _ ih => exact ih
  | @goes hs hs' m m' id i code code' _ he _ ih =>
    have hstep := hexec m id code i ih
    rwa [he] at hstep
  | @waits hs hs' m m' id i code code' _ he _ ih =>
    have hstep := hexec m id code i ih
    rwa [he] at hstep
  | ends _ ih => exact ih
  | submits _ hl ih =>
    rw [withSession_session]
    exact hsubmit _ _ _ _ ih hl
  | outside _ hl _ _ ih => exact hl.symm ▸ ih

/-- The drains that a thread has still to run: that of its lane while the lane is active. -/
def drainsOf (l : Lanes) : ThreadId → List Instr
  | .lane root => if root ∈ l.active then [.drain root] else []
  | _ => []

/-- Every active lane has one drain in one thread, and no other drain is left anywhere. -/
theorem Steady.drains {hs : List Happening} {l : Lanes} {codes : ThreadId → List Instr}
    (h : Steady hs l codes) (id : ThreadId) : (codes id).filter isDrain = drainsOf l id := by
  -- What is no lane runs no drain, and a script has none either.
  have hfree {code : List Instr} (hc : DrainFree code) : code.filter isDrain = [] :=
    List.filter_eq_nil_iff.mpr fun i hi => by simp [hc i hi]
  cases id with
  | lane root =>
    -- The one drain of a lane stands behind its script.
    by_cases ha : root ∈ l.active
    · obtain ⟨script, hcode, hl⟩ := h.serving root ha
      rw [hcode, List.filter_append, hfree fun i hi => (hl i hi).1]
      simp [drainsOf, ha, isDrain]
    · rw [h.retired root ha]
      simp [drainsOf, ha]
  | main => exact hfree (h.others _ (by simp))
  | sweeper => exact hfree (h.others _ (by simp))
  | worker pump index => exact hfree (h.others _ (by simp))

/-- A lane has nothing to do: no job is queued, no drain is at work, and every call that its jobs
asked for was made and has ended. -/
structure Done (hs : List Happening) (l : Lanes) (root : Root) : Prop where
  queue : Table.find? root l.queues = none
  drain : Table.find? root l.drains = none
  called : Happening.calls root hs = Happening.asked root hs
  ended : Happening.endings root hs = (Happening.calls root hs).length

/-- A lane that is not active is done. -/
theorem Steady.done {hs : List Happening} {l : Lanes} {codes : ThreadId → List Instr}
    (h : Steady hs l codes) {root : Root} (ha : root ∉ l.active) : Done hs l root := by
  obtain ⟨hcalled, hended⟩ := h.tally.all_delivered ha (by simp [h.retired root ha])
  exact ⟨Table.find?_eq_none_iff.mpr ha, h.tally.sound.no_drain ha, hcalled, hended⟩

/-- A wait for idle lanes that is over leaves the machine and the code after it as they are, and no
lane is active. -/
theorem exec_settle {m m' : Machine} {id : ThreadId} {code code' : List Instr}
    (h : m.exec id code .settle = .go m' code') :
    m' = m ∧ code' = code ∧ m.session.lanes.active = [] := by
  simp only [exec] at h
  split at h
  · rename_i hempty
    cases h
    exact ⟨rfl, rfl, by simp [Lanes.active, Table.keys, List.isEmpty_iff.mp hempty]⟩
  · cases h

/-- Whatever the order in which jobs are submitted and threads run: the flag of idleness is set
exactly when no lane is active, an active lane has one drain in all the threads and another lane has
none, the active lanes stand in the order in which they became active, and a lane that is not active
is done. So when a thread has waited for the lanes to be idle, all of them are done; and the thread
goes on at once, so if it is about to close the session, no job is pending when it does. -/
theorem history_idle {m₀ m : Machine} {hs : List Happening}
    {running : Option (ThreadId × List Instr)} (hf : m₀.Fresh)
    (hidle : m₀.session.lanes.idle = true) (h : History m₀ hs m running) :
    (m.session.lanes.idle = true ↔ m.session.lanes.active = []) ∧
      (∀ id, (m.codes running id).filter isDrain = drainsOf m.session.lanes id) ∧
      (∃ past, Lanes.Past (m.session.lanes :: past) ∧
        (m.session.lanes :: past).getLast? = some m₀.session.lanes) ∧
      (∀ past, Lanes.Past (m.session.lanes :: past) →
        m.session.lanes.active.Pairwise fun r r' =>
          Lanes.age r' (m.session.lanes :: past) < Lanes.age r (m.session.lanes :: past)) ∧
      (∀ root ∉ m.session.lanes.active, Done hs m.session.lanes root) ∧
      (∀ id code m' code', running = some (id, .settle :: code) →
        m.exec id code .settle = .go m' code' →
          m' = m ∧ code' = code ∧ ∀ root, Done hs m.session.lanes root) ∧
      (∀ id rest m' code', running = some (id, .settle :: .close :: rest) →
        m.exec id (.close :: rest) .settle = .go m' code' →
          code' = .close :: rest ∧ History m₀ hs m' (some (id, .close :: rest)) ∧
            m'.exec id rest .close = .go (m'.withSession m.session.close) rest ∧
              ∀ root, m.session.lanes.pending root = []) := by
  have hsteady := h.steady hf
  have hnone : m₀.session.lanes.active = [] := by simp [Lanes.active, hf.queues, Table.keys]
  have hflag : m.session.lanes.Flagged :=
    h.keeps_lanes (P := Lanes.Flagged) (fun _ _ _ _ hl => hl.submit) (fun _ _ _ _ hl => hl.advance)
      (by simp [Lanes.Flagged, hidle, hnone])
  have hpast : ∃ past, Lanes.Past (m.session.lanes :: past) ∧
      (m.session.lanes :: past).getLast? = some m₀.session.lanes := by
    refine h.keeps_lanes
      (P := fun l => ∃ past, Lanes.Past (l :: past) ∧
        (l :: past).getLast? = some m₀.session.lanes) ?_ ?_ ⟨[], .start hnone, rfl⟩
    · rintro l root job l' ⟨past, hp, hlast⟩ hl
      exact ⟨l :: past, hp.submit hl, by simpa using hlast⟩
    · rintro l root move l' ⟨past, hp, hlast⟩ hl
      exact ⟨l :: past, hp.advance hl, by simpa using hlast⟩
  have hdone (ha : m.session.lanes.active = []) (root : Root) : Done hs m.session.lanes root :=
    hsteady.done (by simp [ha])
  refine ⟨hflag, hsteady.drains, hpast, fun past hp => hp.ordered, fun root => hsteady.done,
    fun id code m' code' _ he => ?_, fun id rest m' code' hrun he => ?_⟩
  · obtain ⟨hm, hcode, ha⟩ := exec_settle he
    exact ⟨hm, hcode, hdone ha⟩
  · obtain ⟨rfl, rfl, ha⟩ := exec_settle he
    subst hrun
    -- Nothing happens in the lanes when the wait is over, so the history is the same.
    have hsame : History m₀ hs m' (some (id, .close :: rest)) := by
      have hnext := h.goes he (.work rfl (.nil _))
      have hend : endOf id (.close :: rest) = [] := by cases id <;> rfl
      rwa [Flow.code, hend, List.map_nil, List.append_nil, List.append_nil] at hnext
    exact ⟨rfl, hsame, rfl, fun root =>
      Lanes.pending_of_inactive hsteady.tally.sound (by simp [ha])⟩

/-- A thread waits for a note to be delivered and then closes the session: by the time it does, the
listener has been called and the lane is no more. -/
theorem history_idle_closing : ∃ (s : Session) (hs : List Happening) (m m' : Machine),
    History ((still s).spawn .main [.settle, .close]) hs m (some (.main, [.settle, .close])) ∧
      hs = [.accepted none ⟨.note "hello" none, ["first"]⟩,
        .started none "first" (.note "hello" none), .ended none] ∧
      m.session.lanes.idle = true ∧ m.session.lanes.active = [] ∧
      m.exec .main [.close] .settle = .go m' [.close] ∧ m' = m ∧
      (∀ root, Done hs m.session.lanes root) ∧ ∀ root, m.session.lanes.pending root = [] := by
  let s : Session :=
    { settings := [], cache := {}, handlers := .none, lanes := { running := true } }
  let m₀ : Machine := (still s).spawn .main [.settle, .close]
  have hfresh : m₀.Fresh :=
    (fresh_still s [] rfl rfl).spawn (by simp) (by simp [DrainFree, isDrain])
  have hsubmit : History m₀ [.accepted none ⟨.note "hello" none, ["first"]⟩] _ none :=
    .submits .nil rfl
  -- The thread finds the lane active and waits, and then the lane does its job and retires.
  have hmain : History m₀ _ _ (some (.main, _)) := .enters hsubmit rfl
  have hwaits := hmain.waits rfl (.work rfl (.nil _))
  have hlane : History m₀ _ _ (some (.lane none, _)) := .enters hwaits rfl
  have hrests := (hlane.goes rfl (.call rfl)).waits rfl (.pause fun _ _ _ h => by cases h)
  have hagain : History m₀ _ _ (some (.lane none, _)) := .enters hrests rfl
  have hretired := (hagain.goes rfl (.pause fun _ _ _ h => by cases h)).ends
  have hback : History m₀ _ _ (some (.main, [.settle, .close])) := .enters hretired rfl
  obtain ⟨hflag, -, -, -, -, hdone, hclose⟩ := history_idle hfresh rfl hback
  exact ⟨s, _, _, _, hback, rfl, hflag.mpr rfl, rfl, rfl, rfl, (hdone _ _ _ _ rfl rfl).2.2,
    (hclose _ _ _ _ rfl rfl).2.2.2⟩

end Switchboard.Scenario.Machine
