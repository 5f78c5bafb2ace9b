import Switchboard.Proofs.Lanes.Conduct
import Switchboard.Proofs.Scenario.Delivery
import Switchboard.Proofs.Scenario.Telling

/-!
# Failures stay where they are

In a `Play` jobs are submitted and drains have their turns while the listeners keep to a conduct.
The conduct says which jobs a call submits, together with the observers that are told if it fails,
when the call waits, and when it ends. It does not say whether a call or an observer fails; that is
up to the scripts, which may change at any time. So two plays in which different calls and observers
fail differ in nothing that happens in the lanes (`failures_isolated`): the same listeners are
called with the same signals in the same order, and the same lanes retire.
-/

namespace Switchboard.Scenario

/-- The thread of a lane after an instruction, if it is still running. -/
def Flow.running (root : Root) : Flow → Option (ThreadId × List Instr)
  | .go _ code => some (.lane root, code)
  | .wait _ _ => none

namespace Machine

/-- What a machine has become after some beats, the last one first, while the listeners keep to a
conduct, what has happened in its lanes, and the thread that is running with what it has still to
run. -/
inductive Play (c : Conduct) (m₀ : Machine) :
    List Beat → List Happening → Machine → Option (ThreadId × List Instr) → Prop
  | nil : Play c m₀ [] [] m₀ none
  /-- A job is submitted. -/
  | submits {beats : List Beat} {hs : List Happening} {m : Machine} {root : Root} {job : Job}
      {lanes : Lanes} (h : Play c m₀ beats hs m none)
      (hl : m.session.lanes.submit root job = .ok lanes) :
      Play c m₀ (.submit root job :: beats) (hs ++ [.accepted root job])
        (m.withSession { m.session with lanes }) none
  /-- A drain has its turn. -/
  | enters {beats : List Beat} {hs : List Happening} {m : Machine} {root : Root} {i : Instr}
      {code : List Instr} (h : Play c m₀ beats hs m none)
      (hid : Table.find? (.lane root) m.threads = some (i :: code)) :
      Play c m₀ (.turn root :: beats) hs m (some (.lane root, i :: code))
  /-- The thread that is running goes on. -/
  | goes {beats : List Beat} {hs hs' : List Happening} {m m' : Machine} {root : Root} {i : Instr}
      {code code' : List Instr} (h : Play c m₀ beats hs m (some (.lane root, i :: code)))
      (he : m.exec (.lane root) code i = .go m' code')
      (ht : Tells (.lane root) m (.go m' code') i hs') (hc : c.Leads beats hs hs') :
      Play c m₀ beats (hs ++ hs') m' (some (.lane root, code'))
  /-- The thread that is running comes to wait, in the middle of a call or between two jobs. -/
  | waits {beats : List Beat} {hs hs' : List Happening} {m m' : Machine} {root : Root} {i : Instr}
      {code code' : List Instr} (h : Play c m₀ beats hs m (some (.lane root, i :: code)))
      (he : m.exec (.lane root) code i = .wait m' code')
      (ht : Tells (.lane root) m (.wait m' code') i hs') (hc : c.Leads beats hs hs')
      (hw : isDrain i = false → c beats (hs ++ hs') = .wait ∧ code'.all isDrain = false) :
      Play c m₀ beats (hs ++ hs') { m' with threads := Table.put (.lane root) code' m'.threads }
        none
  /-- The thread that is running ends. -/
  | ends {beats : List Beat} {hs : List Happening} {m : Machine} {root : Root}
      (h : Play c m₀ beats hs m (some (.lane root, []))) :
      Play c m₀ beats hs { m with threads := Table.drop (.lane root) m.threads } none
  /-- Listeners will do something else from now on, and there are other observers. -/
  | adapts {beats : List Beat} {hs : List Happening} {m : Machine}
      {running : Option (ThreadId × List Instr)} (h : Play c m₀ beats hs m running)
      (scripts : List (Listener × List Action)) (observers : List Observer) :
      Play c m₀ beats hs { m with scripts, observers } running
  /-- Whatever else happens leaves the lanes and their threads alone and starts no drain. -/
  | outside {beats : List Beat} {hs : List Happening} {m m' : Machine}
      (h : Play c m₀ beats hs m none) (hl : m'.session.lanes = m.session.lanes)
      (hc : ∀ root, m'.codeOf (.lane root) = m.codeOf (.lane root))
      (ho : ∀ id, (∀ root, id ≠ .lane root) → DrainFree (m.codeOf id) → DrainFree (m'.codeOf id)) :
      Play c m₀ beats hs m' none

/-! ## What holds at every moment of a play -/

/-- What holds at every moment of a history holds at every moment of a play. -/
theorem Play.steady {c : Conduct} {m₀ m : Machine} {beats : List Beat} {hs : List Happening}
    {running : Option (ThreadId × List Instr)} (hf : m₀.Fresh) (h : Play c m₀ beats hs m running) :
    Steady hs m.session.lanes (m.codes running) := by
  -- A play is a history in which a failure may change what the listeners do next, and that touches
  -- no lane.
  induction h with
  | nil => exact hf.steady
  | submits _ hl ih => exact ih.submitted hl
  | enters _ hid ih => exact ih.entered hid
  | goes _ he ht _ ih =>
    have hstep := Steady.exec ih (he ▸ ht)
    rwa [he] at hstep
  | waits _ he ht _ _ ih =>
    have hstep := Steady.exec ih (he ▸ ht)
    rw [he] at hstep
    rw [codes, codeOf_store]
    exact hstep
  | ends _ ih =>
    rw [codes, codeOf_remove]
    exact ih
  | @adapts _ _ m running _ _ _ ih => cases running <;> exact ih
  | outside _ hl hc ho ih => exact ih.outside hl hc ho

/-- A call is under way in a lane when its thread has more to run than the drain. -/
theorem Steady.underWay {hs : List Happening} {m : Machine} {root : Root} {code : List Instr}
    (h : Steady hs m.session.lanes (m.codes (some (.lane root, code)))) :
    Happening.UnderWay root hs ↔ code.all isDrain = false := by
  have htally := h.tally.underWay root
  simpa [codes] using htally

/-- How the thread of a lane goes on when its drain takes a step, and what happens then. -/
inductive Drained (m : Machine) (root : Root) : Flow → List Happening → Prop
  /-- The script of the listener comes before the drain. -/
  | call {l : Listener} {s : Signal} {m' : Machine} {code : List Instr}
      (h : m.session.lanes.advance root = some (.call l s, m'.session.lanes))
      (hc : code = ((m.scriptOf l).map fun a => .act a l s) ++ [.drain root]) :
      Drained m root (.go m' code) (.started root l s :: endOf (.lane root) code)
  | rest {m' : Machine} (h : m.session.lanes.advance root = some (.rest, m'.session.lanes)) :
      Drained m root (.wait m' [.drain root]) []
  | retire {m' : Machine}
      (h : m.session.lanes.advance root = some (.retire, m'.session.lanes)) :
      Drained m root (.go m' []) []

/-- A drain takes a step when no call is under way in its lane, and leaves the other threads as they
are. -/
theorem Steady.drained {hs hs' : List Happening} {m : Machine} {root : Root} {i : Instr}
    {code : List Instr} {flow : Flow}
    (h : Steady hs m.session.lanes (m.codes (some (.lane root, i :: code))))
    (hi : isDrain i = true) (he : m.exec (.lane root) code i = flow)
    (ht : Tells (.lane root) m flow i hs') :
    ¬ Happening.UnderWay root hs ∧ flow.machine.codeOf = m.codeOf ∧ Drained m root flow hs' := by
  -- The drain is that of the lane whose thread runs, and its lane is active.
  obtain ⟨r, rfl⟩ : ∃ r, i = .drain r := by
    cases i <;> simp_all [isDrain]
  have hcode : m.codes (some (.lane root, .drain r :: code)) (.lane root) = .drain r :: code :=
    Function.update_self ..
  obtain ⟨hroot, rfl, hactive⟩ := h.at_drain hcode
  cases hroot
  -- So it can make a move, and no call of its is under way.
  obtain ⟨move, lanes, hadv⟩ := h.tally.sound.exists_advance hactive
  refine ⟨fun hu => by simpa [isDrain] using h.underWay.mp hu, ?_⟩
  subst he
  cases ht with
  | work hi' _ => simp [isDrain] at hi'
  | call h' =>
    cases h'.symm.trans hadv
    simp only [Machine.exec, Machine.drain, hadv]
    exact ⟨rfl, .call hadv rfl⟩
  -- A move that is no call wakes somebody or retires the lane.
  | pause h' =>
    cases move with
    | call l s => exact absurd hadv (h' l s lanes)
    | rest =>
      simp only [Machine.exec, Machine.drain, hadv]
      exact ⟨rfl, .rest hadv⟩
    | retire =>
      simp only [Machine.exec, Machine.drain, hadv]
      split
      · exact ⟨rfl, .retire hadv⟩
      · exact ⟨rfl, .retire hadv⟩

/-- Where a play stands in what happens with a conduct: after a beat, in the middle of a turn, or at
the end of one. -/
inductive Stands (c : Conduct) (l₀ : Lanes) :
    List Beat → List Happening → Lanes → Option (ThreadId × List Instr) → Prop
  | still {beats : List Beat} {hs : List Happening} {l : Lanes} (h : Score c l₀ beats hs l) :
      Stands c l₀ beats hs l none
  /-- However the turn goes on, it goes so from its beginning. -/
  | amid {beats : List Beat} {hs hs₁ : List Happening} {l l₁ : Lanes} {root : Root} {i : Instr}
      {code : List Instr} (h : Score c l₀ beats hs₁ l₁)
      (hg : ∀ l' hs', Goes c (.turn root :: beats) root l hs l' hs' →
        Goes c (.turn root :: beats) root l₁ hs₁ l' hs') :
      Stands c l₀ (.turn root :: beats) hs l (some (.lane root, i :: code))
  | gone {beats : List Beat} {hs : List Happening} {l : Lanes} {root : Root}
      (h : Score c l₀ beats hs l) : Stands c l₀ beats hs l (some (.lane root, []))

section

variable {c : Conduct} {beats : List Beat} {hs hs' hs₂ : List Happening} {root : Root}
  {l l' l₂ : Lanes} {code : List Instr}

/-- The end of a call, if the code that is left says so, brings the turn on. -/
theorem goes_endOf (hu : Happening.UnderWay root hs)
    (hc : c.Leads beats hs (endOf (.lane root) code))
    (hg : Goes c beats root l (hs ++ endOf (.lane root) code) l₂ hs₂) :
    Goes c beats root l hs l₂ hs₂ := by
  cases hover : code.all isDrain with
  | true =>
    simp only [endOf, hover, if_true] at hc hg
    exact .stops hu hc.1 hg
  | false => simpa [endOf, hover] using hg

/-- An instruction within a call brings the turn on. -/
theorem goes_work {js : List (Root × Job)} (hjs : l.Accepts js l')
    (hu : Happening.UnderWay root hs)
    (hc : c.Leads beats hs ((js.map fun j => .accepted j.1 j.2) ++ endOf (.lane root) code))
    (hg : Goes c beats root l'
      (hs ++ ((js.map fun j => .accepted j.1 j.2) ++ endOf (.lane root) code)) l₂ hs₂) :
    Goes c beats root l hs l₂ hs₂ := by
  obtain ⟨hfirst, hend⟩ := Conduct.leads_append.mp hc
  rw [← List.append_assoc] at hg
  exact .submitsAll hjs hu hfirst (goes_endOf (Happening.underWay_acceptAll.mpr hu) hend hg)

end

section

variable {c : Conduct} {l₀ : Lanes} {beats : List Beat} {hs hs' : List Happening} {m : Machine}
  {root : Root} {i : Instr} {code : List Instr} {flow : Flow}

/-- An instruction within a call brings a play on. -/
theorem Stands.work (h : Stands c l₀ beats hs m.session.lanes (some (.lane root, i :: code)))
    (hsteady : Steady hs m.session.lanes (m.codes (some (.lane root, i :: code))))
    (hi : isDrain i = false) (hcode : flow.code ≠ []) {js : List (Root × Job)}
    (hjs : m.session.lanes.Accepts js flow.machine.session.lanes)
    (he : hs' = (js.map fun j => .accepted j.1 j.2) ++ endOf (.lane root) flow.code)
    (hc : c.Leads beats hs hs')
    (hw : ∀ m' code', flow = .wait m' code' →
      c beats (hs ++ hs') = .wait ∧ code'.all isDrain = false) :
    Stands c l₀ beats (hs ++ hs') flow.machine.session.lanes (flow.running root) := by
  subst he
  -- More than a drain is left to run, so a call is under way.
  have hu : Happening.UnderWay root hs := hsteady.underWay.mpr (by simp [hi])
  cases h with
  | amid hscore hbefore =>
    cases flow with
    | go m' code' =>
      obtain ⟨j, rest, rfl⟩ := List.exists_cons_of_ne_nil hcode
      exact .amid hscore fun l' hs' hg => hbefore l' hs' (goes_work hjs hu hc hg)
    | wait m' code' =>
      obtain ⟨hwait, hleft⟩ := hw m' code' rfl
      have hnone : endOf (.lane root) code' = [] := by simp [endOf, hleft]
      simp only [Flow.code, hnone, List.append_nil] at hwait hc ⊢
      have hturn := Goes.submitsAll hjs hu hc
        (.waits (Happening.underWay_acceptAll.mpr hu) hwait)
      exact .still (hscore.turns (hbefore _ _ hturn))

/-- A step of a drain brings a play on. -/
theorem Stands.drain (h : Stands c l₀ beats hs m.session.lanes (some (.lane root, i :: code)))
    (hu : ¬ Happening.UnderWay root hs) (hd : Drained m root flow hs')
    (hsteady : Steady hs m.session.lanes (m.codes (some (.lane root, i :: code))))
    (hc : c.Leads beats hs hs') :
    Stands c l₀ beats (hs ++ hs') flow.machine.session.lanes (flow.running root) := by
  cases h with
  -- The thread stood amid its turn, and the move is one of the three.
  | amid hscore hbefore =>
    cases hd with
    | @call k s m' code' hadv hcode =>
      -- The turn goes on until the call that begins now has ended.
      obtain ⟨j, rest, rfl⟩ := List.exists_cons_of_ne_nil (show code' ≠ [] by simp [hcode])
      have hstarted := hsteady.tally.underWay_started root k s
      rw [List.append_cons]
      exact .amid hscore fun l' hs' hg =>
        hbefore l' hs' (.calls hu hadv (goes_endOf hstarted hc.2 hg))
    -- A rest or a retirement ends the turn.
    | rest hadv =>
      rw [List.append_nil]
      exact .still (hscore.turns (hbefore _ _ (.rests hu hadv)))
    | retire hadv =>
      rw [List.append_nil]
      exact .gone (hscore.turns (hbefore _ _ (.retires hu hadv)))

/-- An instruction brings a play on. -/
theorem Stands.exec (h : Stands c l₀ beats hs m.session.lanes (some (.lane root, i :: code)))
    (hsteady : Steady hs m.session.lanes (m.codes (some (.lane root, i :: code))))
    (he : m.exec (.lane root) code i = flow) (ht : Tells (.lane root) m flow i hs')
    (hc : c.Leads beats hs hs')
    (hw : isDrain i = false → ∀ m' code', flow = .wait m' code' →
      c beats (hs ++ hs') = .wait ∧ code'.all isDrain = false) :
    Stands c l₀ beats (hs ++ hs') flow.machine.session.lanes (flow.running root) := by
  cases hi : isDrain i with
  | true =>
    obtain ⟨hu, -, hd⟩ := hsteady.drained hi he ht
    exact h.drain hu hd hsteady hc
  | false =>
    have hnext := Steady.exec hsteady (he ▸ ht)
    rw [he] at hnext
    cases ht with
    | call _ => simp [isDrain] at hi
    | pause _ => simp [isDrain] at hi
    | work _ hjs =>
      -- The lane is still active, so its thread has still its drain to run.
      have hactive : root ∈ flow.machine.session.lanes.active :=
        hjs.mem_active (hsteady.active_of_code (by simp [codes]))
      obtain ⟨script, hcode, -⟩ := hnext.serving root hactive
      rw [Function.update_self] at hcode
      exact h.work hsteady hi (by simp [hcode]) hjs rfl hc (hw hi)

end

/-- A play stands where its beats and its conduct have brought it. -/
theorem Play.stands {c : Conduct} {m₀ m : Machine} {beats : List Beat} {hs : List Happening}
    {running : Option (ThreadId × List Instr)} (hf : m₀.Fresh) (h : Play c m₀ beats hs m running) :
    Stands c m₀.session.lanes beats hs m.session.lanes running := by
  -- Between turns the score says what has happened; within one it says so with what is left of the
  -- turn.
  induction h with
  | nil => exact .still .nil
  | submits _ hl ih =>
    cases ih with
    | still hscore =>
      rw [withSession_session]
      exact .still (hscore.submits hl)
  | enters _ _ ih =>
    cases ih with
    | still hscore => exact .amid hscore fun _ _ hg => hg
  -- An instruction within a turn is followed by another one, or ends the turn.
  | @goes beats hs hs' m m' root i code code' h he ht hc ih =>
    exact ih.exec (h.steady hf) he ht hc fun _ _ _ hflow => by cases hflow
  | @waits beats hs hs' m m' root i code code' h he ht hc hw ih =>
    exact ih.exec (h.steady hf) he ht hc fun hi m' code' hflow => by
      cases hflow
      exact hw hi
  | ends _ ih =>
    cases ih with
    | gone hscore => exact .still hscore
  | adapts _ _ _ ih => exact ih
  | outside _ hl _ _ ih =>
    rw [hl]
    exact ih

/-! ## Whose actions are left -/

/-- The instruction is an action of a listener. -/
def isAct : Instr → Bool
  | .act .. => true
  | _ => false

/-- An instruction that is no drain leaves no actions of listeners but some of those that were
left. -/
theorem acts_exec (m : Machine) (id : ThreadId) (code : List Instr) {i : Instr}
    (hi : isDrain i = false) :
    ((m.exec id code i).code.filter isAct).Sublist (code.filter isAct) := by
  -- Going on with the drain skips actions, and leaves no new ones.
  have hskip : ((code.dropWhile (!isDrain ·)).filter isAct).Sublist (code.filter isAct) :=
    (List.dropWhile_sublist _).filter _
  -- What a thread goes on with holds no action, but for what it held before.
  cases i with
  | perform step sink =>
    cases step with
    | consume source paced =>
      simp only [exec, consume]
      split
      · simp [Flow.code, isAct]
      · simp only [Flow.code, readCode]
        split <;> simp [isAct]
    | sleep d =>
      simp only [exec]
      split <;> simp [Flow.code, isAct]
    | _ => simp [exec, Flow.code, isAct]
  | answer a sink =>
    cases sink with
    | entry =>
      simp only [exec, answer]
      split <;> simp [Flow.code, isAct]
    | note l root => simp [exec, answer, Flow.code]
    | verdict => cases a <;> simp [exec, answer, Flow.code, isAct]
  | settle =>
    simp only [exec]
    split <;> simp [Flow.code, isAct]
  | read i sink =>
    simp only [exec, read]
    split
    · simp [Flow.code]
    · split
      · split <;> simp [Flow.code, isAct]
      · simp only [Flow.code, readCode]
        split <;> simp [isAct]
      · simp [Flow.code, isAct]
      · simp [Flow.code, isAct]
  | work i w =>
    simp only [exec, work]
    split
    · simp [Flow.code]
    · split <;> simp [Flow.code, isAct]
  | act a l s =>
    cases a with
    | fail message => exact hskip
    | sleep d =>
      simp only [exec, act]
      split
      · exact hskip
      · simp [Flow.code, isAct]
    | log => cases s <;> simp [exec, act, Flow.code]
    | _ => simp [exec, act, Flow.code, isAct]
  | drain root => simp [isDrain] at hi
  | sweeper w =>
    simp only [exec, startSweeper]
    split
    · split <;> simp [Flow.code, isAct]
    · simp [Flow.code]
  | sweep maxAge interval => simp [exec, sweepAgain, Flow.code, isAct]
  | _ => simp [exec, Flow.code]

/-- Submitting jobs leaves no actions of listeners in the lanes but those that were left. -/
theorem Submits.act_mem {m m' : Machine} (h : Submits m m') {root : Root} {a : Action}
    {l : Listener} {s : Signal} (ha : .act a l s ∈ m'.codeOf (.lane root)) :
    .act a l s ∈ m.codeOf (.lane root) := by
  by_cases hold : root ∈ m.session.lanes.active ∨ root ∉ m'.session.lanes.active
  · rwa [h.kept root hold] at ha
  · obtain ⟨hbefore, hafter⟩ := not_or.mp hold
    rw [h.fresh root hbefore (not_not.mp hafter)] at ha
    simp at ha

/-- The actions of listeners that a lane has still to run are those of the call that began last in
it. -/
def Acting (hs : List Happening) (codes : ThreadId → List Instr) : Prop :=
  ∀ root a l s, .act a l s ∈ codes (.lane root) →
    (Happening.calls root hs).getLast? = some (l, s)

/-- No call begins while jobs are accepted and when a call ends. -/
theorem calls_work (root : Root) (js : List (Root × Job)) (id : ThreadId) (code : List Instr) :
    Happening.calls root ((js.map fun j => .accepted j.1 j.2) ++ endOf id code) = [] := by
  have hend : Happening.calls root (endOf id code) = [] := by
    unfold endOf
    split
    · split <;> rfl
    · rfl
  have haccepted : Happening.calls root (js.map fun j => .accepted j.1 j.2) = [] := by
    simp [Happening.calls]
  rw [Happening.calls_append, hend, haccepted, List.append_nil]

/-- The thread of a lane leaves what the other lanes have still to run. -/
theorem update_lane_of_ne (codes : ThreadId → List Instr) {root r : Root} (code : List Instr)
    (hr : r ≠ root) : Function.update codes (.lane root) code (.lane r) = codes (.lane r) :=
  Function.update_of_ne (mt ThreadId.lane.inj hr) _ _

namespace Acting

variable {hs hs' : List Happening} {m : Machine} {root : Root} {i : Instr} {code : List Instr}
  {flow : Flow}

/-- An instruction within a call leaves in the lanes the actions of the calls that began last. -/
theorem work (h : Acting hs (m.codes (some (.lane root, i :: code))))
    (hi : isDrain i = false) (js : List (Root × Job)) (left : List Instr) :
    Acting (hs ++ ((js.map fun j => .accepted j.1 j.2) ++ endOf (.lane root) left))
      (Function.update (m.exec (.lane root) code i).machine.codeOf (.lane root)
        (m.exec (.lane root) code i).code) := by
  -- No call begins within a call.
  intro r a l s hin
  rw [Happening.calls_append, calls_work, List.append_nil]
  refine h r a l s ?_
  -- In the lane that runs the actions are among those that were left; another lane may only have
  -- got a drain.
  by_cases hr : r = root
  · subst hr
    rw [Function.update_self] at hin
    have hleft : .act a l s ∈ code.filter isAct :=
      (acts_exec m _ code hi).subset (List.mem_filter.mpr ⟨hin, rfl⟩)
    rw [codes, Function.update_self]
    exact List.mem_cons_of_mem _ (List.mem_of_mem_filter hleft)
  · rw [update_lane_of_ne _ _ hr] at hin
    rw [codes, update_lane_of_ne _ _ hr]
    exact (submits_exec m _ code hi).act_mem hin

/-- A step of a drain leaves in the lanes the actions of the calls that began last. -/
theorem drain (h : Acting hs (m.codes (some (.lane root, i :: code))))
    (hsame : flow.machine.codeOf = m.codeOf) (hd : Drained m root flow hs') :
    Acting (hs ++ hs') (Function.update flow.machine.codeOf (.lane root) flow.code) := by
  intro r a l s hin
  rw [hsame] at hin
  by_cases hr : r = root
  · subst hr
    rw [Function.update_self] at hin
    cases hd with
    | @call k sig m' code' _ hcode =>
      -- Only the script of the listener that is called has actions.
      have hcalls : Happening.calls r (.started r k sig :: endOf (.lane r) code') =
          [(k, sig)] := by
        have hend := calls_work r [] (.lane r) code'
        simpa [Happening.calls] using hend
      have hact : l = k ∧ s = sig := by
        simp only [Flow.code, hcode, List.mem_append, List.mem_map] at hin
        rcases hin with ⟨a', -, hact⟩ | hdrain
        · cases hact
          exact ⟨rfl, rfl⟩
        · simp at hdrain
      rw [Happening.calls_append, hcalls, List.getLast?_concat, hact.1, hact.2]
    | rest _ => simp [Flow.code] at hin
    | retire _ => simp [Flow.code] at hin
  · have hcalls : Happening.calls r hs' = [] := by
      cases hd with
      | @call k sig m' code' _ _ =>
        have hend := calls_work r [] (.lane root) code'
        simpa [Happening.calls, Ne.symm hr] using hend
      | rest _ => rfl
      | retire _ => rfl
    rw [Happening.calls_append, hcalls, List.append_nil]
    rw [update_lane_of_ne _ _ hr] at hin
    exact h r a l s (by rwa [codes, update_lane_of_ne _ _ hr])

/-- An instruction leaves in the lanes the actions of the calls that began last. -/
theorem exec (h : Acting hs (m.codes (some (.lane root, i :: code))))
    (hsteady : Steady hs m.session.lanes (m.codes (some (.lane root, i :: code))))
    (he : m.exec (.lane root) code i = flow) (ht : Tells (.lane root) m flow i hs') :
    Acting (hs ++ hs') (Function.update flow.machine.codeOf (.lane root) flow.code) := by
  -- A drain takes up the actions of the call that it begins; the rest leaves actions behind.
  cases hi : isDrain i with
  | true =>
    obtain ⟨-, hsame, hd⟩ := hsteady.drained hi he ht
    exact h.drain hsame hd
  | false =>
    subst he
    cases ht with
    | call _ => simp [isDrain] at hi
    | pause _ => simp [isDrain] at hi
    | work _ _ => exact h.work hi _ _

end Acting

/-- At every moment of a play the actions that are left are those of the calls that began last. -/
theorem Play.acting {c : Conduct} {m₀ m : Machine} {beats : List Beat} {hs : List Happening}
    {running : Option (ThreadId × List Instr)} (hf : m₀.Fresh) (h : Play c m₀ beats hs m running) :
    Acting hs (m.codes running) := by
  -- Whatever leaves the threads as they are leaves the actions.
  induction h with
  | nil =>
    intro root a l s hin
    rw [codes, hf.lanes root] at hin
    cases hin
  | @submits beats hs m root job lanes h hl ih =>
    intro r a l s hin
    have hsub := submits_withSession m (s := { m.session with lanes }) ⟨_, .one hl⟩
    have hcalls : Happening.calls r (hs ++ [.accepted root job]) = Happening.calls r hs := by
      simp [Happening.calls]
    rw [hcalls]
    exact ih r a l s (hsub.act_mem hin)
  | @enters beats hs m root i code _ hid ih =>
    have hcode : m.codeOf (.lane root) = i :: code := by simp [codeOf, hid]
    rw [codes, ← hcode, Function.update_eq_self]
    exact ih
  | goes h he ht _ ih => exact ih.exec (h.steady hf) he ht
  | waits h he ht _ _ ih =>
    rw [codes, codeOf_store]
    exact ih.exec (h.steady hf) he ht
  | ends _ ih =>
    rw [codes, codeOf_remove]
    exact ih
  | @adapts _ _ m running _ _ _ ih => cases running <;> exact ih
  | outside _ _ hc _ ih =>
    intro r a l s hin
    rw [codes, hc r] at hin
    exact ih r a l s hin

/-! ## Failures -/

/-- What holds at a moment of a play, whoever fails. -/
structure Contained (hs : List Happening) (m : Machine)
    (running : Option (ThreadId × List Instr)) : Prop where
  /-- The calls of a lane are the first of those that its jobs ask for, one at a time. -/
  delivered : ∀ root, Happening.Delivered root hs
  /-- In a lane that is not active all calls have been made that its jobs ask for. -/
  complete : ∀ root, root ∉ m.session.lanes.active →
    Happening.calls root hs = Happening.asked root hs
  /-- No failure ends the thread of a lane: its drain is still to run while the lane is active. -/
  drains : ∀ root ∈ m.session.lanes.active,
    ∃ script, m.codes running (.lane root) = script ++ [.drain root]
  /-- When a listener fails it is the one that was called last. Each observer that there is is told
  once, in order and whether it fails or not, and the thread goes on with its drain. -/
  told : ∀ root a l s code f, running = some (.lane root, .act a l s :: code) → Fails a f →
    (Happening.calls root hs).getLast? = some (l, s) ∧
      ∃ m', m.exec (.lane root) code (.act a l s) = .go m' [.drain root] ∧
        Told f s l m.observers m m'

/-- Whoever fails in a play is contained. -/
theorem Play.contained {c : Conduct} {m₀ m : Machine} {beats : List Beat} {hs : List Happening}
    {running : Option (ThreadId × List Instr)} (hf : m₀.Fresh) (h : Play c m₀ beats hs m running) :
    Contained hs m running where
  delivered root := (h.steady hf).tally.delivered root
  complete root ha := by
    have hsteady := h.steady hf
    exact (hsteady.tally.all_delivered ha (by simp [hsteady.retired root ha])).1
  drains root ha := by
    obtain ⟨script, hcode, -⟩ := (h.steady hf).serving root ha
    exact ⟨script, hcode⟩
  told root a l s code f hrun hfails := by
    subst hrun
    have hcode : m.codes (some (.lane root, .act a l s :: code)) (.lane root) =
        .act a l s :: code := Function.update_self ..
    refine ⟨h.acting hf root a l s (by rw [hcode]; exact List.mem_cons_self), ?_⟩
    -- The rest of the script is skipped, and the drain is what is left.
    obtain ⟨-, script, rfl, hscript⟩ := (h.steady hf).within_script hcode rfl
    have hskip : ∀ j ∈ script, (!isDrain j) = true := fun j hj => by simp [(hscript j hj).1]
    obtain ⟨m', he, htold⟩ := exec_fails hfails m (.lane root) l s (script ++ [.drain root])
    rw [List.dropWhile_append_of_pos hskip] at he
    exact ⟨m', he, htold⟩

/-- Take two machines with the same lanes in which nothing has happened yet, and let the same jobs
be submitted and the same drains have their turns in the same order, while the listeners of both
keep to the same conduct. Then the same happens in both, whichever listeners and observers fail in
the one or in the other: the same listeners are called with the same signals in the same order, and
the same lanes are active after every beat, so the same lanes have retired. In every play whoever
fails is contained; and if calls that fail do not wait as they would have done, so that the conduct
and the turns are others, then still the same calls are made in each lane that has retired, as long
as the same jobs are submitted to it. -/
theorem failures_isolated {c : Conduct} {m₁ m₂ m₁' m₂' : Machine} {beats : List Beat}
    {hs₁ hs₂ : List Happening} (hf₁ : m₁.Fresh) (hf₂ : m₂.Fresh)
    (hl : m₂.session.lanes = m₁.session.lanes) (h₁ : Play c m₁ beats hs₁ m₁' none)
    (h₂ : Play c m₂ beats hs₂ m₂' none) :
    (hs₂ = hs₁ ∧ m₂'.session.lanes = m₁'.session.lanes) ∧
      ∀ c' beats' hs m running, Play c' m₂ beats' hs m running →
        Contained hs m running ∧
          ∀ root, root ∉ m₁'.session.lanes.active → root ∉ m.session.lanes.active →
            Happening.jobs root hs = Happening.jobs root hs₁ →
            Happening.calls root hs = Happening.calls root hs₁ := by
  constructor
  · -- The beats and the conduct leave one score only for both plays.
    have hscore₁ : Score c m₁.session.lanes beats hs₁ m₁'.session.lanes := by
      cases h₁.stands hf₁ with
      | still h => exact h
    have hscore₂ : Score c m₁.session.lanes beats hs₂ m₂'.session.lanes := by
      cases h₂.stands hf₂ with
      | still h => exact hl ▸ h
    exact hscore₁.unique hscore₂
  · intro c' beats' hs m running h
    -- In a lane that has retired the calls are what was asked for, and the jobs say what that is.
    refine ⟨h.contained hf₂, fun root ha₁ ha hjobs => ?_⟩
    calc Happening.calls root hs = Happening.asked root hs := (h.contained hf₂).complete root ha
      _ = Happening.asked root hs₁ := by rw [Happening.asked, hjobs, Happening.asked]
      _ = Happening.calls root hs₁ := ((h₁.contained hf₁).complete root ha₁).symm

/-- Two listeners of one note, the first of which sleeps: it fails after that, and so does the
observer that is told first, in one run and not in the other. -/
theorem failures_isolated_note : ∃ (c : Conduct) (m₁ m₂ m₁' m₂' : Machine) (beats : List Beat)
    (hs : List Happening),
    Play c m₁ beats hs m₁' none ∧ Play c m₂ beats hs m₂' none ∧
      hs = [.accepted none ⟨.note "hello" none, ["first", "second"]⟩,
        .started none "first" (.note "hello" none), .ended none,
        .started none "second" (.note "hello" none), .ended none] ∧
      m₁'.session.lanes.active = [] ∧ m₂'.session.lanes = m₁'.session.lanes ∧
      m₁'.tellings = [] ∧
      m₂'.tellings = [("watcher", ⟨.thrown "oops", .signal (.note "hello" none)⟩, "first")] ∧
      m₂'.loggings (.note "hello" none) "oops" = 1 := by
  let s : Session :=
    { settings := [], cache := {}, handlers := .none, lanes := { running := true } }
  let c : Conduct := fun beats _ => if beats.length = 2 then .wait else .stop
  let m₁ : Machine := { still s with scripts := [("first", [.sleep 5])] }
  let m₂ : Machine :=
    { still s with
      scripts := [("first", [.sleep 5, .fail "oops"])]
      observers := [.scripted "watcher" true [], .logging] }
  have hf₁ : m₁.Fresh := fresh_still s _ rfl rfl
  have hf₂ : m₂.Fresh :=
    ⟨rfl, rfl, fun _ => rfl, fun id _ => by simp [DrainFree, codeOf, m₂, still]⟩
  let job : Job := ⟨.note "hello" none, ["first", "second"]⟩
  let beats : List Beat := [.turn none, .turn none, .turn none, .submit none job]
  let hs : List Happening :=
    [.accepted none job, .started none "first" job.signal, .ended none,
      .started none "second" job.signal, .ended none]
  -- In one run the first listener wakes and is done.
  have hsubmit₁ : Play c m₁ [.submit none job] [.accepted none job] _ none := .submits .nil rfl
  have hlane₁ : Play c m₁ (.turn none :: _) _ _ (some (.lane none, _)) := .enters hsubmit₁ rfl
  have hfirst₁ := hlane₁.goes rfl (.call rfl) ⟨trivial, trivial⟩
  have hsleeps₁ := hfirst₁.waits rfl (.work rfl (.nil _)) trivial fun _ => ⟨rfl, rfl⟩
  have hagain₁ : Play c m₁ (.turn none :: _) _ _ (some (.lane none, _)) := .enters hsleeps₁ rfl
  have hwakes₁ := hagain₁.goes rfl (.work rfl (.nil _)) ⟨rfl, trivial⟩
  have hsecond₁ := hwakes₁.goes rfl (.call rfl) ⟨trivial, rfl, trivial⟩
  have hrests₁ := hsecond₁.waits rfl (.pause fun _ _ _ h => by cases h) trivial fun h => by cases h
  have hlast₁ : Play c m₁ (.turn none :: _) _ _ (some (.lane none, _)) := .enters hrests₁ rfl
  have hdone₁ : Play c m₁ beats hs _ none :=
    (hlast₁.goes rfl (.pause fun _ _ _ h => by cases h) trivial).ends
  -- In the other one it wakes and fails.
  have hsubmit₂ : Play c m₂ [.submit none job] [.accepted none job] _ none := .submits .nil rfl
  have hlane₂ : Play c m₂ (.turn none :: _) _ _ (some (.lane none, _)) := .enters hsubmit₂ rfl
  have hfirst₂ := hlane₂.goes rfl (.call rfl) ⟨trivial, trivial⟩
  have hsleeps₂ := hfirst₂.waits rfl (.work rfl (.nil _)) trivial fun _ => ⟨rfl, rfl⟩
  have hagain₂ : Play c m₂ (.turn none :: _) _ _ (some (.lane none, _)) := .enters hsleeps₂ rfl
  have hwakes₂ := hagain₂.goes rfl (.work rfl (.nil _)) trivial
  have hfails₂ := hwakes₂.goes rfl (.work rfl (.nil _)) ⟨rfl, trivial⟩
  have hsecond₂ := hfails₂.goes rfl (.call rfl) ⟨trivial, rfl, trivial⟩
  have hrests₂ := hsecond₂.waits rfl (.pause fun _ _ _ h => by cases h) trivial fun h => by cases h
  have hlast₂ : Play c m₂ (.turn none :: _) _ _ (some (.lane none, _)) := .enters hrests₂ rfl
  have hdone₂ : Play c m₂ beats hs _ none :=
    (hlast₂.goes rfl (.pause fun _ _ _ h => by cases h) trivial).ends
  obtain ⟨⟨-, hlanes⟩, -⟩ := failures_isolated hf₁ hf₂ rfl hdone₁ hdone₂
  exact ⟨c, m₁, m₂, _, _, beats, hs, hdone₁, hdone₂, rfl, rfl, hlanes, rfl, rfl, rfl⟩

end Machine

end Switchboard.Scenario
