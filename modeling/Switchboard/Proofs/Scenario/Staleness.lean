import Switchboard.Proofs.Scenario.Clock
import Switchboard.Proofs.Scenario.Delivery
import Switchboard.Proofs.Session.Release
import Switchboard.Proofs.Session.Sweep

/-!
# How old messages become

In virtual time the sweeper sweeps at its interval, and a sweep leaves no message that has reached
the maximum age (`Session.fresh_sweep`). So at no time is a message cached that is as old as the
maximum age and an interval together (`age_lt`). What carries this is `Paced`: when the last sweep
was, that no message was too old then, and that the next one comes in time. The beginning counts as
a sweep, and the sweeper that has not yet begun is at hand.
-/

namespace Switchboard

/-- A sweep leaves no message that has reached the maximum age. -/
theorem Session.fresh_sweep {s s' : Session} {maxAge : Duration} {now : Instant} {n : Nat}
    (h : s.sweep maxAge now = .ok (n, s')) :
    ∀ msg ∈ Table.values s'.cache.messages, now - maxAge < msg.createdAt := by
  obtain ⟨cutoff, hcut, rfl⟩ := sweep_eq h
  -- The cutoff is the one that the clock gives.
  have hcutoff : cutoff = now - maxAge := by
    simp only [Instant.before?] at hcut
    split at hcut
    · exact (Except.ok.inj hcut).symm
    · cases hcut
  -- What is left entered after the cutoff.
  intro msg hmsg
  obtain ⟨e, he, rfl⟩ := List.mem_map.mp hmsg
  have hlate := (List.mem_filter.mp he).2
  rw [← hcutoff]
  simpa using hlate

/-- The time between two sweeps. If the interval is longer than a duration can be, any duration
stands for it that is longer than all of time. -/
def Sweeper.Every (w : Sweeper) (interval : Duration) : Prop :=
  match Duration.ofSeconds? w.interval with
  | .ok d => interval = max 1 d
  | .error _ => Instant.last - Instant.first < interval

namespace Scenario.Machine

/-! ## The sweeper's own steps -/

/-- The sweeper sweeps and sleeps until the next sweep. -/
theorem exec_sweep {m : Machine} {maxAge interval : Duration} (hi : 0 < interval)
    (hcut : Timely m.clock (.sweep maxAge interval)) (code : List Instr) :
    ∃ m' n, m.exec .sweeper code (.sweep maxAge interval) =
        .wait m' (.sweep maxAge interval :: code) ∧
      m.session.sweep maxAge m.clock = .ok (n, m'.session) ∧ m'.clock = m.clock ∧
      (m.clock + interval, .sweeper) ∈ m'.sleepers := by
  obtain ⟨cutoff, hcut⟩ := hcut
  -- There is a cutoff, so the sweep does not fail.
  have hsweep : ∃ n s, m.session.sweep maxAge m.clock = .ok (n, s) :=
    ⟨_, _, by simp only [Session.sweep, Cache.dropOlder, hcut]; rfl⟩
  obtain ⟨n, s, hsweep⟩ := hsweep
  let m₁ : Machine := (m.withSession s).logAll (Session.sweepRecords n)
  have hdone : m.sweep (.ok maxAge) none = (m₁, .count n) := by
    simp only [sweep, Except.bind, Option.getD_none, hsweep]
    rfl
  -- Sweeping does not take time.
  have hclock : m₁.clock = m.clock :=
    (effects_withSession (p := packetsOnly) (Session.dated_sweep m.clock hsweep)).onward.clock
  refine ⟨m₁.sleepFor .sweeper interval, n, ?_, ?_, ?_, ?_⟩
  · simp only [exec, sweepAgain, hdone]
  · rw [sleepFor_session]
    exact hsweep.trans (by rw [show m₁.session = s from withSession_session m s])
  · simp only [sleepFor, if_neg (Int.not_le.mpr hi), hclock]
  · simp only [sleepFor, if_neg (Int.not_le.mpr hi), hclock]
    exact List.mem_append_right _ List.mem_cons_self

/-! ## What holds at every moment -/

/-- The sweeper is running, or it is its turn, or it will be in the next round. -/
def AtHand (m : Machine) (due : List ThreadId) (running : Option (ThreadId × List Instr)) : Prop :=
  .sweeper ∈ running.map Prod.fst ∨ .sweeper ∈ due ∨ .sweeper ∈ m.ready

/-- How far the sweeper has come since the last sweep, with what it has still to run. -/
inductive Stage (w : Sweeper) (last : Instant) (m : Machine) (due : List ThreadId)
    (running : Option (ThreadId × List Instr)) : List Instr → Prop
  /-- It has not yet begun, and no time has passed. -/
  | begins (hc : m.clock = last) (hh : AtHand m due running) :
      Stage w last m due running [.sweeper w]
  /-- It sleeps no longer than its interval, or the next sweep is at hand. -/
  | sweeps {d : Duration} (hd : Duration.ofSeconds? w.interval = .ok d)
      (hc : m.clock ≤ last + max 1 d)
      (hh : AtHand m due running ∨ ∃ t ≤ last + max 1 d, (t, .sweeper) ∈ m.sleepers) :
      Stage w last m due running [.sweep w.maxAge (max 1 d)]
  /-- Its interval is longer than a duration can be, and it sleeps forever. -/
  | rests {f : Failure} (hd : Duration.ofSeconds? w.interval = .error f) :
      Stage w last m due running []

/-- What holds at every moment, with the instant of the last sweep or of the beginning. -/
structure Paced (w : Sweeper) (last : Instant) (m : Machine) (due : List ThreadId)
    (running : Option (ThreadId × List Instr)) : Prop where
  after : last ≤ m.clock
  /-- No message that is cached was too old at the last sweep. -/
  fresh : ∀ msg ∈ Table.values m.session.cache.messages, last - w.maxAge < msg.createdAt
  stage : Stage w last m due running (m.codes running .sweeper)

variable {w : Sweeper} {last : Instant} {m m' : Machine} {due due' : List ThreadId}
  {running running' : Option (ThreadId × List Instr)} {id : ThreadId} {i : Instr}
  {code code' : List Instr}

/-- The sweeper stays where it is while it is at hand or sleeps and no time passes. -/
theorem Stage.stays (h : Stage w last m due running code) (hc : m'.clock = m.clock)
    (hh : AtHand m due running → AtHand m' due' running')
    (hs : ∀ e ∈ m.sleepers, e ∈ m'.sleepers) : Stage w last m' due' running' code := by
  cases h with
  | begins hclock hhere => exact .begins (hc.trans hclock) (hh hhere)
  | sweeps hd hclock hhere =>
    refine .sweeps hd (hc ▸ hclock) (hhere.imp hh ?_)
    exact fun ⟨t, ht, hin⟩ => ⟨t, ht, hs _ hin⟩
  | rests hd => exact .rests hd

namespace Paced

/-- What holds goes on to hold while the sweeper stays where it is. -/
theorem stays (h : Paced w last m due running) (hc : m'.clock = m.clock)
    (hm : m'.session = m.session) (hcode : m'.codes running' .sweeper = m.codes running .sweeper)
    (hh : AtHand m due running → AtHand m' due' running')
    (hs : ∀ e ∈ m.sleepers, e ∈ m'.sleepers) : Paced w last m' due' running' where
  after := hc ▸ h.after
  fresh := hm ▸ h.fresh
  stage := hcode ▸ h.stage.stays hc hh hs

/-- What holds goes on to hold when another thread carries the machine on. -/
theorem onward (h : Paced w last m due (some (id, i :: code))) (hid : id ≠ .sweeper)
    (hw : 0 < w.maxAge) (ho : Onward packetsOnly m m') :
    Paced w last m' due (some (id, code')) where
  after := ho.clock ▸ h.after
  fresh msg hmsg := by
    rcases ho.dated msg hmsg with hnow | ⟨old, hold, htime⟩
    · -- A message that enters now is younger than any cutoff.
      have hlast := h.after
      rw [hnow]
      lia
    · rw [← htime]
      -- The sweeper's thread is where it was, or nearer to its turn.
      exact h.fresh old hold
  stage := by
    have hcode : m'.codes (some (id, code')) .sweeper =
        m.codes (some (id, i :: code)) .sweeper := by
      simp only [codes, Function.update_of_ne hid.symm, codeOf, ho.sweeper]
    rw [hcode]
    refine h.stage.stays ho.clock ?_ fun e he => ho.sleepers.subset he
    -- Its turn is still to come, from wherever it is waited for.
    rintro (hrun | hdue | hready)
    · exact absurd (by simpa using hrun) hid
    · exact .inr (.inl hdue)
    · exact .inr (.inr (ho.ready.subset hready))

/-- The sweeper begins or sweeps, and sleeps. -/
theorem sweeper (h : Paced w last m due (some (.sweeper, i :: code))) (hw : w.enabled = true)
    (hcut : Timely m.clock i) :
    ∃ m' code', m.exec .sweeper code i = .wait m' code' ∧ ∃ last', last ≤ last' ∧
      Paced w last' { m' with threads := Table.put .sweeper code' m'.threads } due none := by
  have hage := Sweeper.maxAge_pos hw
  have hstage := h.stage
  rw [codes, Function.update_self] at hstage
  -- What the sweeper has to run says which of its steps this is.
  generalize hc : i :: code = all at hstage
  cases hstage with
  | begins hclock _ =>
    obtain ⟨rfl, rfl⟩ := List.cons.inj hc
    cases hd : Duration.ofSeconds? w.interval with
    | error f =>
      refine ⟨m, [], by simp [exec, startSweeper, hw, hd], last, Int.le_refl _, h.after, h.fresh,
        ?_⟩
      rw [codes, codeOf_store, Function.update_self]
      exact .rests hd
    | ok d =>
      have hpos : ¬ max 1 d ≤ 0 := by lia
      let m₁ : Machine := { m with sleepers := m.sleepers ++ [(m.clock + max 1 d, .sweeper)] }
      have hsleep : m.sleepFor .sweeper (max 1 d) = m₁ := if_neg hpos
      refine ⟨m₁, [.sweep w.maxAge (max 1 d)], by simp [exec, startSweeper, hw, hd, hsleep], last,
        Int.le_refl _, h.after, h.fresh, ?_⟩
      rw [codes, codeOf_store, Function.update_self]
      refine .sweeps hd ?_ (.inr ⟨m.clock + max 1 d, ?_, ?_⟩)
      · show m.clock ≤ last + max 1 d
        lia
      · lia
      · exact List.mem_append_right _ List.mem_cons_self
  | @sweeps d hd hclock _ =>
    obtain ⟨rfl, rfl⟩ := List.cons.inj hc
    have hpos : 0 < max 1 d := by lia
    obtain ⟨m', n, he, hsweep, htime, hsleeps⟩ := exec_sweep hpos hcut []
    refine ⟨m', _, he, m.clock, h.after, ?_, Session.fresh_sweep hsweep, ?_⟩
    · exact Int.le_of_eq htime.symm
    · rw [codes, codeOf_store, Function.update_self]
      refine .sweeps hd ?_ (.inr ⟨_, Int.le_refl _, hsleeps⟩)
      dsimp only
      lia
  | rests _ => cases hc

/-- The sweeper waits after each of its steps. -/
theorem never_goes (h : Paced w last m due (some (.sweeper, i :: code))) (hw : w.enabled = true)
    (m' : Machine) (code' : List Instr) : m.exec .sweeper code i ≠ .go m' code' := by
  have hstage := h.stage
  rw [codes, Function.update_self] at hstage
  generalize hc : i :: code = all at hstage
  cases hstage with
  | begins =>
    obtain ⟨rfl, rfl⟩ := List.cons.inj hc
    cases hd : Duration.ofSeconds? w.interval <;> simp [exec, startSweeper, hw, hd]
  | sweeps =>
    obtain ⟨rfl, rfl⟩ := List.cons.inj hc
    simp [exec, sweepAgain]
  | rests => cases hc

/-- The sweeper that has ended rests. -/
theorem ended (h : Paced w last m due running) (hcode : m.codes running .sweeper = [])
    (hc : m'.clock = m.clock) (hm : m'.session = m.session)
    (hcode' : m'.codes running' .sweeper = []) : Paced w last m' due' running' where
  after := hc ▸ h.after
  fresh := hm ▸ h.fresh
  stage := by
    have hstage := h.stage
    rw [hcode] at hstage
    rw [hcode']
    cases hstage with
    | rests hd => exact .rests hd

/-- The time moves on at most until the sweeper wakes. -/
theorem ticks (h : Paced w last m [] none) (hr : m.ready = [])
    (hf : ∀ e ∈ m.sleepers, m.clock ≤ e.1) (ht : Tick m m') : Paced w last m' [] none where
  after := by
    obtain ⟨e, he, htime⟩ := ht.reached
    exact Int.le_trans h.after (htime ▸ hf e he)
  fresh := ht.session ▸ h.fresh
  stage := by
    have hstage := h.stage
    have hcode : m'.codes none .sweeper = m.codes none .sweeper := by
      simp only [codes, codeOf, ht.threads]
    -- Nobody is at hand when the time moves on.
    have hnot : ¬ AtHand m [] none := by simp [AtHand, hr]
    rw [hcode]
    generalize m.codes none .sweeper = code at hstage
    cases hstage with
    | begins _ hh => exact absurd hh hnot
    | sweeps hd _ hh =>
      obtain ⟨t, hsoon, hin⟩ := hh.resolve_left hnot
      refine .sweeps hd (Int.le_trans (ht.next _ hin) hsoon) ?_
      rcases ht.woken _ hin with hsleeps | hready
      · exact .inr ⟨t, hsoon, hsleeps⟩
      · exact .inl (.inr (.inr hready))
    | rests hd => exact .rests hd

end Paced

/-! ## Runs -/

/-- A machine whose sweeper is about to begin: nobody sleeps, there are no observers, and no message
is cached. -/
structure Poised (w : Sweeper) (m : Machine) : Prop where
  sweeper : m.codeOf .sweeper = [.sweeper w]
  ready : .sweeper ∈ m.ready
  sleepers : m.sleepers = []
  observers : m.observers = []
  messages : m.session.cache.messages = []

namespace Clocked

variable {m₀ : Machine}

/-- What lasts from the time at which the sweeper was about to begin. -/
theorem lasts_poised (hp : m₀.Poised w) (h : Clocked Timely m₀ m due running) : Lasts m₀ m :=
  h.lasts hp.sleepers (by simp [Only, hp.observers]) hp.messages

/-- At every moment of a run the last sweep, or the beginning, is not too long ago. -/
theorem paced (hp : m₀.Poised w) (hw : w.enabled = true) (h : Clocked Timely m₀ m due running) :
    ∃ last, m₀.clock ≤ last ∧ Paced w last m due running := by
  have hage := Sweeper.maxAge_pos hw
  -- Every step keeps the last sweep but one: the sweeper's own instruction, which sweeps anew.
  induction h with
  | start =>
    refine ⟨m₀.clock, Int.le_refl _, Int.le_refl _, by simp [hp.messages, Table.values], ?_⟩
    rw [codes, hp.sweeper]
    exact .begins rfl (.inr (.inr hp.ready))
  | gathers _ ih =>
    obtain ⟨last, hlater, ih⟩ := ih
    exact ⟨last, hlater, ih.stays rfl rfl rfl (by grind [AtHand]) fun _ he => he⟩
  | @enters m due id code _ hid hc ih =>
    obtain ⟨last, hlater, ih⟩ := ih
    have hcode : m.codeOf id = code := by simp [codeOf, hc]
    refine ⟨last, hlater, ih.stays rfl rfl ?_ (by grind [AtHand]) fun _ he => he⟩
    rw [codes, codes, ← hcode, Function.update_eq_self]
  -- The sweeper has ended, if it is the thread that is not there any more.
  | @skips m due id _ hid hc ih =>
    obtain ⟨last, hlater, ih⟩ := ih
    by_cases hsweeper : id = .sweeper
    · subst hsweeper
      have hcode : m.codes none .sweeper = [] := by simp [codes, codeOf, hc]
      exact ⟨last, hlater, ih.ended hcode rfl rfl hcode⟩
    · exact ⟨last, hlater, ih.stays rfl rfl rfl (by grind [AtHand]) fun _ he => he⟩
  | @goes m m' due id i code code' h hi he ih =>
    obtain ⟨last, hlater, ih⟩ := ih
    by_cases hsweeper : id = .sweeper
    · subst hsweeper
      exact absurd he (ih.never_goes hw m' code')
    · have hon := onward (h.lasts_poised hp).only hi he rfl
      exact ⟨last, hlater, ih.onward hsweeper hage hon⟩
  -- When the sweeper waits it has just swept, or has begun to sleep.
  | @waits m m' due id i code code' h hi he ih =>
    obtain ⟨last, hlater, ih⟩ := ih
    by_cases hsweeper : id = .sweeper
    · subst hsweeper
      obtain ⟨m₁, code₁, he₁, last', hnext, hpaced⟩ := ih.sweeper hw hi
      obtain ⟨rfl, rfl⟩ := Flow.wait.inj (he₁.symm.trans he)
      exact ⟨last', Int.le_trans hlater hnext, hpaced⟩
    · have hon : Onward packetsOnly m m' := onward (h.lasts_poised hp).only hi he rfl
      have hrun : Paced w last m' due (some (id, code')) := ih.onward hsweeper hage hon
      refine ⟨last, hlater, hrun.stays rfl rfl ?_ (by grind [AtHand]) fun _ he => he⟩
      rw [codes, codes, codeOf_store]
  | @ends m due id h ih =>
    obtain ⟨last, hlater, ih⟩ := ih
    by_cases hsweeper : id = .sweeper
    · subst hsweeper
      refine ⟨last, hlater, ih.ended ?_ rfl rfl ?_⟩
      · rw [codes, Function.update_self]
      · rw [codes, codeOf_remove, Function.update_self]
    · refine ⟨last, hlater, ih.stays rfl rfl ?_ (by grind [AtHand]) fun _ he => he⟩
      rw [codes, codes, codeOf_remove]
  | lulls _ hr ih =>
    obtain ⟨last, hlater, ih⟩ := ih
    exact ⟨last, hlater, ih.stays rfl rfl rfl (by grind [AtHand, wake]) fun _ he => he⟩
  | ticks h hr _ ht ih =>
    obtain ⟨last, hlater, ih⟩ := ih
    exact ⟨last, hlater, ih.ticks hr (h.lasts_poised hp).future (tick_of_tick? ht)⟩

end Clocked

/-! ## How old a message becomes -/

/-- The machine of a scenario that is about to begin. -/
def opened (m : Machine) (now : Instant) (scripts : List (Listener × List Action)) (settles : Bool)
    (code : List Instr) : Machine :=
  { m with clock := now, scripts, settles, threads := Table.put .main code m.threads }

/-- The sweeper of a live session is about to begin when the scenario is. -/
theorem poised_opened {given : Value} {handlers : Option Handlers} {s : Session}
    (hs : Session.create given handlers = .ok s) (hm : served s = .ok m)
    (hw : Sweeper.ofSettings s.settings = .ok w) (now : Instant)
    (scripts : List (Listener × List Action)) (settles : Bool) (code : List Instr) :
    (m.opened now scripts settles code).Poised w := by
  obtain ⟨settings, capacity, handlers, rfl⟩ := Session.create_eq hs
  obtain ⟨w', hw', hm⟩ := bind_eq_ok.mp hm
  cases hw'.symm.trans hw
  cases hm
  exact ⟨rfl, List.mem_cons_self, rfl, rfl, rfl⟩

/-- The session of a scenario that is about to begin can come about. -/
theorem reachable_opened {given : Value} {handlers : Option Handlers} {s : Session}
    (hs : Session.create given handlers = .ok s) (hm : served s = .ok m) (now : Instant)
    (scripts : List (Listener × List Action)) (settles : Bool) (code : List Instr) :
    (m.opened now scripts settles code).session.Reachable := by
  obtain ⟨w, -, hm⟩ := bind_eq_ok.mp hm
  cases hm
  exact ⟨given, handlers, s, hs, .single (.start s)⟩

/-- What a sweep leaves: no message that has reached the maximum age, and no registration of a
message that went. -/
structure Swept (maxAge : Duration) (m m' : Machine) : Prop where
  fresh : ∀ msg ∈ Table.values m'.session.cache.messages, m.clock - maxAge < msg.createdAt
  released : ∀ id, (m.session.cache.message? id).isSome → m'.session.cache.message? id = none →
    m'.session.registry.registrationsAt (.message id) = []

/-- The sweeper sweeps with the maximum age that it was made for. -/
theorem Paced.swept {maxAge interval : Duration} {rest : List Instr}
    (h : Paced w last m due (some (.sweeper, .sweep maxAge interval :: rest)))
    (hf : m.session.cache.Filed) (hcut : Timely m.clock (.sweep maxAge interval)) :
    maxAge = w.maxAge ∧ Swept maxAge m (m.exec .sweeper rest (.sweep maxAge interval)).machine := by
  -- The sweeper can be about to sweep only with the age it was made for.
  have hstage := h.stage
  rw [codes, Function.update_self] at hstage
  cases hstage with
  | @sweeps d hd _ _ =>
    have hpos : 0 < max 1 d := by lia
    obtain ⟨m', n, he, hsweep, -, -⟩ := exec_sweep hpos hcut []
    -- The messages that have fallen take their registrations with them.
    obtain ⟨scopes, hreleases⟩ := Session.releases_sweep hf hsweep
    rw [he]
    refine ⟨rfl, Session.fresh_sweep hsweep, fun id hs hn => ?_⟩
    have hgone : m'.session.cache.message? id = none := hn
    have hfallen : ¬ Scope.Stands m'.session.cache (.message id) := by simp [Scope.Stands, hgone]
    exact hreleases.registrationsAt_fallen hs hfallen

/-- In virtual time, while the sweeper of a live session has anything to do: no message that is
cached has ever reached the maximum age and the time between two sweeps together, and a sweep
leaves no message that has reached the maximum age and no registration of a message that it drops.
-/
theorem age_lt {given : Value} {handlers : Option Handlers} {s : Session} {interval : Duration}
    {now : Instant} {scripts : List (Listener × List Action)} {settles : Bool} {code : List Instr}
    (hs : Session.create given handlers = .ok s) (hm : served s = .ok m)
    (hw : Sweeper.ofSettings s.settings = .ok w) (he : w.enabled = true) (hi : w.Every interval)
    (hfirst : Instant.first ≤ now) (hlast : m'.clock ≤ Instant.last)
    (h : Clocked Timely (m.opened now scripts settles code) m' due running) :
    (∀ msg ∈ Table.values m'.session.cache.messages,
        m'.clock - msg.createdAt < w.maxAge + interval) ∧
      ∀ maxAge pause rest, running = some (.sweeper, .sweep maxAge pause :: rest) →
        Timely m'.clock (.sweep maxAge pause) →
        maxAge = w.maxAge ∧
          Swept maxAge m' (m'.exec .sweeper rest (.sweep maxAge pause)).machine := by
  have hp := poised_opened hs hm hw now scripts settles code
  have hage := Sweeper.maxAge_pos he
  obtain ⟨last, -, hpaced⟩ := h.paced hp he
  constructor
  · intro msg hmsg
    have hfresh := hpaced.fresh msg hmsg
    have hafter := hpaced.after
    have hstage := hpaced.stage
    unfold Sweeper.Every at hi
    generalize m'.codes running .sweeper = code at hstage
    cases hstage with
    | begins hclock _ =>
      have hinterval : 0 < interval := by
        split at hi
        · lia
        · exact Int.lt_trans (by decide) hi
      lia
    | sweeps hd hclock _ =>
      simp only [hd] at hi
      lia
    | rests hd =>
      -- The whole of time is shorter than the interval.
      simp only [hd] at hi
      have hyoung := (h.lasts_poised hp).young msg hmsg
      have hnow : (m.opened now scripts settles code).clock = now := rfl
      lia
  · rintro maxAge pause rest rfl hcut
    obtain ⟨given, handlers, s₀, hcreate, hreach⟩ :=
      reachable_opened hs hm now scripts settles code
    have hreachable : m'.session.Reachable :=
      ⟨given, handlers, s₀, hcreate, Relation.ReflTransGen.trans hreach h.reaches⟩
    exact hpaced.swept hreachable.filed hcut

/-- A message that somebody watches is sixty seconds old when the sweeper comes for the first time,
whose maximum age is forty seconds. The sweep drops it and what is registered for it. -/
theorem age_lt_watched : ∃ (m m' : Machine) (code : List Instr) (w : Sweeper),
    Clocked Timely (m.opened 0 [] true code) m' []
        (some (.sweeper, [.sweep w.maxAge (60 * second)])) ∧
      (m'.session.cache.message? 6).map (fun msg => m'.clock - msg.createdAt) =
        some (60 * second) ∧
      m'.session.registry.registrationsAt (.message 6) ≠ [] ∧
      (∀ msg ∈ Table.values m'.session.cache.messages,
        m'.clock - msg.createdAt < w.maxAge + 60 * second) ∧
      Swept w.maxAge m' (m'.exec .sweeper [] (.sweep w.maxAge (60 * second))).machine := by
  let given : Fields := [(.text "cache", .map
    [(.text "message_max_age_seconds", .int 40), (.text "message_capacity", .int 1)])]
  let s : Session :=
    { settings := Settings.overlay Settings.defaults given
      cache := { capacity := 1 }
      handlers := .standard false }
  let w : Sweeper := ⟨40 * second, .ofDecimal false 60 0⟩
  let m : Machine := (still s.start).spawn .sweeper [.sweeper w]
  have hcreate : Session.create (.map given) none = .ok s := rfl
  have hmade : Sweeper.ofSettings s.settings = .ok w := eq_ok_of_toOption (by decide +kernel)
  have henabled : w.enabled = true := by decide +kernel
  have hpause : Duration.ofSeconds? w.interval = .ok (60 * second) :=
    eq_ok_of_toOption (by decide +kernel)
  have hevery : w.Every (60 * second) := by
    rw [Sweeper.Every, hpause]
    decide
  have hserved : served s = .ok m := by
    rw [served, hmade]
    rfl
  -- There is a channel, somebody watches a message in it, and then the message comes.
  let d : Fields := [(.text "id", .int 6), (.text "channel_id", .int 1),
    (.text "author", .map [(.text "id", .int 9)])]
  let v : Value := .map [(.text "t", .text "MESSAGE_CREATE"), (.text "d", .map d)]
  let n : Notice := .messageCreate 1 6 { id := 9 } "" []
  let e : Event := .messageCreate 1 none 6 (some 9) ""
  let watch := Registry.attach {} (.message 6) .reactionAdd "watcher"
  let s₁ : Session :=
    { s.start with
      cache := { s.cache with channels := [(1, ⟨1, "lobby", none⟩)] }
      registry := watch.2 }
  let s₂ : Session :=
    { s₁ with
      cache := { s₁.cache with
        users := [(9, { id := 9 })]
        messages := [(6, { id := 6, channel := 1, author := some 9 })] } }
  have hframe : s₁.acceptFrame 0 v = { session := s₂ } := by
    have hpacket : Packet.ofFrame v = .ok (some ⟨"MESSAGE_CREATE", d, none⟩) := rfl
    have hhandler : s₁.handlers.find? "MESSAGE_CREATE" = some (.topic .messageCreate) := rfl
    have hnotice : Notice.decode ⟨"MESSAGE_CREATE", d, none⟩ .messageCreate = .ok n := rfl
    have henter : s₁.enter 0 n = (s₂, none) := rfl
    have hevent : s₁.event? n = some e := rfl
    have hannounce : s₂.announce e = .ok s₂ := by
      have hnobody : s₂.listeners e = [] := by decide +kernel
      simp only [Session.announce, hnobody]
      rfl
    have htake : s₁.take 0 n = (s₂, none) := by
      simp only [Session.take, henter, hevent, hannounce]
      rfl
    simp only [Session.acceptFrame, hpacket, Session.acceptPacket, hhandler, Session.acceptTopic,
      hnotice, htake]
    rfl
  let code : List Instr :=
    [.perform (.put (.channel ⟨1, "lobby", none⟩)) .verdict,
      .perform (.listen .reactionAdd "watcher" (.message 6)) .verdict,
      .perform (.frame v) .verdict]
  let m₀ : Machine := m.opened 0 [] true code
  let m₁ : Machine :=
    { m₀ with session := s₁, issued := [(watch.1.id, watch.1)], ready := [] }
  let m₂ : Machine := { m₁ with session := s₂ }
  have hperform : m₁.exec .main [] (.perform (.frame v) .verdict) =
      .go m₂ [.answer (.flag true) .verdict] := by
    have hclock : m₁.session.acceptFrame m₁.clock v = { session := s₂ } := hframe
    simp only [exec, perform, performWith, hclock]
    rfl
  have hbegins : Clocked Timely m₀ _ _ (some (.main, code)) :=
    Clocked.start.gathers.enters (by simp) rfl
  have hchannel := (hbegins.goes rfl rfl).goes rfl rfl
  have hwatched : Clocked Timely m₀ m₁ [.sweeper] (some (.main, [.perform (.frame v) .verdict])) :=
    (hchannel.goes rfl rfl).goes rfl rfl
  have hmessage := ((hwatched.goes rfl hperform).goes rfl rfl).ends
  -- The sweeper begins and sleeps, and the time moves on.
  have hsweeper : Clocked Timely m₀ _ _ (some (.sweeper, [.sweeper w])) :=
    hmessage.enters (by simp) rfl
  have hstart (m : Machine) : m.exec .sweeper [] (.sweeper w) =
      .wait (m.sleepFor .sweeper (60 * second)) [.sweep w.maxAge (60 * second)] := by
    simp only [exec, startSweeper, henabled, hpause]
    rfl
  have hsleeps := hsweeper.waits rfl (hstart _)
  have hsweeps : Clocked Timely m₀ _ _ (some (.sweeper, [.sweep w.maxAge (60 * second)])) :=
    (hsleeps.ticks rfl rfl rfl).gathers.enters (by decide) rfl
  have hlast : 60 * second ≤ Instant.last := by decide
  obtain ⟨hage, hswept⟩ :=
    age_lt hcreate hserved hmade henabled hevery (by decide) hlast hsweeps
  exact ⟨m, _, code, w, hsweeps, by decide +kernel, by decide +kernel, hage,
    (hswept _ _ _ rfl ⟨_, rfl⟩).2⟩

end Scenario.Machine

end Switchboard
