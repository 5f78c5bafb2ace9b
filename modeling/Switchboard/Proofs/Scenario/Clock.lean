import Switchboard.Proofs.Scenario.Change
import Switchboard.Proofs.Scenario.Effect

/-!
# Runs in virtual time

`Clocked` says how a machine can have come about with its clock: the threads that are ready are run
one at a time in any order, each until it waits or ends, and only when nothing is left to run does
the time move on, to the next instant at which a thread wakes. The runs of the machine itself, which
has an order of its own, are among them (`clocked_run`). When messages enter by packets only, the
clock never goes back and no message entered before the beginning (`Clocked.lasts`).
-/

namespace Switchboard.Scenario.Machine

/-- The step puts no message into the cache by itself. -/
abbrev packetsOnly (s : Step) : Bool := !s.putsMessage

/-- The instruction puts no message into the cache but by a packet, and if it is a sweep of the
sweeper its cutoff is an instant. -/
def Timely (now : Instant) : Instr → Prop
  | .sweep maxAge _ => ∃ cutoff, now.before? maxAge = .ok cutoff
  | i => i.keepsTo packetsOnly = true

/-- What a machine has become in virtual time, with the threads whose turn it is, and with the one
that is running and what it has still to run. In the beginning it is the turn of the main thread.
What instructions are run, and when, is restricted by a predicate. -/
inductive Clocked (ok : Instant → Instr → Prop) (m₀ : Machine) :
    Machine → List ThreadId → Option (ThreadId × List Instr) → Prop
  | start : Clocked ok m₀ m₀ [.main] none
  /-- It is the turn of all threads that are ready. -/
  | gathers {m : Machine} {due : List ThreadId} (h : Clocked ok m₀ m due none) :
      Clocked ok m₀ { m with ready := [] } (due ++ m.ready) none
  /-- One of the threads whose turn it is runs. -/
  | enters {m : Machine} {due : List ThreadId} {id : ThreadId} {code : List Instr}
      (h : Clocked ok m₀ m due none) (hid : id ∈ due)
      (hc : Table.find? id m.threads = some code) :
      Clocked ok m₀ m (due.erase id) (some (id, code))
  /-- One of the threads whose turn it is has ended. -/
  | skips {m : Machine} {due : List ThreadId} {id : ThreadId} (h : Clocked ok m₀ m due none)
      (hid : id ∈ due) (hc : Table.find? id m.threads = none) :
      Clocked ok m₀ m (due.erase id) none
  /-- The thread that is running goes on. -/
  | goes {m m' : Machine} {due : List ThreadId} {id : ThreadId} {i : Instr}
      {code code' : List Instr} (h : Clocked ok m₀ m due (some (id, i :: code)))
      (hi : ok m.clock i) (he : m.exec id code i = .go m' code') :
      Clocked ok m₀ m' due (some (id, code'))
  /-- The thread that is running comes to wait. -/
  | waits {m m' : Machine} {due : List ThreadId} {id : ThreadId} {i : Instr}
      {code code' : List Instr} (h : Clocked ok m₀ m due (some (id, i :: code)))
      (hi : ok m.clock i) (he : m.exec id code i = .wait m' code') :
      Clocked ok m₀ { m' with threads := Table.put id code' m'.threads } due none
  /-- The thread that is running ends. -/
  | ends {m : Machine} {due : List ThreadId} {id : ThreadId}
      (h : Clocked ok m₀ m due (some (id, []))) :
      Clocked ok m₀ { m with threads := Table.drop id m.threads } due none
  /-- Nothing is left to run, and those who waited for that go on. -/
  | lulls {m : Machine} (h : Clocked ok m₀ m [] none) (hr : m.ready = []) :
      Clocked ok m₀ { m.wake m.patient with patient := [] } [] none
  /-- Everything waits, and the time moves on. -/
  | ticks {m m' : Machine} (h : Clocked ok m₀ m [] none) (hr : m.ready = [])
      (hp : m.patient = []) (ht : m.tick? = some m') : Clocked ok m₀ m' [] none

/-! ## The machine's own runs -/

section

variable {ok : Instant → Instr → Prop} (hok : ∀ now i, ok now i)

include hok

/-- A thread that is running runs in virtual time, unless the run is given up. -/
theorem clocked_runThread {m₀ m : Machine} {due : List ThreadId} {id : ThreadId}
    {code : List Instr} (h : Clocked ok m₀ m due (some (id, code))) (fuel : Nat)
    (hf : 0 < (runThread id fuel m code).1) :
    Clocked ok m₀ (runThread id fuel m code).2 due none := by
  -- A thread goes on until it has to wait or ends, as long as there is fuel.
  induction fuel generalizing m code with
  | zero => simp [runThread] at hf
  | succ fuel ih =>
    cases code with
    | nil => exact h.ends
    | cons i code =>
      simp only [runThread] at hf ⊢
      cases he : m.exec id code i with
      | wait m' code' => exact h.waits (hok _ _) he
      | go m' code' =>
        rw [he] at hf
        exact ih (h.goes (hok _ _) he) hf

/-- A round takes the threads in the order in which they became ready. -/
theorem clocked_round {m₀ m : Machine} {ids : List ThreadId} (h : Clocked ok m₀ m ids none)
    (fuel : Nat) (hf : 0 < (round fuel m ids).1) : Clocked ok m₀ (round fuel m ids).2 [] none := by
  -- The thread that comes first has ended meanwhile, or is entered.
  induction ids generalizing fuel m with
  | nil => simpa [round] using h
  | cons id ids ih =>
    have hrest : (id :: ids).erase id = ids := List.erase_cons_head ..
    cases hid : Table.find? id m.threads with
    | none =>
      have hskips := h.skips List.mem_cons_self hid
      rw [hrest] at hskips
      rw [round_skip hid] at hf ⊢
      exact ih hskips fuel hf
    | some code =>
      have henters := h.enters List.mem_cons_self hid
      rw [hrest] at henters
      rw [round_enter hid] at hf ⊢
      exact ih (clocked_runThread hok henters fuel (fuel_left hf)) _ hf

/-- What the machine does until the scenario has come to its end happens in virtual time, unless the
run is given up within a round. -/
theorem clocked_run {m₀ m : Machine} (h : Clocked ok m₀ m [] none) (rounds fuel : Nat) :
    Clocked ok m₀ (run rounds fuel m) [] none ∨
      ∃ m₁ fuel₁, Clocked ok m₀ m₁ [] none ∧
        round fuel₁ { m₁ with ready := [] } m₁.ready = (0, run rounds fuel m) := by
  -- Each case of the run is a step of virtual time: a round, a lull or a tick.
  induction rounds generalizing fuel m with
  | zero => exact .inl h
  | succ rounds ih =>
    unfold run
    split
    · exact .inl h
    · split
      · rcases hround : round fuel { m with ready := [] } m.ready with ⟨left, m'⟩
        dsimp only
        -- Without fuel the round is given up, and the run with it.
        rcases Nat.eq_zero_or_pos left with rfl | hleft
        · rw [run_spent]
          exact .inr ⟨m, fuel, h, hround⟩
        · have hgathers : Clocked ok m₀ { m with ready := [] } m.ready none := h.gathers
          have hturn := clocked_round hok hgathers fuel (by rw [hround]; exact hleft)
          rw [hround] at hturn
          exact ih hturn left
      · rename_i hready
        split
        · exact ih (h.lulls hready) fuel
        · rename_i hpatient
          split
          · rename_i m' ht
            exact ih (h.ticks hready hpatient ht) fuel
          · exact .inl h

end

/-! ## Time that moves on -/

/-- What happens when the time moves on. -/
structure Tick (m m' : Machine) : Prop where
  /-- Somebody sleeps until then. -/
  reached : ∃ e ∈ m.sleepers, e.1 = m'.clock
  /-- Nobody sleeps until an earlier instant. -/
  next : ∀ e ∈ m.sleepers, m'.clock ≤ e.1
  /-- Those who sleep are woken or sleep on. -/
  woken : ∀ e ∈ m.sleepers, e ∈ m'.sleepers ∨ e.2 ∈ m'.ready
  /-- Nobody else sleeps. -/
  sleepers : ∀ e ∈ m'.sleepers, e ∈ m.sleepers
  session : m'.session = m.session
  threads : m'.threads = m.threads
  observers : m'.observers = m.observers

/-- The time moves on to the first instant at which a thread wakes. -/
theorem tick_of_tick? {m m' : Machine} (h : m.tick? = some m') : Tick m m' := by
  obtain ⟨hsession, hthreads⟩ := tick?_same h
  unfold tick? at h
  split at h
  · cases h
  · rename_i t ts htimes
    -- The instant is the least of those until which threads sleep.
    have hmin : (m.sleepers.map Prod.fst).min? = some (ts.foldl min t) := by
      rw [htimes, List.min?_cons']
    obtain ⟨hmem, hle⟩ := List.min?_eq_some_iff.mp hmin
    obtain ⟨e, he, hfirst⟩ := List.mem_map.mp hmem
    have hparts (e : Instant × ThreadId) (he : e ∈ m.sleepers) :
        e ∈ (m.sleepers.partition (·.1 ≤ ts.foldl min t)).1 ∨
          e ∈ (m.sleepers.partition (·.1 ≤ ts.foldl min t)).2 := by
      simp only [List.partition_eq_filter_filter, List.mem_filter]
      by_cases hdue : e.1 ≤ ts.foldl min t
      · exact .inl ⟨he, by simpa using hdue⟩
      · exact .inr ⟨he, by simpa using hdue⟩
    have hrest (e : Instant × ThreadId)
        (he : e ∈ (m.sleepers.partition (·.1 ≤ ts.foldl min t)).2) : e ∈ m.sleepers := by
      rw [List.partition_eq_filter_filter] at he
      exact List.mem_of_mem_filter he
    cases h
    refine ⟨⟨e, he, hfirst⟩, fun e he => hle e.1 (List.mem_map_of_mem he), fun e he => ?_, hrest,
      hsession, hthreads, rfl⟩
    refine (hparts e he).symm.imp id fun hdue => ?_
    exact List.mem_append_right _ (List.mem_map_of_mem hdue)

namespace Clocked

variable {ok : Instant → Instr → Prop} {m₀ m : Machine} {due : List ThreadId}
  {running : Option (ThreadId × List Instr)}

/-- What the threads do in virtual time changes the session in the listed ways. -/
theorem reaches (h : Clocked ok m₀ m due running) : Reaches m₀ m := by
  -- Only instructions change the session.
  induction h with
  | start => exact .of_same rfl
  | gathers _ ih => exact ih
  | enters _ _ _ ih => exact ih
  | skips _ _ _ ih => exact ih
  | @goes m m' due id i code code' _ _ he ih =>
    have hexec := reaches_exec m id code i
    rw [he] at hexec
    exact ih.trans hexec
  | @waits m m' due id i code code' _ _ he ih =>
    have hexec := reaches_exec m id code i
    rw [he] at hexec
    exact ih.trans hexec
  | ends _ ih => exact ih
  | lulls _ _ ih => exact ih
  | ticks _ _ _ ht ih => exact ih.trans (.of_same (tick?_same ht).1)

/-- An instruction that is run carries the machine on. -/
theorem onward {m m' : Machine} {id : ThreadId} {i : Instr} {code : List Instr} {flow : Flow}
    (ho : m.Only packetsOnly) (hi : Timely m.clock i) (he : m.exec id code i = flow)
    (hm : flow.machine = m') : Onward packetsOnly m m' := by
  have hkeeps : i.keepsTo packetsOnly = true := by
    cases i with
    | sweep maxAge interval => rfl
    | _ => exact hi
  rw [← hm, ← he]
  exact (effects_exec (fun s hs => by simpa using hs) ho id code hkeeps).onward

/-- What lasts from the beginning on. -/
structure Lasts (m₀ m : Machine) : Prop where
  /-- The clock never goes back. -/
  later : m₀.clock ≤ m.clock
  /-- Nobody sleeps until an instant that has passed. -/
  future : ∀ e ∈ m.sleepers, m.clock ≤ e.1
  only : m.Only packetsOnly
  /-- No message entered before the beginning. -/
  young : ∀ msg ∈ Table.values m.session.cache.messages, m₀.clock ≤ msg.createdAt

/-- What lasts goes on to last when a machine is carried on. -/
theorem Lasts.onward (h : Lasts m₀ m) {m' : Machine} (ho : Onward packetsOnly m m') :
    Lasts m₀ m' where
  later := ho.clock ▸ h.later
  future := ho.future h.future
  only := ho.only h.only
  young msg hmsg := by
    rcases ho.dated msg hmsg with hnow | ⟨old, hold, htime⟩
    · exact hnow ▸ h.later
    · exact htime ▸ h.young old hold

/-- When nobody sleeps in the beginning and no message is cached, then in virtual time the clock
never goes back and no message entered before the beginning. -/
theorem lasts (h : Clocked Timely m₀ m due running) (hs : m₀.sleepers = [])
    (ho : m₀.Only packetsOnly) (hm : m₀.session.cache.messages = []) : Lasts m₀ m := by
  -- The clock goes on in ticks only; instructions keep to the time that it shows.
  induction h with
  | start =>
    exact ⟨Int.le_refl _, by simp [hs], ho, by simp [hm, Table.values]⟩
  | gathers _ ih => exact ⟨ih.later, ih.future, ih.only, ih.young⟩
  | enters _ _ _ ih => exact ih
  | skips _ _ _ ih => exact ih
  | goes _ hi he ih => exact ih.onward (onward ih.only hi he rfl)
  | waits _ hi he ih =>
    have hrest := ih.onward (onward ih.only hi he rfl)
    exact ⟨hrest.later, hrest.future, hrest.only, hrest.young⟩
  | ends _ ih => exact ⟨ih.later, ih.future, ih.only, ih.young⟩
  | lulls _ _ ih => exact ⟨ih.later, ih.future, ih.only, ih.young⟩
  | ticks _ _ _ ht ih =>
    -- The tick goes to the first time at which somebody wakes, which is not in the past.
    have htick := tick_of_tick? ht
    obtain ⟨e, he, htime⟩ := htick.reached
    refine ⟨?_, fun e he => htick.next e (htick.sleepers e he), ?_, ?_⟩
    · exact Int.le_trans ih.later (htime ▸ ih.future e he)
    · rw [Only, htick.observers]
      exact ih.only
    · rw [htick.session]
      exact ih.young

end Clocked

end Switchboard.Scenario.Machine
