import Switchboard.Proofs.Lanes.Happening
import Switchboard.Proofs.Scenario.Instruction

/-!
# Runs of the threads, in any order

`History` says how a machine can have come about and what has happened in its lanes on the way: any
thread is run until it waits, or a job is submitted from outside, or something happens that leaves
the lanes and their threads alone. The order is free, so a history covers every way in which drains,
listeners and submissions can interleave. The runs of the machine itself, which has an order of its
own, are among them (`history_run`).
-/

namespace Switchboard.Scenario.Machine

/-- What comes to an end in a thread when some code is left in it: in the thread of a lane the call
under way, if nothing but the drain is left. -/
def endOf : ThreadId → List Instr → List Happening
  | .lane root, code => if code.all isDrain then [.ended root] else []
  | _, _ => []

/-- What happens in the lanes when a thread of a machine runs an instruction. -/
inductive Tells (id : ThreadId) (m : Machine) (flow : Flow) : Instr → List Happening → Prop
  /-- A drain calls a listener. -/
  | call {root : Root} {l : Listener} {s : Signal} {lanes : Lanes}
      (h : m.session.lanes.advance root = some (.call l s, lanes)) :
      Tells id m flow (.drain root) (.started root l s :: endOf id flow.code)
  /-- A drain does something else. -/
  | pause {root : Root}
      (h : ∀ l s lanes, m.session.lanes.advance root ≠ some (.call l s, lanes)) :
      Tells id m flow (.drain root) []
  /-- Any other instruction may submit jobs, and may be the last one of a listener. -/
  | work {i : Instr} {js : List (Root × Job)} (hi : isDrain i = false)
      (h : m.session.lanes.Accepts js flow.machine.session.lanes) :
      Tells id m flow i ((js.map fun j => .accepted j.1 j.2) ++ endOf id flow.code)

/-- What has happened in the lanes since a machine was another one, and which thread is running,
with what it has still to run. -/
inductive History (m₀ : Machine) : List Happening → Machine → Option (ThreadId × List Instr) → Prop
  | nil : History m₀ [] m₀ none
  /-- One of the threads is run. -/
  | enters {hs : List Happening} {m : Machine} {id : ThreadId} {code : List Instr}
      (h : History m₀ hs m none) (hid : Table.find? id m.threads = some code) :
      History m₀ hs m (some (id, code))
  /-- The thread that is running goes on. -/
  | goes {hs hs' : List Happening} {m m' : Machine} {id : ThreadId} {i : Instr}
      {code code' : List Instr} (h : History m₀ hs m (some (id, i :: code)))
      (he : m.exec id code i = .go m' code') (ht : Tells id m (.go m' code') i hs') :
      History m₀ (hs ++ hs') m' (some (id, code'))
  /-- The thread that is running comes to wait. -/
  | waits {hs hs' : List Happening} {m m' : Machine} {id : ThreadId} {i : Instr}
      {code code' : List Instr} (h : History m₀ hs m (some (id, i :: code)))
      (he : m.exec id code i = .wait m' code') (ht : Tells id m (.wait m' code') i hs') :
      History m₀ (hs ++ hs') { m' with threads := Table.put id code' m'.threads } none
  /-- The thread that is running ends. -/
  | ends {hs : List Happening} {m : Machine} {id : ThreadId}
      (h : History m₀ hs m (some (id, []))) :
      History m₀ hs { m with threads := Table.drop id m.threads } none
  /-- A job is submitted. -/
  | submits {hs : List Happening} {m : Machine} {root : Root} {job : Job} {lanes : Lanes}
      (h : History m₀ hs m none) (hl : m.session.lanes.submit root job = .ok lanes) :
      History m₀ (hs ++ [.accepted root job]) (m.withSession { m.session with lanes }) none
  /-- Whatever else happens leaves the lanes and their threads alone and starts no drain. -/
  | outside {hs : List Happening} {m m' : Machine} (h : History m₀ hs m none)
      (hl : m'.session.lanes = m.session.lanes)
      (hc : ∀ root, m'.codeOf (.lane root) = m.codeOf (.lane root))
      (ho : ∀ id, (∀ root, id ≠ .lane root) → DrainFree (m.codeOf id) → DrainFree (m'.codeOf id)) :
      History m₀ hs m' none

/-! ## The machine's own runs -/

/-- Whatever instruction a thread runs, something happens or nothing. -/
theorem exists_tells (m : Machine) (id : ThreadId) (code : List Instr) (i : Instr) :
    ∃ hs, Tells id m (m.exec id code i) i hs := by
  cases hi : isDrain i with
  | false =>
    obtain ⟨js, hjs⟩ := (submits_exec m id code hi).accepts
    exact ⟨_, .work hi hjs⟩
  | true =>
    obtain ⟨root, rfl⟩ : ∃ root, i = .drain root := by
      cases i <;> simp_all [isDrain]
    by_cases h : ∃ l s lanes, m.session.lanes.advance root = some (.call l s, lanes)
    · obtain ⟨l, s, lanes, h⟩ := h
      exact ⟨_, .call h⟩
    · exact ⟨_, .pause fun l s lanes h' => h ⟨l, s, lanes, h'⟩⟩

/-- A thread that is running can run until it waits or ends, and then it does what the machine lets
it do, unless that is given up. -/
theorem history_runThread {m₀ m : Machine} {hs : List Happening} {id : ThreadId}
    {code : List Instr} (h : History m₀ hs m (some (id, code))) (fuel : Nat)
    (hf : 0 < (runThread id fuel m code).1) :
    ∃ hs', History m₀ (hs ++ hs') (runThread id fuel m code).2 none := by
  -- The happenings of the first instruction come before those of the rest.
  induction fuel generalizing m code hs with
  | zero => simp [runThread] at hf
  | succ fuel ih =>
    cases code with
    | nil => exact ⟨[], by simpa [runThread] using h.ends⟩
    | cons i code =>
      obtain ⟨hs', ht⟩ := exists_tells m id code i
      simp only [runThread] at hf ⊢
      cases he : m.exec id code i with
      | wait m' code' => exact ⟨hs', h.waits he (he ▸ ht)⟩
      | go m' code' =>
        rw [he] at hf
        obtain ⟨hs'', hrest⟩ := ih (h.goes he (he ▸ ht)) hf
        exact ⟨hs' ++ hs'', by rwa [← List.append_assoc]⟩

/-- What the machine does in a round can happen, unless the run is given up. -/
theorem history_round {m₀ m : Machine} {hs : List Happening} (h : History m₀ hs m none) (fuel : Nat)
    (ids : List ThreadId) (hf : 0 < (round fuel m ids).1) :
    ∃ hs', History m₀ (hs ++ hs') (round fuel m ids).2 none := by
  induction ids generalizing fuel m hs with
  | nil => exact ⟨[], by simpa [round] using h⟩
  | cons id ids ih =>
    -- A thread that has ended meanwhile is passed over; the others run one after another.
    cases hid : Table.find? id m.threads with
    | none =>
      rw [round_skip hid] at hf ⊢
      exact ih h fuel hf
    | some code =>
      rw [round_enter hid] at hf ⊢
      obtain ⟨hs', hturn⟩ := history_runThread (h.enters hid) fuel (fuel_left hf)
      obtain ⟨hs'', hrest⟩ := ih hturn _ hf
      exact ⟨hs' ++ hs'', by rwa [← List.append_assoc]⟩

/-- What changes neither the lanes nor the threads can happen. -/
theorem History.same {m₀ m m' : Machine} {hs : List Happening} (h : History m₀ hs m none)
    (hl : m'.session.lanes = m.session.lanes) (ht : m'.threads = m.threads) :
    History m₀ hs m' none :=
  h.outside hl (fun _ => by simp only [codeOf, ht]) fun _ _ hd => by
    simpa only [codeOf, ht] using hd

/-- What the machine does until the scenario has come to its end can happen, unless the run is given
up within a round. -/
theorem history_run {m₀ m : Machine} {hs : List Happening} (h : History m₀ hs m none)
    (rounds fuel : Nat) :
    (∃ hs', History m₀ (hs ++ hs') (run rounds fuel m) none) ∨
      ∃ hs' m₁ fuel₁, History m₀ (hs ++ hs') m₁ none ∧
        round fuel₁ { m₁ with ready := [] } m₁.ready = (0, run rounds fuel m) := by
  induction rounds generalizing fuel m hs with
  | zero => exact .inl ⟨[], by simpa [run] using h⟩
  | succ rounds ih =>
    unfold run
    split
    · exact .inl ⟨[], by simpa using h⟩
    · split
      · -- A round is run: either the instructions run out in it, or the machine goes on after it.
        rcases hround : round fuel { m with ready := [] } m.ready with ⟨left, m'⟩
        dsimp only
        rcases Nat.eq_zero_or_pos left with rfl | hleft
        · rw [run_spent]
          exact .inr ⟨[], m, fuel, by simpa using h, hround⟩
        · have hm : History m₀ hs { m with ready := [] } none := h.same rfl rfl
          obtain ⟨hs', hrest⟩ := history_round hm fuel m.ready (by rw [hround]; exact hleft)
          rw [hround] at hrest
          rcases ih hrest left with ⟨hs'', hr⟩ | ⟨hs'', m₁, fuel₁, hr, hf⟩
          · exact .inl ⟨hs' ++ hs'', by rwa [← List.append_assoc]⟩
          · exact .inr ⟨hs' ++ hs'', m₁, fuel₁, by rwa [← List.append_assoc], hf⟩
      · -- Nothing is ready: the patient threads are woken, or the time moves on.
        split
        · refine ih (h.same ?_ ?_) fuel <;> rfl
        · split
          · rename_i m' ht
            obtain ⟨hsession, hthreads⟩ := tick?_same ht
            exact ih (h.same (by rw [hsession]) hthreads) fuel
          · exact .inl ⟨[], by simpa using h⟩

end Switchboard.Scenario.Machine
