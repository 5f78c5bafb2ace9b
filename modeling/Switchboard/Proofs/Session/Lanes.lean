import Switchboard.Proofs.Lanes
import Switchboard.Proofs.Session.Frame

/-!
# What a frame does to the lanes

A frame submits the event of its notice, if it gets that far, and nothing else in the handling of a
frame touches the lanes. A sweep leaves them alone.
-/

namespace Switchboard.Session

/-- Releasing registrations leaves the lanes alone. -/
@[simp] theorem releaseChannels_lanes (s : Session) (ids : List Snowflake) :
    (s.releaseChannels ids).lanes = s.lanes := by
  unfold releaseChannels
  induction ids generalizing s with
  | nil => rfl
  | cons id ids ih => exact ih _

/-- What enters the cache leaves the lanes alone. -/
@[simp] theorem enter_lanes (now : Instant) (s : Session) (n : Notice) :
    (s.enter now n).1.lanes = s.lanes := by
  have hcall (s : Session) (id : Snowflake) (call : ReactionCall) :
      (s.applyCall id call).1.lanes = s.lanes := by
    rcases s.applyCall_cases id call with h | ⟨m, answer, m', -, -, h⟩
    · rw [h]
    · rw [h]
  cases n with
  | messageCreate c m author content reactions =>
    simp only [enter, receive]
    split <;> rfl
  | _ => simp [enter, hcall]

/-- What leaves the cache leaves the lanes alone. -/
@[simp] theorem leave_lanes (s : Session) (n : Notice) : (s.leave n).lanes = s.lanes := by
  cases n <;> simp [leave]

/-- Taking a notice submits at most the job of its event. -/
theorem take_accepts (now : Instant) (s : Session) (n : Notice) :
    ∃ js, s.lanes.Accepts js (s.take now n).1.lanes := by
  have hstay {l : Lanes} (h : l = s.lanes) : ∃ js, s.lanes.Accepts js l := ⟨[], h ▸ .nil _⟩
  -- What enters does not touch the lanes; only the announcement does.
  have henter := enter_lanes now s n
  unfold take
  split
  · exact hstay rfl
  · split
    · rename_i s' f he
      exact hstay (by simpa [he] using henter)
    · rename_i s' he
      have hs' : s'.lanes = s.lanes := by simpa [he] using henter
      split
      · exact hstay (by simp [hs'])
      · rename_i e _
        split
        · exact hstay hs'
        · rename_i s'' ha
          obtain ⟨lanes, hsub, rfl⟩ := announce_eq ha
          rw [hs'] at hsub
          exact ⟨_, by simpa using Lanes.Accepts.one hsub⟩

/-- With lanes that are served taking a notice fails when it is heard and what it brings does not
enter, and in the same way. -/
theorem take_snd {s : Session} (hr : s.lanes.running = true) (now : Instant) (n : Notice) :
    (s.take now n).2 = if s.hears n then (s.enter now n).2 else none := by
  have hlanes := enter_lanes now s n
  unfold take
  cases s.hears n with
  | false => rfl
  | true =>
    cases he : s.enter now n with
    | mk s' failure =>
      rw [he] at hlanes
      cases failure with
      | some f => rfl
      | none =>
        dsimp only at hlanes ⊢
        cases s.event? n with
        | none => rfl
        | some e =>
          -- An event can be submitted.
          obtain ⟨lanes, hl⟩ :=
            Lanes.exists_submit (hlanes ▸ hr) e.server? ⟨.event e, s'.listeners e⟩
          have ha : s'.announce e = .ok { s' with lanes } := map_eq_ok.mpr ⟨lanes, hl, rfl⟩
          simp only [ha]
          rfl

/-- A notice that fails to enter changes nothing more. -/
theorem take_of_enter_failed {now : Instant} {s : Session} {n : Notice} (hheard : s.hears n = true)
    (h : (s.enter now n).2 ≠ none) : s.take now n = s.enter now n := by
  obtain ⟨f, hf⟩ := Option.ne_none_iff_exists'.mp h
  have he : s.enter now n = ((s.enter now n).1, some f) := Prod.ext rfl hf
  simp only [take, hheard, Bool.not_true, Bool.false_eq_true, if_false]
  rw [he]

/-- With lanes that are served a notice that fails has been heard, and it has failed to enter. -/
theorem take_failed {now : Instant} {s : Session} {n : Notice} {f : Failure}
    (hr : s.lanes.running = true) (h : (s.take now n).2 = some f) :
    s.hears n = true ∧ s.take now n = s.enter now n := by
  rw [take_snd hr] at h
  split at h
  · rename_i hheard
    exact ⟨hheard, take_of_enter_failed hheard (by rw [h]; exact Option.some_ne_none f)⟩
  · cases h

/-- A notice that is heard and does not fail enters, submits the job of its event, if it has one,
and leaves. -/
theorem take_heard {now : Instant} {s : Session} {n : Notice} (hheard : s.hears n = true)
    (h : (s.take now n).2 = none) :
    ∃ lanes, (s.take now n).1 = leave { (s.enter now n).1 with lanes } n ∧
      match s.event? n with
      | none => lanes = s.lanes
      | some e =>
        s.lanes.submit e.server? ⟨.event e, (s.enter now n).1.listeners e⟩ = .ok lanes := by
  have hlanes := enter_lanes now s n
  unfold take at h ⊢
  rw [hheard] at h ⊢
  cases he : s.enter now n with
  | mk s' failure =>
    rw [he] at h hlanes
    cases failure with
    | some f => cases h
    | none =>
      dsimp only at h hlanes ⊢
      -- A notice without an event submits nothing.
      cases hevent : s.event? n with
      | none => exact ⟨s.lanes, by rw [← hlanes]; rfl, rfl⟩
      | some e =>
        rw [hevent] at h
        dsimp only at h ⊢
        -- The event has been announced, as nothing has failed.
        cases ha : s'.announce e with
        | error f =>
          rw [ha] at h
          cases h
        | ok s'' =>
          obtain ⟨lanes, hsub, rfl⟩ := announce_eq ha
          exact ⟨lanes, rfl, hlanes ▸ hsub⟩

/-- Handling a packet submits at most one job. -/
theorem acceptPacket_accepts (now : Instant) (s : Session) (p : Packet) :
    ∃ js, s.lanes.Accepts js (s.acceptPacket now p).session.lanes := by
  rcases acceptPacket_session now s p with h | ⟨n, h⟩
  · rw [h]
    exact ⟨[], .nil _⟩
  · rw [h]
    exact take_accepts now s n

/-- Handling a frame submits at most one job. -/
theorem acceptFrame_accepts (now : Instant) (s : Session) (v : Value) :
    ∃ js, s.lanes.Accepts js (s.acceptFrame now v).session.lanes := by
  rcases acceptFrame_session now s v with h | ⟨n, h⟩
  · rw [h]
    exact ⟨[], .nil _⟩
  · rw [h]
    exact take_accepts now s n

/-- A sweep leaves the lanes alone. -/
theorem sweep_lanes {s s' : Session} {maxAge : Duration} {now : Instant} {n : Nat}
    (h : s.sweep maxAge now = .ok (n, s')) : s'.lanes = s.lanes := by
  obtain ⟨cutoff, -, rfl⟩ := sweep_eq h
  rfl

end Switchboard.Session
