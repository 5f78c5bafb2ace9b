import Switchboard.Proofs.Attempt
import Switchboard.Session.Frame
import Switchboard.Sweep

/-!
# Which session a frame or a sweep leads to

Frames and packets change a session only by taking a notice (`acceptFrame_session`), and a notice
changes it only by what enters, by the job of its event, and by what leaves (`take_keeps`). A sweep
drops the messages up to a cutoff (`sweep_eq`).
-/

namespace Switchboard.Session

/-- Closing the handling of a packet leaves the session alone. -/
@[simp] theorem conclude_session (s : Session) (p : Packet) (logs : List LogRecord)
    (f : Option Failure) : (s.conclude p logs f).session = s := by
  cases f <;> rfl

/-- A packet leaves the session alone or is a notice that is taken. -/
theorem acceptPacket_session (now : Instant) (s : Session) (p : Packet) :
    (s.acceptPacket now p).session = s ∨
      ∃ n, (s.acceptPacket now p).session = (s.take now n).1 := by
  unfold acceptPacket
  split
  · exact .inl (conclude_session ..)
  · unfold acceptTopic
    split
    · exact .inl (conclude_session ..)
    · rename_i n _
      exact .inr ⟨n, conclude_session ..⟩
  · exact .inl (conclude_session ..)

/-- A frame leaves the session alone or is a notice that is taken. -/
theorem acceptFrame_session (now : Instant) (s : Session) (v : Value) :
    (s.acceptFrame now v).session = s ∨
      ∃ n, (s.acceptFrame now v).session = (s.take now n).1 := by
  unfold acceptFrame
  split
  · exact .inl rfl
  · exact .inl rfl
  · exact acceptPacket_session now s _

/-- A call on the reactions of a message changes nothing, or it changes the message in its place. -/
theorem applyCall_cases (s : Session) (id : Snowflake) (call : ReactionCall) :
    (s.applyCall id call).1 = s ∨
      ∃ m answer m', s.cache.message? id = some m ∧ m.perform call = .ok (answer, m') ∧
        (s.applyCall id call).1 = { s with cache := s.cache.updateMessage m' } := by
  unfold applyCall
  split
  · exact .inl rfl
  · rename_i m hm
    split
    · exact .inl rfl
    · rename_i answer m' hp
      exact .inr ⟨m, answer, m', hm, hp, rfl⟩

/-- Announcing an event submits its job and changes nothing else. -/
theorem announce_eq {s s' : Session} {e : Event} (h : s.announce e = .ok s') :
    ∃ lanes, s.lanes.submit e.server? ⟨.event e, s.listeners e⟩ = .ok lanes ∧
      s' = { s with lanes } := by
  obtain ⟨lanes, hl, rfl⟩ := map_eq_ok.mp h
  exact ⟨lanes, hl, rfl⟩

/-- What holds of a session still holds after a notice is taken, if what enters and what leaves keep
it and the lanes do not matter to it. -/
theorem take_keeps {P : Session → Prop} (now : Instant) (s : Session) (n : Notice)
    (hlanes : ∀ s lanes, P s → P { s with lanes })
    (henter : s.hears n = true → P (s.enter now n).1)
    (hleave : ∀ s', P s' → P (s'.leave n)) (h : P s) : P (s.take now n).1 := by
  unfold take
  split
  · exact h
  · rename_i hheard
    -- The notice enters, is announced if it has an event, and then leaves.
    have henter := henter (by simpa using hheard)
    cases he : s.enter now n with
    | mk s' failure =>
      rw [he] at henter
      cases failure with
      | some f => exact henter
      | none =>
        dsimp only
        split
        · exact hleave s' henter
        · split
          · exact henter
          · rename_i s'' ha
            obtain ⟨lanes, -, rfl⟩ := announce_eq ha
            exact hleave _ (hlanes s' lanes henter)

/-- A sweep that succeeds drops the messages up to its cutoff, with their registrations. -/
theorem sweep_eq {s s' : Session} {maxAge : Duration} {now : Instant} {n : Nat}
    (h : s.sweep maxAge now = .ok (n, s')) :
    ∃ cutoff, now.before? maxAge = .ok cutoff ∧
      s' = releaseMessages { s with cache := (s.cache.dropUntil cutoff).2 }
        (s.cache.dropUntil cutoff).1 := by
  obtain ⟨⟨gone, cache⟩, hd, hs⟩ := bind_eq_ok.mp h
  obtain ⟨cutoff, hb, he⟩ := map_eq_ok.mp hd
  refine ⟨cutoff, hb, ?_⟩
  rw [he]
  exact (congrArg Prod.snd (Except.ok.inj hs)).symm

end Switchboard.Session
