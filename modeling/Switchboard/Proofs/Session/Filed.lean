import Switchboard.Proofs.Cache
import Switchboard.Proofs.Session.Change
import Switchboard.Proofs.Session.Frame

/-!
# The cache of a session stays filed

Whatever is done to a session, every entity stands under its own id (`Reachable.filed`).
-/

namespace Switchboard.Session

variable {s : Session}

/-- A call on the reactions of a message keeps the cache filed. -/
theorem filed_applyCall (h : s.cache.Filed) (id : Snowflake) (call : ReactionCall) :
    (s.applyCall id call).1.cache.Filed := by
  rcases s.applyCall_cases id call with hs | ⟨m, answer, m', -, -, hs⟩
  · rw [hs]
    exact h
  · rw [hs]
    exact h.updateMessage m'

/-- What a notice brings is filed. -/
theorem filed_enter (now : Instant) (h : s.cache.Filed) (n : Notice) :
    (s.enter now n).1.cache.Filed := by
  cases n with
  | reactionAdd c m u e => exact filed_applyCall h m _
  | reactionRemove c m u e => exact filed_applyCall h m _
  | reactionRemoveAll c m => exact filed_applyCall h m _
  | reactionRemoveEmoji c m e => exact filed_applyCall h m _
  | messageCreate c m author content reactions =>
    -- The message is kept only if its reactions can be put; the author is kept in any case.
    simp only [enter, receive]
    split
    · exact h.keepUser author
    · exact (h.keepUser author).keepMessage _
  | channelCreate ch => exact h.keepChannel ch
  | ready user channels => exact (h.keepUser user).keepChannels channels
  | serverCreate g channels => exact (h.keepServer g).keepChannels channels
  | messageDelete c m => exact h
  | channelDelete c => exact h
  | serverDelete g unavailable => exact h

/-- Releasing channels leaves the cache alone. -/
@[simp] theorem releaseChannels_cache (s : Session) (ids : List Snowflake) :
    (s.releaseChannels ids).cache = s.cache := by
  unfold releaseChannels
  induction ids generalizing s with
  | nil => rfl
  | cons id ids ih => exact ih _

/-- What is left after a notice has taken something away is filed. -/
theorem filed_leave (h : s.cache.Filed) (n : Notice) : (s.leave n).cache.Filed := by
  cases n with
  | messageDelete c m => exact h.dropMessage m
  | channelDelete c =>
    simp only [leave, releaseChannels_cache]
    exact h.dropChannel c
  | serverDelete g unavailable =>
    simp only [leave, releaseChannels_cache]
    exact h.dropServer g
  | _ => exact h

/-- Taking a notice keeps the cache filed. -/
theorem filed_take (now : Instant) (h : s.cache.Filed) (n : Notice) :
    (s.take now n).1.cache.Filed :=
  take_keeps (P := fun s => s.cache.Filed) now s n (fun _ _ h => h) (fun _ => filed_enter now h n)
    (fun _ h => filed_leave h n) h

/-- Handling a packet keeps the cache filed. -/
theorem filed_acceptPacket (now : Instant) (h : s.cache.Filed) (p : Packet) :
    (s.acceptPacket now p).session.cache.Filed := by
  rcases acceptPacket_session now s p with he | ⟨n, he⟩
  · rw [he]
    exact h
  · rw [he]
    exact filed_take now h n

/-- Handling a frame keeps the cache filed. -/
theorem filed_acceptFrame (now : Instant) (h : s.cache.Filed) (v : Value) :
    (s.acceptFrame now v).session.cache.Filed := by
  rcases acceptFrame_session now s v with he | ⟨n, he⟩
  · rw [he]
    exact h
  · rw [he]
    exact filed_take now h n

/-- A sweep keeps the cache filed. -/
theorem filed_sweep {s' : Session} (h : s.cache.Filed) {maxAge : Duration} {now : Instant} {n : Nat}
    (hs : s.sweep maxAge now = .ok (n, s')) : s'.cache.Filed := by
  obtain ⟨cutoff, -, rfl⟩ := sweep_eq hs
  exact h.dropUntil cutoff

/-- Whatever is done to a session keeps its cache filed. -/
theorem filed_reaches {s' : Session} (hr : s.Reaches s') (h : s.cache.Filed) : s'.cache.Filed := by
  -- A chain of calls keeps what each single call keeps.
  refine hr.keeps (P := fun s => s.cache.Filed) (fun s s' hc h => ?_) h
  cases hc with
  | frame now s v => exact filed_acceptFrame now h v
  | packet now s p => exact filed_acceptPacket now h p
  | sweep hs => exact filed_sweep h hs
  | keepServer s g => exact h.keepServer g
  | keepChannel s ch => exact h.keepChannel ch
  | keepUser s u => exact h.keepUser u
  | keepMessage s m => exact h.keepMessage m
  | dropServer s id => exact h.dropServer id
  | dropChannel s id => exact h.dropChannel id
  | dropMessage s id => exact h.dropMessage id
  | dropUntil s cutoff => exact h.dropUntil cutoff
  | capacity s n => exact h.withCapacity n
  | clear s => exact .empty _
  | call s id call => exact filed_applyCall h id call
  | close s => exact .empty _
  | _ => exact h

/-- A session begins with nothing cached, nothing registered and nothing to deliver. -/
theorem create_eq {given : Value} {handlers : Option Handlers}
    (h : create given handlers = .ok s) :
    ∃ settings capacity handlers, s = { settings, cache := { capacity }, handlers } := by
  unfold create at h
  obtain ⟨settings, -, h⟩ := bind_eq_ok.mp h
  obtain ⟨cache, -, h⟩ := bind_eq_ok.mp h
  obtain ⟨capacity, -, h⟩ := bind_eq_ok.mp h
  cases handlers with
  | some handlers => exact ⟨settings, capacity, handlers, (Except.ok.inj h).symm⟩
  | none =>
    obtain ⟨gateway, -, h⟩ := bind_eq_ok.mp h
    exact ⟨settings, capacity, _, (Except.ok.inj h).symm⟩

/-- A new session is filed. -/
theorem filed_create {given : Value} {handlers : Option Handlers}
    (h : create given handlers = .ok s) : s.cache.Filed := by
  obtain ⟨settings, capacity, handlers, rfl⟩ := create_eq h
  exact .empty capacity

/-- Every session that can come about is filed. -/
theorem Reachable.filed (h : s.Reachable) : s.cache.Filed := by
  obtain ⟨given, handlers, s₀, hc, hr⟩ := h
  exact filed_reaches hr (filed_create hc)

end Switchboard.Session
