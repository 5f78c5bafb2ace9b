import Switchboard.Proofs.Message
import Switchboard.Proofs.Session.Filed

/-!
# When messages entered

Nothing that is done to a session dates a message back or forth: what comes in and what a sweep
leaves entered now, or when it entered before (`Cache.Dated`). So it is for packets
(`dated_acceptPacket`), frames (`dated_acceptFrame`) and sweeps (`dated_sweep`).
-/

namespace Switchboard

namespace Cache

/-- Every message of the second cache entered now, or at the same time as one of the first cache. -/
def Dated (now : Instant) (c c' : Cache) : Prop :=
  ∀ m' ∈ Table.values c'.messages,
    m'.createdAt = now ∨ ∃ m ∈ Table.values c.messages, m.createdAt = m'.createdAt

namespace Dated

variable {c c' c'' : Cache} {now : Instant}

/-- Messages are left as they are, or some of them go. -/
theorem of_sublist (h : c'.messages.Sublist c.messages) : Dated now c c' :=
  fun m' hm' => .inr ⟨m', (h.map Prod.snd).subset hm', rfl⟩

/-- Messages are left as they are. -/
theorem of_same (h : c'.messages = c.messages) : Dated now c c' :=
  .of_sublist (h ▸ .refl _)

/-- One change comes after another at the same time. -/
theorem trans (h : Dated now c c') (h' : Dated now c' c'') : Dated now c c'' := fun m'' hm'' => by
  rcases h' m'' hm'' with hnow | ⟨m', hm', htime⟩
  · exact .inl hnow
  · rcases h m' hm' with hnow | ⟨m, hm, htime'⟩
    · exact .inl (htime ▸ hnow)
    · exact .inr ⟨m, hm, htime'.trans htime⟩

/-- A message that enters now is kept. -/
theorem keepMessage (c : Cache) {m : Message} (hm : m.createdAt = now) :
    Dated now c (c.keepMessage m).2 := by
  rcases c.keepMessage_cases m with ⟨-, he⟩ | ⟨n, -, -, he⟩
  · rw [he]
    exact .of_same rfl
  · rw [he]
    intro m' hm'
    obtain ⟨e, he, rfl⟩ := List.mem_map.mp hm'
    rcases List.mem_append.mp (List.mem_of_mem_drop he) with he | he
    · exact .inr ⟨e.2, List.mem_map_of_mem (List.mem_of_mem_filter he), rfl⟩
    · rw [List.mem_singleton.mp he]
      exact .inl hm

/-- A message is changed that entered when it did. -/
theorem updateMessage {m m' : Message} (hm : m ∈ Table.values c.messages)
    (htime : m'.createdAt = m.createdAt) : Dated now c (c.updateMessage m') := fun m'' hm'' => by
  obtain ⟨e, he, rfl⟩ := List.mem_map.mp hm''
  rcases Table.mem_of_mem_put he with rfl | he
  · exact .inr ⟨m, hm, htime.symm⟩
  · exact .inr ⟨e.2, List.mem_map_of_mem he, rfl⟩

/-- Channels are dropped with their messages. -/
theorem dropChannels (c : Cache) (ids : List Snowflake) : Dated now c (c.dropChannels ids) :=
  .of_sublist (by rw [dropChannels_messages]; exact List.filter_sublist)

end Dated

end Cache

namespace Session

variable {now : Instant}

/-- A call on the reactions of a message leaves the time at which it entered. -/
theorem dated_applyCall (now : Instant) (s : Session) (id : Snowflake) (call : ReactionCall) :
    s.cache.Dated now (s.applyCall id call).1.cache := by
  rcases s.applyCall_cases id call with h | ⟨m, answer, m', hm, hp, h⟩
  · rw [h]
    exact .of_same rfl
  · rw [h]
    exact .updateMessage (Table.mem_values_of_find? hm) (Message.perform_spec hp).2.2.1

/-- A message that a notice brings enters when the notice comes. -/
theorem dated_enter (now : Instant) (s : Session) (n : Notice) :
    s.cache.Dated now (s.enter now n).1.cache := by
  cases n with
  | reactionAdd c m u e => exact dated_applyCall now s m _
  | reactionRemove c m u e => exact dated_applyCall now s m _
  | reactionRemoveAll c m => exact dated_applyCall now s m _
  | reactionRemoveEmoji c m e => exact dated_applyCall now s m _
  | messageCreate c m author content reactions =>
    -- The author is no message, and the message is dated with the time at which it comes.
    have huser : s.cache.Dated now (s.cache.keepUser author) := .of_same rfl
    simp only [enter, receive]
    split
    · exact huser
    · rename_i answer msg hp
      exact huser.trans (.keepMessage _ (Message.perform_spec hp).2.2.1)
  | ready user channels =>
    exact .of_same (by simp only [enter, Cache.keepChannels_messages]; rfl)
  | serverCreate g channels =>
    exact .of_same (by simp only [enter, Cache.keepChannels_messages]; rfl)
  | _ => exact .of_same rfl

/-- What a notice takes away brings no message. -/
theorem dated_leave (now : Instant) (s : Session) (n : Notice) :
    s.cache.Dated now (s.leave n).cache := by
  cases n with
  | messageDelete c m => exact .of_sublist List.filter_sublist
  | channelDelete c =>
    simp only [leave, releaseChannels_cache]
    exact .dropChannels s.cache [c]
  | serverDelete g unavailable =>
    simp only [leave, releaseChannels_cache]
    exact Cache.Dated.trans (.of_same rfl) (.dropChannels _ _)
  | _ => exact .of_same rfl

/-- A message that a notice brings enters when the notice is taken. -/
theorem dated_take (now : Instant) (s : Session) (n : Notice) :
    s.cache.Dated now (s.take now n).1.cache :=
  take_keeps (P := fun s' => s.cache.Dated now s'.cache) now s n (fun _ _ h => h)
    (fun _ => dated_enter now s n) (fun s' h => h.trans (dated_leave now s' n)) (.of_same rfl)

/-- A message that a packet brings enters when the packet is handled. -/
theorem dated_acceptPacket (now : Instant) (s : Session) (p : Packet) :
    s.cache.Dated now (s.acceptPacket now p).session.cache := by
  rcases acceptPacket_session now s p with h | ⟨n, h⟩
  · rw [h]
    exact .of_same rfl
  · rw [h]
    exact dated_take now s n

/-- A message that a frame brings enters when the frame is handled. -/
theorem dated_acceptFrame (now : Instant) (s : Session) (v : Value) :
    s.cache.Dated now (s.acceptFrame now v).session.cache := by
  rcases acceptFrame_session now s v with h | ⟨n, h⟩
  · rw [h]
    exact .of_same rfl
  · rw [h]
    exact dated_take now s n

/-- A sweep brings no message. -/
theorem dated_sweep (now : Instant) {s s' : Session} {maxAge : Duration} {t : Instant} {n : Nat}
    (h : s.sweep maxAge t = .ok (n, s')) : s.cache.Dated now s'.cache := by
  obtain ⟨cutoff, -, rfl⟩ := sweep_eq h
  exact .of_sublist List.filter_sublist

end Session

end Switchboard
