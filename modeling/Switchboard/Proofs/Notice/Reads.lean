import Switchboard.Notice
import Switchboard.Proofs.Attempt

/-!
# Where the parts of a notice are read

`Notice.Reads` lists for every kind of notice the payload fields that its parts come from, and
`Notice.reads_of_decode` says that a packet decodes to nothing else. The channels that come in a
list, and the reactions of a message, are told by the readers of these lists.
-/

namespace Switchboard

/-- The parts of a notice stand in the fields of a packet. -/
def Notice.Reads (p : Packet) : Notice → Prop
  | reactionAdd c m u e | reactionRemove c m u e =>
    p.snowflake "channel_id" = .ok c ∧ p.snowflake "message_id" = .ok m ∧
      p.snowflake "user_id" = .ok u ∧ p.emoji "emoji" = .ok e
  | reactionRemoveAll c m => p.snowflake "channel_id" = .ok c ∧ p.snowflake "message_id" = .ok m
  | reactionRemoveEmoji c m e =>
    p.snowflake "channel_id" = .ok c ∧ p.snowflake "message_id" = .ok m ∧ p.emoji "emoji" = .ok e
  | messageCreate c m author content reactions =>
    p.snowflake "channel_id" = .ok c ∧ p.snowflake "id" = .ok m ∧ p.user "author" = .ok author ∧
      (∃ text, p.string? "content" = .ok text ∧ content = text.getD "") ∧
      p.reactions = .ok reactions
  | messageDelete c m => p.snowflake "channel_id" = .ok c ∧ p.snowflake "id" = .ok m
  | channelCreate ch =>
    p.snowflake "id" = .ok ch.id ∧ p.snowflake? "guild_id" = .ok ch.server ∧
      p.nameIn p.data "name" "name" = .ok ch.name
  | channelDelete c => p.snowflake "id" = .ok c
  | ready user channels =>
    p.user "user" = .ok user ∧ p.channels "private_channels" none = .ok channels
  | serverCreate g channels =>
    p.snowflake "id" = .ok g.id ∧ (∃ text, p.string? "name" = .ok text ∧ g.name = text.getD "") ∧
      p.channels "channels" (some g.id) = .ok channels
  | serverDelete g unavailable =>
    p.snowflake "id" = .ok g ∧ unavailable = (p.field "unavailable").isGiven

/-- The topic of a notice. -/
def Notice.topic : Notice → Topic
  | reactionAdd .. => .reactionAdd
  | reactionRemove .. => .reactionRemove
  | reactionRemoveAll .. => .reactionRemoveAll
  | reactionRemoveEmoji .. => .reactionRemoveEmoji
  | messageCreate .. => .messageCreate
  | messageDelete .. => .messageDelete
  | channelCreate _ => .channelCreate
  | channelDelete _ => .channelDelete
  | ready .. => .ready
  | serverCreate .. => .serverCreate
  | serverDelete .. => .serverDelete

namespace Packet

variable {p : Packet}

/-- An id that decodes is there. -/
theorem snowflake_of_decode {name : String} {id : Snowflake}
    (h : Snowflake.decode p.type name (p.data.get name) = .ok id) : p.snowflake name = .ok id := by
  unfold snowflake required field
  split
  · rename_i hnull
    rw [hnull] at h
    cases h
  · exact h

/-- An id that may be missing is missing where its field is null. -/
theorem snowflake?_of_null {name : String} (h : p.data.get name = .null) :
    p.snowflake? name = .ok none := by
  simp only [snowflake?, field, h]

/-- An id that may be missing is decoded where its field is given. -/
theorem snowflake?_of_ne_null {name : String} (h : p.data.get name ≠ .null) :
    p.snowflake? name = some <$> Snowflake.decode p.type name (p.data.get name) := by
  unfold snowflake? field
  split
  · rename_i hnull
    exact absurd hnull h
  · rfl

/-- A channel that is an object of its own has the server that the object names. -/
theorem snowflake?_of_channelIn {ch : Channel} (h : p.channelIn p.data none = .ok ch) :
    p.snowflake "id" = .ok ch.id ∧ p.snowflake? "guild_id" = .ok ch.server ∧
      p.nameIn p.data "name" "name" = .ok ch.name := by
  obtain ⟨name, hname, h⟩ := bind_eq_ok.mp h
  dsimp only at h
  split at h
  · -- The object names no server.
    rename_i hnull
    obtain ⟨server, hserver, h⟩ := bind_eq_ok.mp h
    cases hserver
    obtain ⟨id, hid, h⟩ := bind_eq_ok.mp h
    cases h
    exact ⟨snowflake_of_decode hid, snowflake?_of_null hnull, hname⟩
  · -- The object names its server.
    rename_i hnamed
    obtain ⟨server, hserver, h⟩ := bind_eq_ok.mp h
    obtain ⟨id, hid, h⟩ := bind_eq_ok.mp h
    cases h
    exact ⟨snowflake_of_decode hid, (snowflake?_of_ne_null hnamed).trans hserver, hname⟩

end Packet

/-- A packet of a topic decodes to a notice of this topic, whose parts stand in its fields. -/
theorem Notice.reads_of_decode {p : Packet} {t : Topic} {n : Notice} (h : decode p t = .ok n) :
    n.topic = t ∧ n.Reads p := by
  -- For every topic the steps of its decoder are undone in the order in which they were taken.
  cases t with
  | reactionAdd =>
    obtain ⟨c, hc, h⟩ := bind_eq_ok.mp h
    obtain ⟨m, hm, h⟩ := bind_eq_ok.mp h
    obtain ⟨u, hu, h⟩ := bind_eq_ok.mp h
    obtain ⟨e, he, h⟩ := bind_eq_ok.mp h
    cases h
    exact ⟨rfl, hc, hm, hu, he⟩
  | reactionRemove =>
    obtain ⟨c, hc, h⟩ := bind_eq_ok.mp h
    obtain ⟨m, hm, h⟩ := bind_eq_ok.mp h
    obtain ⟨u, hu, h⟩ := bind_eq_ok.mp h
    obtain ⟨e, he, h⟩ := bind_eq_ok.mp h
    cases h
    exact ⟨rfl, hc, hm, hu, he⟩
  | reactionRemoveAll =>
    obtain ⟨c, hc, h⟩ := bind_eq_ok.mp h
    obtain ⟨m, hm, h⟩ := bind_eq_ok.mp h
    cases h
    exact ⟨rfl, hc, hm⟩
  | reactionRemoveEmoji =>
    obtain ⟨c, hc, h⟩ := bind_eq_ok.mp h
    obtain ⟨m, hm, h⟩ := bind_eq_ok.mp h
    obtain ⟨e, he, h⟩ := bind_eq_ok.mp h
    cases h
    exact ⟨rfl, hc, hm, he⟩
  | messageCreate =>
    obtain ⟨m, hm, h⟩ := bind_eq_ok.mp h
    obtain ⟨c, hc, h⟩ := bind_eq_ok.mp h
    obtain ⟨author, hauthor, h⟩ := bind_eq_ok.mp h
    obtain ⟨text, htext, h⟩ := bind_eq_ok.mp h
    obtain ⟨reactions, hreactions, h⟩ := bind_eq_ok.mp h
    cases h
    exact ⟨rfl, hc, hm, hauthor, ⟨text, htext, rfl⟩, hreactions⟩
  | messageDelete =>
    obtain ⟨m, hm, h⟩ := bind_eq_ok.mp h
    obtain ⟨c, hc, h⟩ := bind_eq_ok.mp h
    cases h
    exact ⟨rfl, hc, hm⟩
  | channelCreate =>
    obtain ⟨ch, hch, h⟩ := map_eq_ok.mp h
    cases h
    exact ⟨rfl, Packet.snowflake?_of_channelIn hch⟩
  | channelDelete =>
    obtain ⟨c, hc, h⟩ := map_eq_ok.mp h
    cases h
    exact ⟨rfl, hc⟩
  | ready =>
    obtain ⟨user, huser, h⟩ := bind_eq_ok.mp h
    obtain ⟨channels, hchannels, h⟩ := bind_eq_ok.mp h
    cases h
    exact ⟨rfl, huser, hchannels⟩
  | serverCreate =>
    obtain ⟨g, hg, h⟩ := bind_eq_ok.mp h
    obtain ⟨text, htext, h⟩ := bind_eq_ok.mp h
    obtain ⟨channels, hchannels, h⟩ := bind_eq_ok.mp h
    cases h
    exact ⟨rfl, hg, ⟨text, htext, rfl⟩, hchannels⟩
  | serverDelete =>
    obtain ⟨g, hg, h⟩ := bind_eq_ok.mp h
    cases h
    exact ⟨rfl, hg, rfl⟩

end Switchboard
