import Switchboard.Proofs.Session.Posting
import Switchboard.Proofs.Session.Release

/-!
# What a notice comes to

What is found in the cache and among the registrations after a session has heeded a notice, told
from the notice and from what was found before: `Notice.serverAfter`, `Notice.channelAfter`,
`Notice.messageAfter` and `Session.drops`. What is found for one id depends on what was found for
that id, and for a message also on the owner of its channel; nothing else in the session matters.
-/

namespace Switchboard

/-- The scope is that of a message. -/
def Scope.isMessage : Scope → Bool
  | .message _ => true
  | .global | .server _ | .channel _ | .user _ => false

namespace Notice

/-- The server with an id after a notice. -/
def serverAfter (id : Snowflake) (old : Option Server) : Notice → Option Server
  | serverCreate g _ => if id = g.id then some g else old
  | serverDelete g _ => if id = g then none else old
  | _ => old

/-- The channel with an id once channels are kept: the last one of them with this id. -/
def channelAmong (id : Snowflake) (old : Option Channel) (chs : List Channel) : Option Channel :=
  chs.foldl (fun old ch => if id = ch.id then some ch else old) old

/-- The channel with an id after a notice. -/
def channelAfter (id : Snowflake) (old : Option Channel) : Notice → Option Channel
  | channelCreate ch => if id = ch.id then some ch else old
  | ready _ chs | serverCreate _ chs => channelAmong id old chs
  | channelDelete c => if id = c then none else old
  | serverDelete g _ => old.filter (!·.server == some g)
  | _ => old

/-- The message with an id after a notice that comes at an instant, if every message has room; the
server that owns a channel is given by `owner?`. -/
def messageAfter (now : Instant) (owner? : Snowflake → Option Snowflake) (id : Snowflake)
    (old : Option Message) : Notice → Option Message
  | messageCreate c m author content reactions =>
    let fresh : Message :=
      { id := m, channel := c, author := some author.id, content, createdAt := now }
    if id = m then some (fresh.after (.replace reactions)) else old
  | messageDelete _ m => if id = m then none else old
  | channelDelete c => old.filter (!·.channel == c)
  | serverDelete g _ => old.filter (!owner? ·.channel == some g)
  | n =>
    match n.call? with
    | some (m, call) => if id = m then old.map (·.after call) else old
    | none => old

end Notice

namespace Cache

variable {c : Cache}

/-- The cache has room for the message that a notice may bring. -/
def RoomFor (c : Cache) : Notice → Prop
  | .messageCreate .. => (c.messages.length : Int) + 1 ≤ c.capacity
  | _ => True

/-- A message that has room makes no other one go. -/
theorem keepMessage_of_room (h : (c.messages.length : Int) + 1 ≤ c.capacity) (m : Message) :
    c.keepMessage m = ([], { c with messages := Table.putLast m.id m c.messages }) := by
  have hlength := Table.length_putLast_le m.id m c.messages
  rcases c.keepMessage_cases m with ⟨hnone, -⟩ | ⟨n, -, hn, he⟩
  · -- A cache that keeps no messages has no room.
    omega
  · have hzero : n = 0 := by omega
    rw [he, hzero]
    rfl

/-- The channel that is found when channels are kept. -/
theorem channel?_keepChannels (chs : List Channel) (id : Snowflake) :
    (c.keepChannels chs).channel? id = Notice.channelAmong id (c.channel? id) chs := by
  unfold keepChannels Notice.channelAmong
  induction chs generalizing c with
  | nil => rfl
  | cons ch chs ih =>
    rw [List.foldl_cons, List.foldl_cons, ih]
    by_cases h : id = ch.id
    · subst h
      simp [keepChannel, channel?]
    · simp [keepChannel, channel?, h, Table.find?_put_of_ne h]

/-- The ids of the channels of a server are those of the channels that it owns. -/
theorem Filed.contains_channelsOf (hf : c.Filed) (g id : Snowflake) :
    ((c.channelsOf g).map Channel.id).contains id =
      ((c.channel? id).bind Channel.server == some g) := by
  rw [Bool.eq_iff_iff, List.contains_iff_mem, beq_iff_eq, Option.bind_eq_some_iff]
  constructor
  · intro h
    obtain ⟨ch, hch, rfl⟩ := List.mem_map.mp h
    obtain ⟨hv, hs⟩ := List.mem_filter.mp hch
    exact ⟨ch, hf.channels.find?_key hv, by simpa using hs⟩
  · rintro ⟨ch, hch, hs⟩
    have hv : ch ∈ c.channelsOf g :=
      List.mem_filter.mpr ⟨Table.mem_values_of_find? hch, by simpa using hs⟩
    exact List.mem_map.mpr ⟨ch, hv, hf.channels.key_of_find? hch⟩

/-- A channel goes with its server. -/
theorem Filed.channel?_dropServer (hf : c.Filed) (g id : Snowflake) :
    (c.dropServer g).2.channel? id = (c.channel? id).filter (!·.server == some g) := by
  -- The channels go from a cache that has lost the server and nothing else.
  have hc : Filed { c with servers := Table.drop g c.servers } :=
    { hf with servers := hf.servers.drop g }
  have howned : id ∈ (c.channelsOf g).map Channel.id ↔
      (c.channel? id).bind Channel.server = some g := by
    rw [← List.contains_iff_mem, hf.contains_channelsOf, beq_iff_eq]
  refine (hc.channel?_dropChannels ((c.channelsOf g).map Channel.id) id).trans ?_
  simp only [howned]
  show (if _ then none else c.channel? id) = _
  cases c.channel? id with
  | none => simp
  | some ch => simp [Option.filter]

/-- A message goes with the server of its channel. -/
theorem Filed.message?_dropServer (hf : c.Filed) (g id : Snowflake) :
    (c.dropServer g).2.message? id =
      (c.message? id).filter fun m => !(c.channel? m.channel).bind Channel.server == some g := by
  have hc : Filed { c with servers := Table.drop g c.servers } :=
    { hf with servers := hf.servers.drop g }
  refine (hc.message?_dropChannels ((c.channelsOf g).map Channel.id) id).trans ?_
  simp only [hf.contains_channelsOf]
  rfl

end Cache

namespace Session

variable {s : Session} {now : Instant} {n : Notice}

/-! ## What enters -/

/-- A call that is made changes the message in its place. -/
theorem applyCall_after {id : Snowflake} {call : ReactionCall}
    (h : (s.applyCall id call).2 = none) :
    (s.applyCall id call).1 = s ∧ s.cache.message? id = none ∨
      ∃ m answer, s.cache.message? id = some m ∧ m.perform call = .ok (answer, m.after call) ∧
        (s.applyCall id call).1 = { s with cache := s.cache.updateMessage (m.after call) } := by
  -- The message is not cached, the call fails, or it changes the message.
  unfold applyCall at h ⊢
  cases hm : s.cache.message? id with
  | none => exact .inl ⟨rfl, rfl⟩
  | some m =>
    rw [hm] at h
    dsimp only at h ⊢
    cases hp : m.perform call with
    | error f => simp [hp] at h
    | ok r =>
      have hafter : m.after call = r.2 := by simp [Message.after, hp]
      exact .inr ⟨m, r.1, rfl, by rw [hp, hafter], by rw [hafter]⟩

/-- A message that enters is kept with its reactions, and those that make room for it take their
registrations with them. -/
theorem enter_message {c m : Snowflake} {author : User} {content : String}
    {reactions : List Reaction}
    (h : (s.enter now (.messageCreate c m author content reactions)).2 = none) :
    ∃ msg : Message,
      msg = Message.after { id := m, channel := c, author := some author.id, content,
                            createdAt := now } (.replace reactions) ∧
      (s.enter now (.messageCreate c m author content reactions)).1 =
        releaseMessages { s with cache := ((s.cache.keepUser author).keepMessage msg).2 }
          ((s.cache.keepUser author).keepMessage msg).1 := by
  refine ⟨_, rfl, ?_⟩
  -- The reactions that come with the message were all put, or it would have failed.
  simp only [enter, receive] at h ⊢
  split
  · rename_i hp
    simp [hp] at h
  · rename_i answer msg hp
    simp [Message.after, hp]

/-- What a notice about a known channel brings changes no server and no channel. -/
theorem enter_places (now : Instant) {c : Snowflake} (h : n.channel? = some c) :
    (s.enter now n).1.cache.servers = s.cache.servers ∧
      (s.enter now n).1.cache.channels = s.cache.channels := by
  -- A call on the reactions changes messages only.
  have hcall (m : Snowflake) (call : ReactionCall) :
      (s.applyCall m call).1.cache.servers = s.cache.servers ∧
        (s.applyCall m call).1.cache.channels = s.cache.channels := by
    rcases s.applyCall_cases m call with h | ⟨_, _, _, -, -, h⟩
    · rw [h]
      exact ⟨rfl, rfl⟩
    · rw [h]
      exact ⟨rfl, rfl⟩
  cases n with
  | reactionAdd _ m | reactionRemove _ m | reactionRemoveAll _ m | reactionRemoveEmoji _ m =>
    exact hcall m _
  | messageCreate c m author content reactions =>
    -- So does a message that comes in, whatever it drives out.
    simp only [enter, receive]
    split
    · exact ⟨rfl, rfl⟩
    · rename_i answer msg _
      rcases (s.cache.keepUser author).keepMessage_cases msg with ⟨-, hk⟩ | ⟨k, -, -, hk⟩
      · rw [hk]
        exact ⟨rfl, rfl⟩
      · rw [hk]
        exact ⟨rfl, rfl⟩
  | messageDelete | channelDelete => exact ⟨rfl, rfl⟩
  | channelCreate | ready | serverCreate | serverDelete => cases h

/-! ## What leaves -/

/-- The scopes that go with what a notice takes away. -/
def clears (s : Session) : Notice → List Scope
  | .messageDelete _ m => [.message m]
  | .channelDelete c => scopesOf s.cache [c]
  | .serverDelete g _ => scopesOf s.cache ((s.cache.channelsOf g).map Channel.id) ++ [.server g]
  | _ => []

/-- The scope goes with what a notice takes away. -/
def drops (s : Session) : Notice → Scope → Bool
  | .messageDelete _ m, .message id => id == m
  | .channelDelete c, .channel id => id == c
  | .channelDelete c, .message id => (s.cache.message? id).any (·.channel == c)
  | .serverDelete g _, .server id => id == g
  | .serverDelete g _, .channel id => s.owner? id == some g
  | .serverDelete g _, .message id => (s.cache.message? id).any (s.owner? ·.channel == some g)
  | _, _ => false

/-- What leaves takes the registrations at its scopes with it. -/
theorem leave_registry (s : Session) (n : Notice) :
    (s.leave n).registry = s.registry.dropScopes (s.clears n) := by
  cases n with
  | channelDelete c => simp only [leave, releaseChannels_eq, clears]
  | serverDelete g unavailable =>
    simp only [leave, releaseChannels_eq, clears, Registry.dropScopes_append]
    rfl
  | _ => rfl

/-- The scopes of channels, as a test. -/
theorem mem_scopesOf_iff (hf : s.cache.Filed) (ids : List Snowflake) (x : Scope) :
    x ∈ scopesOf s.cache ids ↔ (match x with
      | .channel id => ids.contains id
      | .message id => (s.cache.message? id).any (ids.contains ·.channel)
      | _ => false) = true := by
  rw [mem_scopesOf s.cache hf]
  cases x with
  | message id => simp [Option.any_eq_true]
  | _ => simp

/-- The scopes that go with what a notice takes away are those that it drops. -/
theorem mem_clears_iff (hf : s.cache.Filed) (n : Notice) (x : Scope) :
    x ∈ s.clears n ↔ s.drops n x = true := by
  cases n with
  | messageDelete c m => cases x <;> simp [clears, drops]
  | channelDelete c =>
    rw [clears, mem_scopesOf_iff hf]
    cases x <;> simp [drops, Bool.beq_eq_decide_eq]
  | serverDelete g unavailable =>
    rw [clears, List.mem_append, mem_scopesOf_iff hf, List.mem_singleton]
    simp only [hf.contains_channelsOf]
    cases x <;> simp [drops, owner?]
  | _ => cases x <;> simp [clears, drops]

/-! ## A notice that is heeded -/

/-- A notice that is heeded brings all that it brings, and takes away all that it takes away. -/
theorem take_of_heeds (hr : s.lanes.running = true) (h : s.heeds now n = true) :
    ∃ lanes, (s.take now n).1 = leave { (s.enter now n).1 with lanes } n := by
  obtain ⟨lanes, htake, -⟩ := take_heard (heeds_iff.mp h).1 (take_heeded hr h)
  exact ⟨lanes, htake⟩

/-- The servers that are found after a notice. -/
theorem server?_take (hr : s.lanes.running = true) (h : s.heeds now n = true) (id : Snowflake) :
    (s.take now n).1.cache.server? id = n.serverAfter id (s.cache.server? id) := by
  obtain ⟨lanes, htake⟩ := take_of_heeds hr h
  rw [htake]
  cases n with
  -- A notice about a channel leaves the servers alone; the others bring one or take one away.
  | reactionAdd | reactionRemove | reactionRemoveAll | reactionRemoveEmoji | messageCreate =>
    exact congrArg (Table.find? id) (enter_places now rfl).1
  | messageDelete c m => rfl
  | channelCreate ch => rfl
  | channelDelete c =>
    simp only [leave, releaseChannels_cache]
    rfl
  | ready user chs => simp [enter, leave, Cache.server?, Cache.keepUser, Notice.serverAfter]
  | serverCreate g chs =>
    simp only [enter, leave, Cache.server?, Cache.keepChannels_servers, Cache.keepServer,
      Notice.serverAfter]
    by_cases hid : id = g.id
    · simp [hid]
    · simp [hid, Table.find?_put_of_ne hid]
  | serverDelete g unavailable =>
    simp only [leave, releaseChannels_cache, Cache.dropServer, Cache.server?,
      Cache.dropChannels_servers, Notice.serverAfter, enter]
    by_cases hid : id = g
    · simp [hid]
    · simp [hid, Table.find?_drop_of_ne hid]

/-- The channels that are found after a notice. -/
theorem channel?_take (hf : s.cache.Filed) (hr : s.lanes.running = true)
    (h : s.heeds now n = true) (id : Snowflake) :
    (s.take now n).1.cache.channel? id = n.channelAfter id (s.cache.channel? id) := by
  obtain ⟨lanes, htake⟩ := take_of_heeds hr h
  rw [htake]
  -- A notice about a channel leaves the channels alone; the others bring some or take some away.
  cases n with
  | reactionAdd | reactionRemove | reactionRemoveAll | reactionRemoveEmoji | messageCreate =>
    exact congrArg (Table.find? id) (enter_places now rfl).2
  | messageDelete c m => rfl
  | channelCreate ch =>
    simp only [enter, leave, Cache.channel?, Cache.keepChannel, Notice.channelAfter]
    by_cases hid : id = ch.id
    · simp [hid]
    · simp [hid, Table.find?_put_of_ne hid]
  | channelDelete c =>
    simp only [leave, releaseChannels_cache, Notice.channelAfter]
    have hdrop := hf.channel?_dropChannels [c] id
    simp only [List.mem_singleton] at hdrop
    exact hdrop
  | ready user chs => exact Cache.channel?_keepChannels chs id
  | serverCreate g chs => exact Cache.channel?_keepChannels chs id
  | serverDelete g unavailable =>
    simp only [leave, releaseChannels_cache]
    exact hf.channel?_dropServer g id

/-- The messages that are found after a notice, if there is room for all. -/
theorem message?_take (hf : s.cache.Filed) (hr : s.lanes.running = true)
    (h : s.heeds now n = true) (hroom : s.cache.RoomFor n) (id : Snowflake) :
    (s.take now n).1.cache.message? id =
      n.messageAfter now s.owner? id (s.cache.message? id) := by
  obtain ⟨lanes, htake⟩ := take_of_heeds hr h
  -- A call changes the message that it is about, if that is cached.
  have hcall {m : Snowflake} {call : ReactionCall} (henter : (s.applyCall m call).2 = none) :
      (s.applyCall m call).1.cache.message? id =
        if id = m then (s.cache.message? id).map (·.after call) else s.cache.message? id := by
    rcases applyCall_after henter with ⟨hsame, hnone⟩ | ⟨msg, answer, hm, -, hafter⟩
    · rw [hsame]
      split
      · rename_i hid
        simp [hid, hnone]
      · rfl
    · -- The message that is put back stands where it was found.
      have hkey : (msg.after call).id = m :=
        (msg.after_spec call).1.trans (hf.messages.key_of_find? hm)
      rw [hafter]
      simp only [Cache.message?, Cache.updateMessage, hkey]
      by_cases hid : id = m
      · subst hid
        have hm' : Table.find? id s.cache.messages = some msg := hm
        simp [hm']
      · simp [hid, Table.find?_put_of_ne hid]
  have henter := (heeds_iff.mp h).2
  rw [htake]
  cases n with
  | reactionAdd _ m | reactionRemove _ m | reactionRemoveAll _ m | reactionRemoveEmoji _ m =>
    exact hcall henter
  | messageCreate c m author content reactions =>
    -- The message that comes in is found under its id; with room for all, no other one goes.
    obtain ⟨msg, hmsg, henter⟩ := enter_message henter
    have hkey : msg.id = m := by rw [hmsg, (Message.after_spec _ _).1]
    rw [henter, Cache.keepMessage_of_room (c := s.cache.keepUser author) hroom]
    simp only [leave, releaseMessages, Cache.message?, Notice.messageAfter, ← hmsg, hkey]
    by_cases hid : id = m
    · simp [hid]
    · rw [Table.find?_putLast_of_ne hid]
      simp [hid, Cache.keepUser]
  | messageDelete c m =>
    simp only [enter, leave, Cache.dropMessage, Cache.message?, Notice.messageAfter]
    by_cases hid : id = m
    · simp [hid]
    · simp [hid, Table.find?_drop_of_ne hid]
  | channelCreate ch => rfl
  | channelDelete c =>
    simp only [leave, releaseChannels_cache, Notice.messageAfter]
    have hdrop := hf.message?_dropChannels [c] id
    simp only [List.contains_cons, List.contains_nil, Bool.or_false] at hdrop
    exact hdrop
  | ready user chs =>
    simp [enter, leave, Cache.message?, Cache.keepUser, Notice.messageAfter, Notice.call?]
  | serverCreate g chs =>
    simp [enter, leave, Cache.message?, Cache.keepServer, Notice.messageAfter, Notice.call?]
  | serverDelete g unavailable =>
    simp only [leave, releaseChannels_cache]
    exact hf.message?_dropServer g id

/-- The registrations that are left at a scope after a notice; at that of a message, if there is
room for all messages. -/
theorem find?_take (hf : s.cache.Filed) (hr : s.lanes.running = true) (h : s.heeds now n = true)
    {x : Scope} (hx : x.isMessage = false ∨ s.cache.RoomFor n) (kind : EventKind) :
    Table.find? (x, kind) (s.take now n).1.registry.files =
      if s.drops n x then none else Table.find? (x, kind) s.registry.files := by
  obtain ⟨lanes, htake⟩ := take_of_heeds hr h
  have hleave : Table.find? (x, kind) (leave { s with lanes } n).registry.files =
      if s.drops n x then none else Table.find? (x, kind) s.registry.files := by
    have hclears : clears { s with lanes } n = s.clears n := by cases n <;> rfl
    rw [leave_registry, Registry.find?_dropScopes, hclears]
    simp only [mem_clears_iff hf]
  have hcall (m : Snowflake) (call : ReactionCall) :
      (s.applyCall m call).1.registry = s.registry := by
    rcases s.applyCall_cases m call with h | ⟨_, _, _, -, -, h⟩
    · rw [h]
    · rw [h]
  rw [htake]
  cases n with
  | reactionAdd _ m | reactionRemove _ m | reactionRemoveAll _ m | reactionRemoveEmoji _ m =>
    simp only [drops, Bool.false_eq_true, if_false]
    exact congrArg (fun r : Registry => Table.find? (x, kind) r.files) (hcall m _)
  | messageCreate c m author content reactions =>
    obtain ⟨msg, -, henter⟩ := enter_message (heeds_iff.mp h).2
    -- Only the scopes of messages go when a message comes, and none goes when there is room.
    have hstays : x ∉ ((s.cache.keepUser author).keepMessage msg).1.map fun m => .message m.id := by
      intro hgone
      rcases hx with hx | hroom
      · obtain ⟨m', -, rfl⟩ := List.mem_map.mp hgone
        cases hx
      · rw [Cache.keepMessage_of_room (c := s.cache.keepUser author) hroom] at hgone
        cases hgone
    rw [henter]
    simp only [leave, releaseMessages, drops, Bool.false_eq_true, if_false,
      Registry.find?_dropScopes, if_neg hstays]
  | messageDelete c m => exact hleave
  | channelDelete c => exact hleave
  | serverDelete g unavailable => exact hleave
  | _ => rfl

end Session

end Switchboard
