import Switchboard.Proofs.Cache
import Switchboard.Proofs.Registry
import Switchboard.Proofs.Session.Frame

/-!
# Registrations go with their entities

A scope `Stands` while the entity that it is of is cached; the global scope and those of users
always stand. What a frame or a sweep does to registrations is told by `Releases`: exactly the
scopes are dropped that stood and do not stand any more, and perhaps others that do not stand.
-/

namespace Switchboard

/-- The entity of a scope is cached, if it has to be. -/
def Scope.Stands (c : Cache) : Scope → Prop
  | .message id => (c.message? id).isSome
  | .channel id => (c.channel? id).isSome
  | .server id => (c.server? id).isSome
  | .global | .user _ => True

/-- Every scope that stands in one cache stands in another. -/
theorem Scope.Stands.mono {c c' : Cache} (hs : ∀ id, (c.server? id).isSome → (c'.server? id).isSome)
    (hc : ∀ id, (c.channel? id).isSome → (c'.channel? id).isSome)
    (hm : ∀ id, (c.message? id).isSome → (c'.message? id).isSome) {scope : Scope}
    (h : scope.Stands c) : scope.Stands c' := by
  cases scope with
  | message id => exact hm id h
  | channel id => exact hc id h
  | server id => exact hs id h
  | global => exact h
  | user id => exact h

namespace Session

/-- The registrations that go are those of scopes that do not stand any more. -/
structure Releases (s s' : Session) (scopes : List Scope) : Prop where
  registry : s'.registry = s.registry.dropScopes scopes
  /-- A scope that is dropped does not stand. -/
  fallen : ∀ scope ∈ scopes, ¬ scope.Stands s'.cache
  /-- A scope that does not stand any more is dropped. -/
  dropped : ∀ scope, scope.Stands s.cache → ¬ scope.Stands s'.cache → scope ∈ scopes

namespace Releases

variable {s s' : Session} {scopes : List Scope}

/-- Nothing is left at a scope that does not stand any more. -/
theorem registrationsAt_fallen (h : Releases s s' scopes) {scope : Scope}
    (hs : scope.Stands s.cache) (hn : ¬ scope.Stands s'.cache) :
    s'.registry.registrationsAt scope = [] := by
  rw [h.registry, Registry.registrationsAt_dropScopes, if_pos (h.dropped scope hs hn)]

/-- Nothing is taken from a scope that stands. -/
theorem registrationsAt_standing (h : Releases s s' scopes) {scope : Scope}
    (hs : scope.Stands s'.cache) :
    s'.registry.registrationsAt scope = s.registry.registrationsAt scope := by
  rw [h.registry, Registry.registrationsAt_dropScopes,
    if_neg fun hd => h.fallen scope hd hs]

/-- Nothing goes when every scope that stood still stands. -/
theorem of_mono (hr : s'.registry = s.registry)
    (h : ∀ scope, Scope.Stands s.cache scope → scope.Stands s'.cache) : Releases s s' [] :=
  ⟨hr, by simp, fun scope hs hn => absurd (h scope hs) hn⟩

/-- Nothing goes when nothing happens to the cache and to the registrations. -/
theorem of_same (hc : s'.cache = s.cache) (hr : s'.registry = s.registry) : Releases s s' [] :=
  of_mono hr fun _ hs => hc ▸ hs

/-- A session with the same cache and registrations takes the place of the first one. -/
theorem of_same_left {s₁ : Session} (h : Releases s₁ s' scopes) (hc : s₁.cache = s.cache)
    (hr : s₁.registry = s.registry) : Releases s s' scopes :=
  ⟨hr ▸ h.registry, h.fallen, fun scope hs => h.dropped scope (hc ▸ hs)⟩

/-- A session with the same cache and registrations takes the place of the second one. -/
theorem of_same_right {s₁ : Session} (h : Releases s s₁ scopes) (hc : s'.cache = s₁.cache)
    (hr : s'.registry = s₁.registry) : Releases s s' scopes :=
  ⟨hr ▸ h.registry, fun scope hd => hc ▸ h.fallen scope hd,
    fun scope hs hn => h.dropped scope hs (hc ▸ hn)⟩

end Releases

/-! ## What enters -/

/-- Messages that are lost take their registrations with them. -/
theorem releases_messages {s : Session} {c' : Cache} {gone : List Message}
    (h : s.cache.Loses c' gone) :
    Releases s (releaseMessages { s with cache := c' } gone)
      (gone.map fun m => .message m.id) where
  registry := rfl
  fallen scope hd := by
    -- The messages that fall are not found any more.
    obtain ⟨m, hm, rfl⟩ := List.mem_map.mp hd
    intro hs
    have hnone := h.absent m hm
    simp only [Scope.Stands, releaseMessages] at hs
    rw [hnone] at hs
    cases hs
  dropped scope hs hn := by
    -- A scope that falls is that of a message, which was listed; channels and servers stay.
    cases scope with
    | message id =>
      have hnone : c'.message? id = none := by
        simpa [Scope.Stands, releaseMessages] using hn
      obtain ⟨m, hm, hid⟩ := h.listed id hs hnone
      exact List.mem_map.mpr ⟨m, hm, by rw [hid]⟩
    | channel id =>
      refine absurd ?_ hn
      simpa only [Scope.Stands, releaseMessages, Cache.channel?, h.channels] using hs
    | server id =>
      refine absurd ?_ hn
      simpa only [Scope.Stands, releaseMessages, Cache.server?, h.servers] using hs
    | global => exact absurd trivial hn
    | user id => exact absurd trivial hn

/-- What a notice brings makes no scope fall but those of the messages that make room. -/
theorem releases_enter (now : Instant) (s : Session) (hf : s.cache.Filed) (n : Notice) :
    ∃ scopes, Releases s (s.enter now n).1 scopes := by
  -- A call on reactions leaves every message in its place.
  have hcall (id : Snowflake) (call : ReactionCall) :
      ∃ scopes, Releases s (s.applyCall id call).1 scopes := by
    rcases s.applyCall_cases id call with h | ⟨m, answer, m', -, -, h⟩
    · rw [h]
      exact ⟨[], .of_same rfl rfl⟩
    · rw [h]
      refine ⟨[], .of_mono rfl fun scope => Scope.Stands.mono ?_ ?_ ?_⟩
      · exact fun id h => h
      · exact fun id h => h
      · exact fun id h => Table.isSome_find?_put h
  cases n with
  | reactionAdd c m u e => exact hcall m _
  | reactionRemove c m u e => exact hcall m _
  | reactionRemoveAll c m => exact hcall m _
  | reactionRemoveEmoji c m e => exact hcall m _
  | messageCreate c m author content reactions =>
    simp only [enter, receive]
    split
    · -- The message is refused: its author stays.
      exact ⟨[], .of_mono rfl fun scope => Scope.Stands.mono (fun _ h => h) (fun _ h => h)
        fun _ h => h⟩
    · -- The message is cached, and the oldest ones may have to go.
      rename_i answer msg _
      have hloses := (hf.keepUser author).loses_keepMessage msg
      have hs : Releases { s with cache := s.cache.keepUser author } _ _ :=
        releases_messages hloses
      refine ⟨_, hs.registry, hs.fallen, fun scope hstood hn => hs.dropped scope ?_ hn⟩
      exact hstood.mono (fun _ h => h) (fun _ h => h) fun _ h => h
  | channelCreate ch =>
    refine ⟨[], .of_mono rfl fun scope => Scope.Stands.mono ?_ ?_ ?_⟩
    · exact fun id h => h
    · exact fun id h => Table.isSome_find?_put h
    · exact fun id h => h
  | ready user channels =>
    refine ⟨[], .of_mono rfl fun scope => Scope.Stands.mono ?_ ?_ ?_⟩
    · intro id h
      simpa [enter, Cache.server?, Cache.keepUser] using h
    · exact fun id h => Cache.isSome_channel?_keepChannels _ _ h
    · intro id h
      simpa [enter, Cache.message?, Cache.keepUser] using h
  | serverCreate g channels =>
    refine ⟨[], .of_mono rfl fun scope => Scope.Stands.mono ?_ ?_ ?_⟩
    · intro id h
      have hput : (Table.find? id (Table.put g.id g s.cache.servers)).isSome :=
        Table.isSome_find?_put h
      simpa [enter, Cache.server?, Cache.keepServer] using hput
    · exact fun id h => Cache.isSome_channel?_keepChannels _ _ h
    · intro id h
      simpa [enter, Cache.message?, Cache.keepServer] using h
  | messageDelete c m => exact ⟨[], .of_same rfl rfl⟩
  | channelDelete c => exact ⟨[], .of_same rfl rfl⟩
  | serverDelete g unavailable => exact ⟨[], .of_same rfl rfl⟩

/-! ## What leaves -/

/-- The scopes of channels and of the messages sent in them. -/
def scopesOf (c : Cache) (ids : List Snowflake) : List Scope :=
  ids.flatMap fun id => ((c.messagesOf id).map fun m => .message m.id) ++ [.channel id]

/-- Releasing channels drops the scopes of the channels and of their messages. -/
theorem releaseChannels_eq (s : Session) (ids : List Snowflake) :
    s.releaseChannels ids =
      { s with registry := s.registry.dropScopes (scopesOf s.cache ids) } := by
  unfold releaseChannels scopesOf
  induction ids generalizing s with
  | nil => rfl
  | cons id ids ih =>
    rw [List.foldl_cons, ih, List.flatMap_cons, Registry.dropScopes_append,
      Registry.dropScopes_append]
    rfl

/-- The scopes of channels and their messages are those that fall when the channels are dropped. -/
theorem mem_scopesOf (c : Cache) (hf : c.Filed) (ids : List Snowflake) (scope : Scope) :
    scope ∈ scopesOf c ids ↔
      (∃ id ∈ ids, scope = .channel id) ∨
        ∃ id m, scope = .message id ∧ c.message? id = some m ∧ m.channel ∈ ids := by
  constructor
  · -- A scope is listed for the channel or for a message in it.
    intro h
    obtain ⟨id, hid, h⟩ := List.mem_flatMap.mp h
    rcases List.mem_append.mp h with h | h
    · obtain ⟨m, hm, rfl⟩ := List.mem_map.mp h
      obtain ⟨hv, hc⟩ := List.mem_filter.mp hm
      have hchan : m.channel = id := by simpa using hc
      exact .inr ⟨m.id, m, rfl, hf.messages.find?_key hv, hchan ▸ hid⟩
    · exact .inl ⟨id, hid, List.mem_singleton.mp h⟩
  · -- Messages are cached under their own ids, so they are listed with these.
    rintro (⟨id, hid, rfl⟩ | ⟨id, m, rfl, hm, hc⟩)
    · exact List.mem_flatMap.mpr ⟨id, hid, by simp⟩
    · have hown : m.id = id := hf.messages.key_of_find? hm
      refine List.mem_flatMap.mpr ⟨m.channel, hc, List.mem_append.mpr (.inl ?_)⟩
      refine List.mem_map.mpr ⟨m, List.mem_filter.mpr ⟨?_, by simp⟩, by rw [hown]⟩
      exact Table.mem_values_of_find? hm

/-- Channels that are dropped take along exactly what falls with them. -/
theorem dropChannels_falls (c : Cache) (hf : c.Filed) (ids : List Snowflake) :
    (∀ scope ∈ scopesOf c ids, ¬ scope.Stands (c.dropChannels ids)) ∧
      ∀ scope, scope.Stands c → ¬ scope.Stands (c.dropChannels ids) → scope ∈ scopesOf c ids := by
  constructor
  · intro scope h
    rcases (mem_scopesOf c hf ids scope).mp h with ⟨id, hid, rfl⟩ | ⟨id, m, rfl, hm, hc⟩
    · simp [Scope.Stands, hf.channel?_dropChannels, hid]
    · simp [Scope.Stands, hf.message?_dropChannels, hm, hc, Option.filter]
  · intro scope hs hn
    rw [mem_scopesOf c hf]
    cases scope with
    | message id =>
      obtain ⟨m, hm⟩ := Option.isSome_iff_exists.mp hs
      -- If the channel of the message stayed, so would the message.
      refine .inr ⟨id, m, rfl, hm, ?_⟩
      by_contra hc
      refine hn ?_
      simp [Scope.Stands, hf.message?_dropChannels, hm, hc, Option.filter]
    | channel id =>
      refine .inl ⟨id, ?_, rfl⟩
      by_contra hid
      refine hn ?_
      simpa [Scope.Stands, hf.channel?_dropChannels, hid] using hs
    | server id =>
      refine absurd ?_ hn
      simpa [Scope.Stands, Cache.server?] using hs
    | global => exact absurd trivial hn
    | user id => exact absurd trivial hn

/-- A message that is dropped takes its registrations with it. -/
theorem releases_dropMessage (s : Session) (m : Snowflake) :
    Releases s
      { s with
        cache := (s.cache.dropMessage m).2
        registry := (s.registry.dropScope (.message m)).2 } [.message m] where
  registry := rfl
  fallen scope hd := by
    rw [List.mem_singleton.mp hd]
    simp [Scope.Stands, Cache.dropMessage, Cache.message?]
  dropped scope hs hn := by
    rw [List.mem_singleton]
    -- Only the message itself falls.
    cases scope with
    | message id =>
      by_contra hid
      have hne : id ≠ m := fun he => hid (by rw [he])
      refine hn ?_
      simpa [Scope.Stands, Cache.dropMessage, Cache.message?, Table.find?_drop_of_ne hne] using hs
    | channel id => exact absurd hs hn
    | server id => exact absurd hs hn
    | global => exact absurd trivial hn
    | user id => exact absurd trivial hn

/-- A server that is dropped takes along its registrations and those of its channels and of the
messages in them. -/
theorem releases_dropServer (s : Session) (hf : s.cache.Filed) (g : Snowflake) :
    Releases s (s.leave (.serverDelete g false))
      (scopesOf s.cache ((s.cache.channelsOf g).map Channel.id) ++ [.server g]) := by
  -- The cache that still has the channels but has lost the server.
  let c : Cache := { s.cache with servers := Table.drop g s.cache.servers }
  let ids : List Snowflake := (s.cache.channelsOf g).map Channel.id
  have hc : c.Filed := { hf with servers := hf.servers.drop g }
  have hcache : (s.leave (.serverDelete g false)).cache = c.dropChannels ids := by
    simp only [leave, releaseChannels_eq]
    rfl
  have hserver (id : Snowflake) : (c.dropChannels ids).server? id = Table.find? id c.servers := by
    simp [Cache.server?]
  obtain ⟨hfallen, hdropped⟩ := dropChannels_falls c hc ids
  refine ⟨?_, fun scope hd => ?_, fun scope hs hn => ?_⟩
  · rw [Registry.dropScopes_append]
    simp only [leave, releaseChannels_eq]
    rfl
  · rw [hcache]
    rcases List.mem_append.mp hd with hd | hd
    · exact hfallen scope hd
    · rw [List.mem_singleton.mp hd]
      simp [Scope.Stands, hserver, c]
  · rw [hcache] at hn
    refine List.mem_append.mpr ?_
    by_cases hg : scope = .server g
    · exact .inr (List.mem_singleton.mpr hg)
    · refine .inl (hdropped scope ?_ hn)
      cases scope with
      | server id =>
        have hne : id ≠ g := fun he => hg (by rw [he])
        simpa [Scope.Stands, Cache.server?, c, Table.find?_drop_of_ne hne] using hs
      | _ => exact hs

/-- What a notice takes away goes together with its registrations. -/
theorem releases_leave (s : Session) (hf : s.cache.Filed) (n : Notice) :
    ∃ scopes, Releases s (s.leave n) scopes := by
  cases n with
  | messageDelete c m => exact ⟨_, releases_dropMessage s m⟩
  | channelDelete c =>
    obtain ⟨hfallen, hdropped⟩ := dropChannels_falls s.cache hf [c]
    refine ⟨scopesOf s.cache [c], ?_, hfallen, hdropped⟩
    simp only [leave, releaseChannels_eq]
  | serverDelete g unavailable => exact ⟨_, releases_dropServer s hf g⟩
  | _ => exact ⟨[], .of_same rfl rfl⟩

/-! ## Frames and sweeps -/

/-- A notice either brings something or takes something away. -/
theorem enter_or_leave (now : Instant) (s : Session) (n : Notice) :
    (s.enter now n).1 = s ∨ ∀ s' : Session, s'.leave n = s' := by
  cases n with
  | messageDelete c m => exact .inl rfl
  | channelDelete c => exact .inl rfl
  | serverDelete g unavailable => exact .inl rfl
  | _ => exact .inr fun _ => rfl

/-- Taking a notice drops the registrations of what goes, and no others. -/
theorem releases_take (now : Instant) (s : Session) (hf : s.cache.Filed) (n : Notice) :
    ∃ scopes, Releases s (s.take now n).1 scopes := by
  obtain ⟨scopes, henter⟩ := releases_enter now s hf n
  -- What is left to do after the notice has entered, with or without the job of its event.
  have hleave (s' : Session) (hc : s'.cache = (s.enter now n).1.cache)
      (hr : s'.registry = (s.enter now n).1.registry) :
      ∃ scopes, Releases s (s'.leave n) scopes := by
    rcases enter_or_leave now s n with hsame | hstay
    · rw [hsame] at hc hr
      obtain ⟨scopes, h⟩ := releases_leave s' (hc ▸ hf) n
      exact ⟨scopes, h.of_same_left hc hr⟩
    · rw [hstay s']
      exact ⟨scopes, henter.of_same_right hc hr⟩
  unfold take
  split
  · exact ⟨[], .of_same rfl rfl⟩
  · cases he : s.enter now n with
    | mk s' failure =>
      rw [he] at henter hleave
      cases failure with
      | some f => exact ⟨scopes, henter⟩
      | none =>
        dsimp only
        split
        · exact hleave s' rfl rfl
        · split
          · exact ⟨scopes, henter⟩
          · rename_i s'' ha
            obtain ⟨lanes, -, rfl⟩ := announce_eq ha
            exact hleave _ rfl rfl

/-- Handling a frame drops the registrations of what goes, and no others. -/
theorem releases_acceptFrame (now : Instant) (s : Session) (hf : s.cache.Filed) (v : Value) :
    ∃ scopes, Releases s (s.acceptFrame now v).session scopes := by
  rcases acceptFrame_session now s v with h | ⟨n, h⟩
  · rw [h]
    exact ⟨[], .of_same rfl rfl⟩
  · rw [h]
    exact releases_take now s hf n

/-- A sweep drops the registrations of the messages that go, and no others. -/
theorem releases_sweep {s s' : Session} (hf : s.cache.Filed) {maxAge : Duration} {now : Instant}
    {n : Nat} (h : s.sweep maxAge now = .ok (n, s')) : ∃ scopes, Releases s s' scopes := by
  obtain ⟨cutoff, -, rfl⟩ := sweep_eq h
  exact ⟨_, releases_messages (hf.loses_dropUntil cutoff)⟩

end Session

end Switchboard
