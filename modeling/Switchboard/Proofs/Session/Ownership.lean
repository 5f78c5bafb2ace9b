import Switchboard.Proofs.Session.Standard

/-!
# Channels and the servers that own them

A channel that names a server should go when that server goes, so the server has to be cached. New
channels are held to this (`hears` asks for the server of a `channelCreate`), but not the lists of
channels that come with a server or at the start: an entry that names another server is kept as it
is, whether that server is known or not. Such channels are the `strays` of a notice.

`fed_owned` says what holds of a session that takes in frames: every channel that names a server
names a cached one, unless a frame brought it as a stray; and a server that goes takes all channels
that name it along, while the going of a server that is not cached is not heard. So a stray can
outlive the server it names (`fed_stray`).
-/

namespace Switchboard

/-- The channels that a notice brings without asking for the server that they name. -/
def Notice.strays : Notice → List Channel
  | ready _ channels => channels.filter (·.server.isSome)
  | serverCreate g channels => channels.filter (·.server != some g.id)
  | _ => []

/-- The strays that a frame brings. -/
def Notice.straysOf (v : Value) : List Channel := ((ofFrame? v).map strays).getD []

namespace Cache

/-- Every channel that names a server names a cached one, unless it is one of a list. -/
def Owned (c : Cache) (strays : List Channel) : Prop :=
  ∀ ch ∈ Table.values c.channels, ∀ g, ch.server = some g → (c.server? g).isSome ∨ ch ∈ strays

/-- The channels after some are kept are those and the old ones. -/
theorem mem_values_keepChannels {c : Cache} {chs : List Channel} {ch : Channel}
    (h : ch ∈ Table.values (c.keepChannels chs).channels) :
    ch ∈ chs ∨ ch ∈ Table.values c.channels := by
  unfold keepChannels at h
  induction chs generalizing c with
  | nil => exact .inr h
  | cons ch' chs ih =>
    rcases ih h with hin | hin
    · exact .inl (List.mem_cons_of_mem ch' hin)
    · obtain ⟨e, he, rfl⟩ := List.mem_map.mp hin
      rcases Table.mem_of_mem_put he with rfl | he
      · exact .inl List.mem_cons_self
      · exact .inr (List.mem_map_of_mem he)

/-- The channels that are left when channels are dropped were there before. -/
theorem mem_values_dropChannels {c : Cache} {ids : List Snowflake} {ch : Channel}
    (h : ch ∈ Table.values (c.dropChannels ids).channels) :
    ch ∈ Table.values c.channels := by
  rw [dropChannels_channels] at h
  obtain ⟨e, he, rfl⟩ := List.mem_map.mp h
  exact List.mem_map_of_mem (List.mem_of_mem_filter he)

/-- The channels that are left when a server is dropped were there before. -/
theorem mem_values_dropServer {c : Cache} {g : Snowflake} {ch : Channel}
    (h : ch ∈ Table.values (c.dropServer g).2.channels) : ch ∈ Table.values c.channels := by
  -- The channels go from a cache that has lost the server and nothing else.
  have hall : ch ∈ Table.values (dropChannels { c with servers := Table.drop g c.servers }
    ((c.channelsOf g).map Channel.id)).channels := h
  have hold := mem_values_dropChannels hall
  exact hold

/-- A server that is dropped takes along every channel that names it. -/
theorem Filed.server_of_mem_dropServer {c : Cache} (hf : c.Filed) {g : Snowflake} {ch : Channel}
    (h : ch ∈ Table.values (c.dropServer g).2.channels) : ch.server ≠ some g := by
  intro hg
  have hin : ch ∈ Table.values c.channels := mem_values_dropServer h
  -- The channel is one of those that go, so nothing stands under its id.
  have hgone : (c.dropServer g).2.channel? ch.id = none := by
    have hc : Filed { c with servers := Table.drop g c.servers } :=
      { hf with servers := hf.servers.drop g }
    have hmem : ch.id ∈ (c.channelsOf g).map Channel.id :=
      List.mem_map_of_mem (List.mem_filter.mpr ⟨hin, by simpa using hg⟩)
    rw [Cache.dropServer, hc.channel?_dropChannels]
    exact if_pos hmem
  have hstays : (c.dropServer g).2.channel? ch.id = some ch :=
    (hf.dropServer g).channels.find?_key h
  rw [hgone] at hstays
  cases hstays

namespace Owned

variable {c c' : Cache} {strays strays' : List Channel}

/-- Without channels nothing has to be owned. -/
theorem empty (capacity : Int) : Owned { capacity } strays := by
  intro ch hch
  cases hch

/-- Fewer channels, servers that are all still there, and more strays. -/
theorem mono (h : c.Owned strays)
    (hc : ∀ ch ∈ Table.values c'.channels, ch ∈ Table.values c.channels)
    (hs : ∀ g, (c.server? g).isSome → (c'.server? g).isSome) (hin : strays ⊆ strays') :
    c'.Owned strays' := fun ch hch g hg =>
  (h ch (hc ch hch) g hg).imp (hs g) (fun h => hin h)

/-- Nothing happens to the channels and to the servers. -/
theorem of_same (h : c.Owned strays) (hc : c'.channels = c.channels)
    (hs : c'.servers = c.servers) : c'.Owned strays := by
  refine h.mono (fun ch hch => ?_) (fun g hg => ?_) (List.Subset.refl _)
  · rwa [hc] at hch
  · rwa [server?, hs]

/-- A server is kept. -/
theorem keepServer (h : c.Owned strays) (g : Server) : (c.keepServer g).Owned strays :=
  h.mono (fun _ hch => hch) (fun _ hg => Table.isSome_find?_put hg) (List.Subset.refl _)

/-- Channels are kept, each of a cached server or a stray. -/
theorem keepChannels (h : c.Owned strays) {chs : List Channel}
    (hchs : ∀ ch ∈ chs, ∀ g, ch.server = some g → (c.server? g).isSome ∨ ch ∈ strays) :
    (c.keepChannels chs).Owned strays := by
  intro ch hch g hg
  rw [server?, keepChannels_servers]
  rcases mem_values_keepChannels hch with hin | hin
  · exact hchs ch hin g hg
  · exact h ch hin g hg

/-- Channels are dropped. -/
theorem dropChannels (h : c.Owned strays) (ids : List Snowflake) :
    (c.dropChannels ids).Owned strays :=
  h.mono (fun _ => mem_values_dropChannels)
    (fun g hg => by rwa [server?, dropChannels_servers]) (List.Subset.refl _)

/-- A server is dropped, with every channel that names it. -/
theorem dropServer (h : c.Owned strays) (hf : c.Filed) (id : Snowflake) :
    (c.dropServer id).2.Owned strays := by
  intro ch hch g hg
  have hne : g ≠ id := fun he => hf.server_of_mem_dropServer hch (he ▸ hg)
  have hserver : (c.dropServer id).2.server? g = c.server? g := by
    rw [Cache.dropServer, server?, dropChannels_servers]
    exact Table.find?_drop_of_ne hne c.servers
  rw [hserver]
  exact h ch (mem_values_dropServer hch) g hg

end Owned

end Cache

namespace Session

variable {s : Session} {strays : List Channel} {now : Instant}

/-- A call on the reactions of a message leaves the channels owned. -/
theorem owned_applyCall (h : s.cache.Owned strays) (id : Snowflake) (call : ReactionCall) :
    (s.applyCall id call).1.cache.Owned strays := by
  rcases s.applyCall_cases id call with hs | ⟨m, answer, m', -, -, hs⟩
  · rw [hs]
    exact h
  · rw [hs]
    exact h.of_same rfl rfl

/-- What a notice brings is owned, but for its strays. -/
theorem owned_enter (h : s.cache.Owned strays) {n : Notice} (hheard : s.hears n = true)
    (hstrays : n.strays ⊆ strays) : (s.enter now n).1.cache.Owned strays := by
  cases n with
  | reactionAdd c m u e => exact owned_applyCall h m _
  | reactionRemove c m u e => exact owned_applyCall h m _
  | reactionRemoveAll c m => exact owned_applyCall h m _
  | reactionRemoveEmoji c m e => exact owned_applyCall h m _
  | messageCreate c m author content reactions =>
    simp only [enter, receive]
    split
    · exact h.of_same rfl rfl
    · rename_i answer msg _
      refine h.of_same ?_ ?_
      all_goals rcases (s.cache.keepUser author).keepMessage_cases msg with
        ⟨-, he⟩ | ⟨k, -, -, he⟩ <;> simp only [releaseMessages, he] <;> rfl
  | channelCreate ch =>
    -- A new channel is heard of only when its server is cached.
    have hone : ∀ ch' ∈ [ch], ∀ g, ch'.server = some g →
        (s.cache.server? g).isSome ∨ ch' ∈ strays := by
      intro ch' hch' g hg
      refine .inl ?_
      rw [List.mem_singleton.mp hch'] at hg
      simp only [hears, Notice.channel?, Notice.server?, hg] at hheard
      simpa using hheard
    exact h.keepChannels hone
  | ready user channels =>
    have huser : (s.cache.keepUser user).Owned strays := h.of_same rfl rfl
    refine huser.keepChannels fun ch hch g hg => .inr (hstrays ?_)
    exact List.mem_filter.mpr ⟨hch, by simp [hg]⟩
  | serverCreate server channels =>
    refine (h.keepServer server).keepChannels fun ch hch g hg => ?_
    by_cases hown : g = server.id
    · left
      rw [hown]
      simp [Cache.server?, Cache.keepServer]
    · exact .inr (hstrays (List.mem_filter.mpr ⟨hch, by simpa [hg] using hown⟩))
  | messageDelete c m => exact h
  | channelDelete c => exact h
  | serverDelete g unavailable => exact h

/-- What a notice leaves behind is owned. -/
theorem owned_leave (h : s.cache.Owned strays) (hf : s.cache.Filed) (n : Notice) :
    (s.leave n).cache.Owned strays := by
  cases n with
  | messageDelete c m => exact h.of_same rfl rfl
  | channelDelete c =>
    simp only [leave, releaseChannels_cache]
    exact h.dropChannels [c]
  | serverDelete g unavailable =>
    simp only [leave, releaseChannels_cache]
    exact h.dropServer hf g
  | _ => exact h

/-- A frame adds at most its strays to the channels without a cached server. -/
theorem owned_acceptFrame {b : Bool} (hh : s.handlers = .standard b) (hf : s.cache.Filed)
    (h : s.cache.Owned strays) (v : Value) :
    (s.acceptFrame now v).session.cache.Owned (strays ++ Notice.straysOf v) := by
  have hold : s.cache.Owned (strays ++ Notice.straysOf v) :=
    h.mono (fun _ hch => hch) (fun _ hg => hg) (List.subset_append_left _ _)
  rw [acceptFrame_standard hh v]
  cases hn : Notice.ofFrame? v with
  | none => exact hold
  | some n =>
    have hstrays : n.strays ⊆ strays ++ Notice.straysOf v := by
      simp [Notice.straysOf, hn]
    -- A server is only known to take its channels along while all channels stand under their ids.
    exact (take_keeps (P := fun s =>
        s.cache.Filed ∧ s.cache.Owned (strays ++ Notice.straysOf v)) now s n
      (fun _ _ h => h) (fun hheard => ⟨filed_enter now hf n, owned_enter hold hheard hstrays⟩)
      (fun _ h => ⟨filed_leave h.1 n, owned_leave h.2 h.1 n⟩) ⟨hf, hold⟩).2

/-! ## A server that goes -/

/-- A server that goes takes along all channels that name it; one that is not cached is not heard
of. -/
theorem acceptFrame_serverDelete {b : Bool} (hh : s.handlers = .standard b)
    (hr : s.lanes.running = true) (hf : s.cache.Filed) {v : Value} {g : Snowflake}
    {unavailable : Bool} (hv : Notice.ofFrame? v = some (.serverDelete g unavailable)) :
    ((s.cache.server? g).isSome → (s.acceptFrame now v).session.cache.channelsOf g = []) ∧
      (s.cache.server? g = none → (s.acceptFrame now v).session = s) := by
  rw [acceptFrame_standard hh v, hv]
  dsimp only
  constructor
  · -- A server that is cached is heard to go, and nothing about it can fail.
    intro hcached
    have hheard : s.hears (.serverDelete g unavailable) = true := by
      simp [hears, Notice.channel?, Notice.server?, hcached]
    have hdone : (s.take now (.serverDelete g unavailable)).2 = none :=
      take_succeeds hr (by simp [Notice.Keyed, Notice.emojis])
    obtain ⟨lanes, htake, -⟩ := take_heard hheard hdone
    rw [htake]
    simp only [leave, releaseChannels_cache, enter]
    refine List.filter_eq_nil_iff.mpr fun ch hch => ?_
    simpa using hf.server_of_mem_dropServer hch
  · -- The session does not listen to news of a server that is not cached.
    intro hunknown
    rw [take_unheard]
    simp [hears, Notice.channel?, Notice.server?, hunknown]

/-! ## Whole runs -/

/-- The states of a session that takes in frames, each with the frames so far. -/
inductive Fed (s₀ : Session) : List Value → Session → Prop
  | nil : Fed s₀ [] s₀
  | frame {vs : List Value} {s : Session} (h : Fed s₀ vs s) (now : Instant) (v : Value) :
      Fed s₀ (vs ++ [v]) (s.acceptFrame now v).session
  /-- Registrations and what waits in the lanes may change on their own. -/
  | beside {vs : List Value} {s s' : Session} (h : Fed s₀ vs s) (hc : s'.cache = s.cache)
      (hh : s'.handlers = s.handlers) (hr : s'.lanes.running = s.lanes.running) : Fed s₀ vs s'

namespace Fed

variable {s₀ : Session} {vs : List Value}

/-- The handlers stay the first ones. -/
theorem handlers_eq (h : Fed s₀ vs s) : s.handlers = s₀.handlers := by
  induction h with
  | nil => rfl
  | frame _ now v ih => rw [acceptFrame_handlers, ih]
  | beside _ _ hh _ ih => rw [hh, ih]

/-- The lanes are served as they were at first. -/
theorem running_eq (h : Fed s₀ vs s) : s.lanes.running = s₀.lanes.running := by
  induction h with
  | nil => rfl
  | frame _ now v ih => rw [acceptFrame_running, ih]
  | beside _ _ _ hr ih => rw [hr, ih]

/-- The cache stays filed. -/
theorem filed (h : Fed s₀ vs s) (h₀ : s₀.cache.Filed) : s.cache.Filed := by
  induction h with
  | nil => exact h₀
  | frame _ now v ih => exact filed_acceptFrame now ih v
  | beside _ hc _ _ ih => exact hc ▸ ih

/-- Every channel that names a server names a cached one, unless it came as a stray. -/
theorem owned {b : Bool} (h : Fed s₀ vs s) (hh : s₀.handlers = .standard b)
    (hf : s₀.cache.Filed) (h₀ : s₀.cache.Owned []) :
    s.cache.Owned (vs.flatMap Notice.straysOf) := by
  induction h with
  | nil => exact h₀
  | frame hpast now v ih =>
    -- The strays of the frames so far, and those of the next one.
    rw [List.flatMap_append, List.flatMap_singleton]
    exact owned_acceptFrame (hpast.handlers_eq.trans hh) (hpast.filed hf) ih v
  | beside _ hc _ _ ih => exact hc ▸ ih

end Fed

/-- In every state of a new session that takes in frames, a channel that names a server names a
cached one, unless a frame has brought it as a stray; a server that goes then takes along all
channels that name it, and nothing at all happens when it is not cached. -/
theorem fed_owned {given : Value} {s₀ : Session} {vs : List Value} (hc : create given none = .ok s₀)
    (h : Fed s₀.start vs s) :
    (∀ ch ∈ Table.values s.cache.channels, ∀ g, ch.server = some g →
        (s.cache.server? g).isSome ∨ ∃ v ∈ vs, ch ∈ Notice.straysOf v) ∧
      ∀ now v g unavailable, Notice.ofFrame? v = some (.serverDelete g unavailable) →
        ((s.cache.server? g).isSome →
          (s.acceptFrame now v).session.cache.channelsOf g = []) ∧
        (s.cache.server? g = none → (s.acceptFrame now v).session = s) := by
  -- What the session was created with stays: its handlers, and the lanes that are served.
  obtain ⟨b, hb⟩ := handlers_create hc
  have hf₀ := filed_create hc
  have hfiled : s.cache.Filed := h.filed hf₀
  have hhandlers : s.handlers = .standard b := h.handlers_eq.trans hb
  have hrunning : s.lanes.running = true := h.running_eq
  constructor
  · -- Nothing was cached in the beginning, so every channel was brought by a frame.
    obtain ⟨settings, capacity, handlers, rfl⟩ := create_eq hc
    intro ch hch g hg
    refine (h.owned hb hf₀ (.empty capacity) ch hch g hg).imp_right fun hin => ?_
    exact List.mem_flatMap.mp hin
  · intro now v g unavailable hv
    exact acceptFrame_serverDelete hhandlers hrunning hfiled hv

/-- A server comes in with a channel, and the server goes. -/
theorem fed_owned_left : ∃ (s₀ s : Session) (vs : List Value) (leave : Value),
    create .null none = .ok s₀ ∧ Fed s₀.start vs s ∧
      s.cache.channelsOf 1 = [⟨2, "", some 1⟩] ∧
      (s.acceptFrame 7 leave).session.cache.channelsOf 1 = [] := by
  -- One frame brings the server with its channel, the other one takes the server away.
  let s₀ : Session :=
    { settings := Settings.defaults, cache := { capacity := 1000 }, handlers := .standard false }
  let join : Value := .map [(.text "t", .text "GUILD_CREATE"), (.text "d", .map
    [(.text "id", .int 1), (.text "channels", .list [.map [(.text "id", .int 2)]])])]
  let leave : Value := .map [(.text "t", .text "GUILD_DELETE"), (.text "d", .map
    [(.text "id", .int 1)])]
  have hcreate : create .null none = .ok s₀ := rfl
  have hfed : Fed s₀.start [join] (s₀.start.acceptFrame 3 join).session := .frame .nil 3 join
  have hgone := ((fed_owned hcreate hfed).2 7 leave 1 false rfl).1 rfl
  exact ⟨s₀, _, [join], leave, hcreate, hfed, rfl, hgone⟩

/-- A server comes in with a channel that names another one. The channel is cached without the
server it names, and stays when that server goes. -/
theorem fed_stray : ∃ (s₀ s : Session) (vs : List Value) (leave : Value) (ch : Channel),
    create .null none = .ok s₀ ∧ Fed s₀.start vs s ∧
      Notice.ofFrame? leave = some (.serverDelete 99 false) ∧
      s.cache.channel? 2 = some ch ∧ ch.server = some 99 ∧ s.cache.server? 99 = none ∧
      (s.acceptFrame 7 leave).session.cache.channel? 2 = some ch := by
  -- The channel comes with server 1 and names server 99.
  let s₀ : Session :=
    { settings := Settings.defaults, cache := { capacity := 1000 }, handlers := .standard false }
  let join : Value := .map [(.text "t", .text "GUILD_CREATE"), (.text "d", .map
    [(.text "id", .int 1), (.text "channels", .list
      [.map [(.text "id", .int 2), (.text "guild_id", .int 99)]])])]
  let leave : Value := .map [(.text "t", .text "GUILD_DELETE"), (.text "d", .map
    [(.text "id", .int 99)])]
  have hcreate : create .null none = .ok s₀ := rfl
  have hfed : Fed s₀.start [join] (s₀.start.acceptFrame 3 join).session := .frame .nil 3 join
  exact ⟨s₀, _, [join], leave, ⟨2, "", some 99⟩, hcreate, hfed, rfl, rfl, rfl, rfl, rfl⟩

end Session

end Switchboard
