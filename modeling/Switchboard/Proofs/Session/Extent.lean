import Switchboard.Proofs.Notice.Reads
import Switchboard.Proofs.Registry.Attached
import Switchboard.Proofs.Session.Outcome
import Switchboard.Proofs.Session.Standard

/-!
# How far a deletion goes

`Session.without` is a session from which the entities of some scopes are gone, with the
registrations at these scopes, while all else stands where it stood. What a notice takes away is
exactly that, for the scopes that it drops (`leave_eq_without`): the handling lists the channels of
a server and the messages of a channel once for the registrations and once more for the cache, and
both lists come to the same. So a packet that deletes something reaches as far as `drops` says and
no farther (`acceptPacket_extent`).
-/

namespace Switchboard

/-- The packets of the topic delete something. -/
def Topic.deletes : Topic → Bool
  | .messageDelete | .channelDelete | .serverDelete => true
  | _ => false

namespace Cache

variable {c : Cache}

/-- Messages that go by what they are go by what is found for their ids. -/
theorem Filed.filter_messages (hf : c.Filed) (p : Message → Bool) :
    (c.messages.filter fun e => !p e.2) = c.messages.filter fun e => !(c.message? e.1).any p := by
  refine List.filter_congr fun e he => ?_
  have hfound : c.message? e.1 = some e.2 := Table.find?_of_mem hf.messages.nodup he
  rw [hfound]
  rfl

/-- Dropping channels drops them and what was sent in them. -/
theorem dropChannels_eq (c : Cache) (ids : List Snowflake) :
    c.dropChannels ids =
      { c with
        channels := c.channels.filter fun e => !ids.contains e.1
        messages := c.messages.filter fun e => !ids.contains e.2.channel } := by
  rw [← c.dropChannels_channels ids, ← c.dropChannels_messages ids]
  have hservers := c.dropChannels_servers ids
  have husers := c.dropChannels_users ids
  have hcapacity := c.dropChannels_capacity ids
  cases hdrop : c.dropChannels ids
  simp_all

/-- Of the cached entities those of some scopes are gone; the users stay. -/
def without (c : Cache) (gone : Scope → Bool) : Cache :=
  { c with
    servers := c.servers.filter fun e => !gone (.server e.1)
    channels := c.channels.filter fun e => !gone (.channel e.1)
    messages := c.messages.filter fun e => !gone (.message e.1) }

end Cache

/-- The registrations at some scopes are gone. -/
def Registry.without (r : Registry) (gone : Scope → Bool) : Registry :=
  { r with files := r.files.filter fun f => !gone f.1.1 }

/-- Dropping scopes is to be without them. -/
theorem Registry.dropScopes_eq_without {r : Registry} {scopes : List Scope} {gone : Scope → Bool}
    (h : ∀ x, x ∈ scopes ↔ gone x = true) : r.dropScopes scopes = r.without gone := by
  have hfiles : (r.dropScopes scopes).files = (r.without gone).files := by
    rw [dropScopes_files]
    refine List.filter_congr fun f _ => ?_
    rw [Bool.not_inj_iff, Bool.eq_iff_iff, List.contains_iff_mem, h]
  have hid : (r.dropScopes scopes).nextId = (r.without gone).nextId := dropScopes_nextId r scopes
  cases hdrop : r.dropScopes scopes
  simp_all [without]

namespace Session

variable {s : Session} {now : Instant}

/-- The entities of some scopes are gone, and the registrations at these scopes with them. Whatever
else the session holds stays as it is and where it is. -/
def without (s : Session) (gone : Scope → Bool) : Session :=
  { s with cache := s.cache.without gone, registry := s.registry.without gone }

/-- What leaves the cache with a notice is what the notice drops. -/
theorem leave_cache (hf : s.cache.Filed) (n : Notice) :
    (s.leave n).cache = s.cache.without (s.drops n) := by
  cases n with
  | messageDelete c m =>
    simp only [leave, Cache.dropMessage, Cache.without, drops, Bool.not_false,
      List.filter_true]
    rfl
  | channelDelete c =>
    simp only [leave, releaseChannels_cache, Cache.dropChannel, Cache.without, drops,
      Bool.not_false, List.filter_true, hf.filter_messages fun m => m.channel == c]
    rfl
  | serverDelete g unavailable =>
    -- The channels are listed when the server has left already, which is no matter to them.
    have hids (id : Snowflake) : List.contains (List.map Channel.id (Cache.channelsOf
        { s.cache with servers := Table.drop g s.cache.servers } g)) id = (s.owner? id == some g) :=
      hf.contains_channelsOf g id
    simp only [leave, releaseChannels_cache, Cache.dropServer, Cache.dropChannels_eq,
      Cache.without, drops, hids, hf.filter_messages fun m => s.owner? m.channel == some g]
    rfl
  | _ => simp only [leave, Cache.without, drops, Bool.not_false, List.filter_true]

/-- What a notice takes away goes, and nothing else. -/
theorem leave_eq_without (hf : s.cache.Filed) (n : Notice) : s.leave n = s.without (s.drops n) := by
  have hregistry : (s.leave n).registry = s.registry.without (s.drops n) := by
    rw [leave_registry]
    exact Registry.dropScopes_eq_without (mem_clears_iff hf n)
  have hrest : s.leave n =
      { s with cache := (s.leave n).cache, registry := (s.leave n).registry } := by
    cases n <;> simp only [leave, releaseChannels_eq]
  rw [hrest, leave_cache hf, hregistry]
  rfl

/-- A notice that deletes something brings nothing. -/
theorem enter_deletes {p : Packet} {t : Topic} {n : Notice} (ht : t.deletes = true)
    (hn : Notice.decode p t = .ok n) : s.enter now n = (s, none) := by
  obtain ⟨htopic, -⟩ := Notice.reads_of_decode hn
  subst htopic
  cases n <;> first | rfl | cases ht

/-- With lanes that are served, and any entities cached under their ids, a packet that deletes a
cached server or channel, or a message that names a cached channel, is accepted. The entities of the
scopes that the notice drops are gone then, and the registrations at these scopes: of a server
itself, its channels and what was sent in these; of a channel itself and what was sent in it; of a
message itself. All other servers, channels, messages and registrations, and all users, are there as
before and in the same order, and nothing else has changed in the session but its lanes. -/
theorem acceptPacket_extent {b : Bool} (hh : s.handlers = .standard b)
    (hr : s.lanes.running = true) (hf : s.cache.Filed) (now : Instant) {p : Packet} {t : Topic}
    {n : Notice} (htag : t.tag = p.type) (ht : t.deletes = true) (hn : Notice.decode p t = .ok n)
    (hchannel : ∀ c, n.channel? = some c → (s.cache.channel? c).isSome)
    (hserver : ∀ g, n.server? = some g → (s.cache.server? g).isSome) :
    (s.acceptPacket now p).accepted = true ∧
      (s.acceptPacket now p).session =
        { s.without (s.drops n) with lanes := (s.acceptPacket now p).session.lanes } := by
  -- The packet takes its notice, which is heard and brings nothing.
  obtain ⟨hsession, haccepted⟩ := acceptPacket_taken now hh htag hn
  have hheard : s.hears n = true := hears_iff.mpr ⟨hchannel, hserver⟩
  have henter : s.enter now n = (s, none) := enter_deletes ht hn
  have hheeds : s.heeds now n = true := heeds_iff.mpr ⟨hheard, by rw [henter]⟩
  rw [hsession, haccepted, take_heeded hr hheeds]
  -- So what is left is what the notice leaves of the session.
  obtain ⟨lanes, htake⟩ := take_of_heeds hr hheeds
  have hleave : (s.take now n).1 = { s.without (s.drops n) with lanes } := by
    rw [htake, henter, leave_eq_without (s := { s with lanes }) hf]
    cases n <;> rfl
  rw [hleave]
  exact ⟨rfl, rfl⟩

/-- A server goes with two of four channels and their messages. A message in a channel of another
server, one in a private channel, and one in a channel that is not cached stay, and so do the
registrations at all of them and those of a message that was never cached. -/
theorem acceptPacket_extent_server : ∃ (s : Session) (p : Packet),
    s.cache.Filed ∧ Table.keys s.cache.messages = [20, 30, 21, 40, 50, 60] ∧
      Table.keys s.registry.files = [(.message 21, .messageDelete), (.channel 4, .messageCreate),
        (.message 99, .messageDelete), (.server 1, .serverLeave), (.channel 3, .messageCreate)] ∧
      p.type = "GUILD_DELETE" ∧
      Notice.decode p .serverDelete = .ok (.serverDelete 1 true) ∧
      (s.acceptPacket 7 p).accepted = true ∧
      Table.keys (s.acceptPacket 7 p).session.cache.servers = [6] ∧
      Table.keys (s.acceptPacket 7 p).session.cache.channels = [4, 5] ∧
      Table.keys (s.acceptPacket 7 p).session.cache.messages = [40, 50, 60] ∧
      Table.keys (s.acceptPacket 7 p).session.registry.files =
        [(.channel 4, .messageCreate), (.message 99, .messageDelete)] := by
  -- The server has the channels 2 and 3; channel 77 is not cached.
  let cache : Cache :=
    { servers := [(1, ⟨1, "one"⟩), (6, ⟨6, "six"⟩)]
      channels := [(2, ⟨2, "", some 1⟩), (4, ⟨4, "", none⟩), (3, ⟨3, "", some 1⟩),
        (5, ⟨5, "", some 6⟩)]
      messages := [(20, { id := 20, channel := 2 }), (30, { id := 30, channel := 3 }),
        (21, { id := 21, channel := 2, reactions := [("ok", ⟨⟨some "ok", none⟩, [9]⟩)] }),
        (40, { id := 40, channel := 4, reactions := [("ok", ⟨⟨some "ok", none⟩, [9]⟩)] }),
        (50, { id := 50, channel := 5 }), (60, { id := 60, channel := 77 })] }
  let registry : Registry :=
    { files := [((.message 21, .messageDelete), [⟨1, .message 21, .messageDelete, "a"⟩]),
        ((.channel 4, .messageCreate), [⟨2, .channel 4, .messageCreate, "b"⟩]),
        ((.message 99, .messageDelete), [⟨3, .message 99, .messageDelete, "c"⟩]),
        ((.server 1, .serverLeave), [⟨4, .server 1, .serverLeave, "d"⟩]),
        ((.channel 3, .messageCreate), [⟨5, .channel 3, .messageCreate, "e"⟩])]
      nextId := 6 }
  let s : Session :=
    { settings := [], handlers := .standard false, cache, registry, lanes := { running := true } }
  let p : Packet :=
    { type := "GUILD_DELETE", sequence := none
      data := [(.text "id", .text "1"), (.text "unavailable", .bool true)] }
  -- Everything is cached under its own id.
  have hf : s.cache.Filed :=
    ⟨⟨by decide, by decide⟩, ⟨by decide, by decide⟩, ⟨by decide, by decide⟩,
      ⟨by decide, by decide⟩⟩
  have hn : Notice.decode p .serverDelete = .ok (.serverDelete 1 true) := by decide +kernel
  have hserver (g : Snowflake) (hg : (Notice.serverDelete 1 true).server? = some g) :
      (s.cache.server? g).isSome := by
    cases hg
    rfl
  -- The general statement reduces the session to one that can be computed.
  obtain ⟨haccepted, hsession⟩ := acceptPacket_extent (b := false) rfl rfl hf 7
    (t := .serverDelete) rfl rfl hn (fun c hc => by cases hc) hserver
  refine ⟨s, p, hf, rfl, rfl, rfl, hn, haccepted, ?_⟩
  rw [hsession]
  decide +kernel

end Session

end Switchboard
