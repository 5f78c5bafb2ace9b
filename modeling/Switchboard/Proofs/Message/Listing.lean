import Switchboard.Proofs.Message.Ballot
import Switchboard.Proofs.Session.Outcome

/-!
# Reactions that come with a message

A payload lists the reactions of a message entry by entry, each with an emoji and its users
(`Packet.listings`). The message is cached with one record per emoji key, and of several entries
under one key the last one is kept (`Message.usersAt_withReactions`). To add the listed users one by
one keeps the users of all of them (`Message.mem_usersAt_adds`). So the cached message has the users
that it would have had in that way under the keys whose last entry lists all users of the others.
-/

namespace Switchboard

/-- An entry with users: its emoji, and its users in the order in which they are listed. -/
structure Listing where
  emoji : Emoji
  users : List Snowflake

namespace Listing

/-- The record of an entry. -/
def record (l : Listing) : Reaction := .ofUsers l.emoji l.users

/-- The calls that add the users of an entry one by one. -/
def adds (l : Listing) : List ReactionCall := l.users.map (.add l.emoji)

/-- The users of the last entry under a key. -/
def lastUsers (ls : List Listing) (key : String) : Finset Snowflake :=
  ((ls.filter (·.emoji.key == key)).getLast?.map (·.users.toFinset)).getD ∅

end Listing

/-- What an entry of the reaction list lists, if it has users. -/
def Packet.listing? (p : Packet) : Value → Option Listing
  | .map data =>
    match Fields.get data "emoji", p.reactionUsers data with
    | .map emoji, .ok users =>
      if users.isEmpty then none
      else (Emoji.decode p.type emoji).toOption.map (⟨·, users⟩)
    | _, _ => none
  | _ => none

/-- What the reaction list of a message payload lists. -/
def Packet.listings (p : Packet) : List Listing :=
  ((p.array "reactions").toOption.getD []).filterMap p.listing?

/-- The users that a message has under a key. -/
def Message.usersAt (m : Message) (key : String) : Finset Snowflake :=
  ((Table.find? key m.reactions).map (·.users.toFinset)).getD ∅

/-! ## What is decoded -/

namespace Packet

variable {p : Packet}

/-- A reaction object that decodes gives the record of what it lists. -/
theorem record_of_reactionIn {data : Fields} {found : Option Reaction}
    (h : p.reactionIn data = .ok found) : found = (p.listing? (.map data)).map Listing.record := by
  unfold reactionIn at h
  split at h
  · rename_i emoji he
    obtain ⟨users, husers, h⟩ := bind_eq_ok.mp h
    simp only [listing?, he, husers]
    split at h
    · -- Without users the emoji is not decoded.
      rename_i hempty
      cases h
      rw [if_pos hempty]
      rfl
    · rename_i hne
      obtain ⟨e, hdecode, h⟩ := bind_eq_ok.mp h
      cases h
      rw [if_neg hne, hdecode]
      rfl
  · cases h

/-- An entry has users if it lists any. -/
theorem users_ne_nil_of_listing? {entry : Value} {l : Listing} (h : p.listing? entry = some l) :
    l.users ≠ [] := by
  unfold listing? at h
  split at h
  · split at h
    · split at h
      · cases h
      · rename_i hne
        obtain ⟨e, -, rfl⟩ := Option.map_eq_some_iff.mp h
        simpa using hne
    · cases h
  · cases h

/-- So has every entry that a payload lists. -/
theorem users_ne_nil_of_mem_listings {l : Listing} (hl : l ∈ p.listings) : l.users ≠ [] := by
  obtain ⟨entry, -, hentry⟩ := List.mem_filterMap.mp hl
  exact users_ne_nil_of_listing? hentry

/-- A reaction list that decodes gives the records of what it lists. -/
theorem records_of_reactions {rs : List Reaction} (h : p.reactions = .ok rs) :
    rs = p.listings.map Listing.record := by
  obtain ⟨xs, hxs, h⟩ := bind_eq_ok.mp h
  obtain ⟨found, hfound, h⟩ := bind_eq_ok.mp h
  cases h
  have hfound : found = xs.map fun x => (p.listing? x).map Listing.record := by
    refine eq_map_of_mapM_ok (fun x _ r hr => ?_) hfound
    split at hr
    · exact record_of_reactionIn hr
    · cases hr
  rw [listings, hxs, hfound, List.filterMap_map, List.map_filterMap]
  rfl

end Packet

/-! ## The users under a key -/

/-- The record of an entry has the users that the entry lists. -/
theorem Listing.toFinset_record (l : Listing) : l.record.users.toFinset = l.users.toFinset := by
  have hmem (us : List Snowflake) (u : Snowflake) : u ∈ us.foldr insertUser [] ↔ u ∈ us := by
    induction us with
    | nil => rfl
    | cons v us ih => rw [List.foldr_cons, mem_insertUser_iff, ih, List.mem_cons]
  ext u
  rw [List.mem_toFinset, List.mem_toFinset]
  exact hmem l.users u

/-- The record of an entry with users has users. -/
theorem Listing.isEmpty_record {l : Listing} (h : l.users ≠ []) :
    l.record.users.isEmpty = false := by
  have husers := l.toFinset_record
  rw [List.isEmpty_eq_false_iff]
  intro hnil
  rw [hnil, List.toFinset_nil, eq_comm, List.toFinset_eq_empty_iff] at husers
  exact h husers

namespace Ballot

variable {b : Ballot} {m : Message} {key : String}

/-- A message has the users of the ballot that it shows. -/
theorem Shows.usersAt (h : b.Shows m) (key : String) : m.usersAt key = b.users key := by
  have hfound := h.found key
  unfold Message.usersAt
  cases hr : Table.find? key m.reactions with
  | none =>
    rw [hr] at hfound
    exact hfound.symm
  | some r =>
    rw [hr] at hfound
    exact hfound.2.users

/-- Of the records of entries the last one under a key counts. -/
theorem lastUsers_records {ls : List Listing} (h : ∀ l ∈ ls, l.users ≠ []) (key : String) :
    lastUsers (ls.map Listing.record) key = Listing.lastUsers ls key := by
  have hcounts : ls.filter (counts key ∘ Listing.record) = ls.filter (·.emoji.key == key) :=
    List.filter_congr fun l hl => by
      rw [Function.comp_apply, counts, Listing.isEmpty_record (h l hl)]
      rfl
  unfold lastUsers Listing.lastUsers
  rw [List.filter_map, hcounts, List.getLast?_map, Option.map_map]
  simp only [Function.comp_def, Listing.toFinset_record]

/-- Calls that add users one by one count for these users. -/
theorem mem_users_afterAll_add {calls : List ReactionCall}
    (h : ∀ call ∈ calls, ∃ e v, call = .add e v ∧ e.hasKey = true) {u : Snowflake} :
    u ∈ (b.afterAll calls).users key ↔
      u ∈ b.users key ∨ ∃ e, .add e u ∈ calls ∧ e.key = key := by
  induction calls generalizing b with
  | nil => simp [afterAll]
  | cons call calls ih =>
    obtain ⟨e, v, rfl, hkey⟩ := h call List.mem_cons_self
    have hstep : b.afterAll (.add e v :: calls) = (b.after (.add e v)).afterAll calls := by
      rw [afterAll, List.foldl_cons]
      exact congrArg (calls.foldl _) (if_pos hkey)
    -- The first call counts for its user under its key, and the rest as the induction says.
    have hfirst : u ∈ (b.after (.add e v)).users key ↔ u ∈ b.users key ∨ e.key = key ∧ u = v := by
      by_cases hk : key = e.key
      · simp [after, hk, or_comm]
      · simp [after, Function.update_of_ne hk, Ne.symm hk]
    rw [hstep, ih fun c hc => h c (List.mem_cons_of_mem _ hc), hfirst, or_assoc]
    simp only [List.mem_cons, ReactionCall.add.injEq, or_and_right, exists_or]
    refine or_congr_right (or_congr_left ?_)
    constructor
    · rintro ⟨hek, rfl⟩
      exact ⟨e, ⟨rfl, rfl⟩, hek⟩
    · rintro ⟨e', ⟨rfl, rfl⟩, hek⟩
      exact ⟨hek, rfl⟩

end Ballot

namespace Listing

/-- The last entry under a key is one of the list. -/
theorem exists_of_mem_lastUsers {ls : List Listing} {key : String} {u : Snowflake}
    (h : u ∈ lastUsers ls key) : ∃ l ∈ ls, l.emoji.key = key ∧ u ∈ l.users := by
  unfold lastUsers at h
  cases hlast : (ls.filter (·.emoji.key == key)).getLast? with
  | none => simp [hlast] at h
  | some l =>
    have hl := List.mem_filter.mp (List.mem_of_getLast? hlast)
    rw [hlast] at h
    exact ⟨l, hl.1, by simpa using hl.2, List.mem_toFinset.mp h⟩

/-- An entry that is the only one of its key is the last one. -/
theorem lastUsers_of_nodup {ls : List Listing} (h : (ls.map (·.emoji.key)).Nodup) {l : Listing}
    (hl : l ∈ ls) : lastUsers ls l.emoji.key = l.users.toFinset := by
  -- The entries with this key are this one alone.
  have honly : ls.filter (·.emoji.key == l.emoji.key) = [l] := by
    induction ls with
    | nil => cases hl
    | cons first ls ih =>
      obtain ⟨hnew, hrest⟩ := List.nodup_cons.mp h
      rcases List.mem_cons.mp hl with rfl | hl
      · -- No entry of the rest has its key.
        have hnone : ls.filter (·.emoji.key == l.emoji.key) = [] :=
          List.filter_eq_nil_iff.mpr fun l' hl' => by
            have hne : l'.emoji.key ≠ l.emoji.key :=
              fun he => hnew (List.mem_map.mpr ⟨l', hl', he⟩)
            simpa using hne
        simp [hnone]
      · have hne : first.emoji.key ≠ l.emoji.key :=
          fun he => hnew (List.mem_map.mpr ⟨l, hl, he.symm⟩)
        rw [List.filter_cons_of_neg (by simpa using hne), ih hrest hl]
  rw [lastUsers, honly]
  rfl

end Listing

namespace Message

variable {ls : List Listing} {key : String}

/-- Records that take the place of all leave under every key the users of the last entry. -/
theorem usersAt_withReactions (m : Message) (h : ∀ l ∈ ls, l.users ≠ []) (key : String) :
    (m.withReactions (ls.map Listing.record)).usersAt key = Listing.lastUsers ls key := by
  have hproper : ∀ r ∈ ls.map Listing.record, r.Proper := by
    intro r hr
    obtain ⟨l, -, rfl⟩ := List.mem_map.mp hr
    exact Reaction.proper_ofUsers l.emoji l.users
  have hkept := Ballot.kept_replace .empty m hproper
  rw [hkept.toShows.usersAt, ← Ballot.lastUsers_records h]
  rfl

/-- Records whose emojis have keys take the place of all in one call. -/
theorem after_replace_of_hasKeys (m : Message) {rs : List Reaction}
    (h : (ReactionCall.replace rs).hasKeys = true) :
    m.after (.replace rs) = m.withReactions rs := by
  have hperform : m.perform (.replace rs) = .ok (.done, m.withReactions rs) := if_pos h
  rw [after, hperform]

/-- The records of entries with users can be put in one call when all their emojis have keys. -/
theorem hasKeys_records_iff (h : ∀ l ∈ ls, l.users ≠ []) :
    (ReactionCall.replace (ls.map Listing.record)).hasKeys = true ↔
      ∀ l ∈ ls, l.emoji.hasKey = true := by
  rw [ReactionCall.hasKeys, List.all_map, List.all_eq_true]
  refine forall₂_congr fun l hl => ?_
  rw [Function.comp_apply, Listing.isEmpty_record (h l hl)]
  rfl

/-- Users that are added one by one are there under every key, of whichever entry they are. -/
theorem mem_usersAt_adds {m : Message} (hm : m.reactions = [])
    (h : ∀ l ∈ ls, l.emoji.hasKey = true) {u : Snowflake} :
    u ∈ ((ls.flatMap Listing.adds).foldl after m).usersAt key ↔
      ∃ l ∈ ls, l.emoji.key = key ∧ u ∈ l.users := by
  -- The calls that add are all about the emojis of entries.
  have hcalls : ∀ call ∈ ls.flatMap Listing.adds, ∃ e v, call = .add e v ∧ e.hasKey = true := by
    intro call hcall
    obtain ⟨l, hl, hcall⟩ := List.mem_flatMap.mp hcall
    obtain ⟨v, -, rfl⟩ := List.mem_map.mp hcall
    exact ⟨l.emoji, v, rfl, h l hl⟩
  have hproper : ∀ call ∈ ls.flatMap Listing.adds, call.Proper := by
    intro call hcall
    obtain ⟨e, v, rfl, -⟩ := hcalls call hcall
    trivial
  -- So the message shows the ballot that counts them.
  have hkept := (Ballot.kept_empty hm).afterAll hproper
  rw [hkept.toShows.usersAt, Ballot.mem_users_afterAll_add hcalls]
  simp only [Ballot.empty, Finset.notMem_empty, false_or, List.mem_flatMap, Listing.adds,
    List.mem_map, ReactionCall.add.injEq]
  constructor
  · rintro ⟨e, ⟨l, hl, v, hv, rfl, rfl⟩, hkey⟩
    exact ⟨l, hl, hkey, hv⟩
  · rintro ⟨l, hl, hkey, hu⟩
    exact ⟨l.emoji, ⟨l, hl, u, hu, rfl, rfl⟩, hkey⟩

/-- The users of the last entries against those of all entries: none of them is missing there, and
they are the same under a key just when no user of an entry is missing among them. -/
theorem usersAt_against_adds {m m₀ : Message} (h₀ : m₀.reactions = [])
    (hm : ∀ key, m.usersAt key = Listing.lastUsers ls key) (h : ∀ l ∈ ls, l.emoji.hasKey = true) :
    let each := (ls.flatMap Listing.adds).foldl after m₀
    (∀ key, m.usersAt key ⊆ each.usersAt key ∧
      (m.usersAt key = each.usersAt key ↔
        ∀ l ∈ ls, l.emoji.key = key → ∀ u ∈ l.users, u ∈ m.usersAt key)) ∧
    ((ls.map (·.emoji.key)).Nodup → m.usersAt = each.usersAt) := by
  intro each
  -- Who is listed last was added.
  have hsub (key : String) : m.usersAt key ⊆ each.usersAt key := by
    intro u hu
    rw [hm] at hu
    exact (mem_usersAt_adds h₀ h).mpr (Listing.exists_of_mem_lastUsers hu)
  -- The users agree under a key if nobody is listed there by an earlier entry only.
  have hiff (key : String) : m.usersAt key = each.usersAt key ↔
      ∀ l ∈ ls, l.emoji.key = key → ∀ u ∈ l.users, u ∈ m.usersAt key := by
    constructor
    · intro heq l hl hkey u hu
      rw [heq]
      exact (mem_usersAt_adds h₀ h).mpr ⟨l, hl, hkey, hu⟩
    · intro hall
      refine (hsub key).antisymm fun u hu => ?_
      obtain ⟨l, hl, hkey, hu⟩ := (mem_usersAt_adds h₀ h).mp hu
      exact hall l hl hkey u hu
  -- An entry that is alone with its key lists all users there are.
  refine ⟨fun key => ⟨hsub key, hiff key⟩, fun hnodup => funext fun key => (hiff key).mpr ?_⟩
  rintro l hl rfl u hu
  rw [hm, Listing.lastUsers_of_nodup hnodup hl]
  exact List.mem_toFinset.mpr hu

end Message

namespace Session

variable {s : Session}

/-- A message enters when the emojis of its records have keys. -/
theorem enter_message_iff {now : Instant} {c id : Snowflake} {author : User} {content : String}
    {rs : List Reaction} :
    (s.enter now (.messageCreate c id author content rs)).2 = none ↔
      (ReactionCall.replace rs).hasKeys = true := by
  cases hk : (ReactionCall.replace rs).hasKeys with
  | true =>
    have hperform (m : Message) : m.perform (.replace rs) = .ok (.done, m.withReactions rs) :=
      if_pos hk
    simp [enter, receive, hperform]
  | false => simp [enter_message_keyless hk]

/-- A packet about a message in a cached channel is accepted when all emojis that it lists with
users have keys. If any message can be cached, its message is then: it has under every key the users
of the last entry of the payload under this key. None of them is missing when the users of all
entries are added one by one to a message without reactions. They are the same under a key just when
the last entry lists all users that an entry under this key lists; so they are the same under all
keys if no two entries share one. -/
theorem acceptPacket_listings {b : Bool} (hh : s.handlers = .standard b)
    (hr : s.lanes.running = true) (now : Instant) {p : Packet}
    (htag : Topic.messageCreate.tag = p.type) {c id : Snowflake} {author : User} {content : String}
    {rs : List Reaction}
    (hn : Notice.decode p .messageCreate = .ok (.messageCreate c id author content rs))
    (hchannel : (s.cache.channel? c).isSome) (hcap : 1 ≤ s.cache.capacity) :
    ((s.acceptPacket now p).accepted = true ↔ ∀ l ∈ p.listings, l.emoji.hasKey = true) ∧
      ((s.acceptPacket now p).accepted = true →
        ∃ m, (s.acceptPacket now p).session.cache.message? id = some m ∧
          (∀ key, m.usersAt key = Listing.lastUsers p.listings key) ∧
          ∀ m₀ : Message, m₀.reactions = [] →
            let each := (p.listings.flatMap Listing.adds).foldl Message.after m₀
            (∀ key, m.usersAt key ⊆ each.usersAt key ∧
              (m.usersAt key = each.usersAt key ↔
                ∀ l ∈ p.listings, l.emoji.key = key → ∀ u ∈ l.users, u ∈ m.usersAt key)) ∧
            ((p.listings.map (·.emoji.key)).Nodup → m.usersAt = each.usersAt)) := by
  -- The packet reads as the notice of this message, which the session hears since the channel is
  -- cached.
  obtain ⟨hsession, htaken⟩ := acceptPacket_taken now hh htag hn
  have hheard : s.hears (.messageCreate c id author content rs) = true :=
    hears_iff.mpr ⟨fun c' hc' => by cases hc'; exact hchannel, fun g hg => by cases hg⟩
  -- The records of the notice are those of the entries.
  obtain ⟨-, -, -, -, -, hreactions⟩ := Notice.reads_of_decode hn
  obtain rfl := Packet.records_of_reactions hreactions
  have hlisted : ∀ l ∈ p.listings, l.users ≠ [] := fun l => Packet.users_ne_nil_of_mem_listings
  have hkeys := Message.hasKeys_records_iff hlisted
  rw [htaken, Option.isNone_iff_eq_none, take_snd hr, if_pos hheard]
  -- The notice is entered exactly if all records can be put.
  refine ⟨enter_message_iff.trans hkeys, fun hentered => ?_⟩
  have hput := enter_message_iff.mp hentered
  obtain ⟨lanes, htake⟩ := take_of_heeds hr (heeds_iff.mpr ⟨hheard, hentered⟩)
  obtain ⟨m, hm, henter⟩ := enter_message hentered
  -- The message is cached with the records put in the order of the entries.
  have hcached : (s.acceptPacket now p).session.cache.message? id = some m := by
    have hkept := Cache.message?_keepMessage (s.cache.keepUser author) m hcap
    have hid : m.id = id := by rw [hm, (Message.after_spec _ _).1]
    rw [hid] at hkept
    rw [hsession, htake, henter]
    exact hkept
  -- So under each key stand the users of the last entry.
  have husers : ∀ key, m.usersAt key = Listing.lastUsers p.listings key := by
    intro key
    rw [hm, Message.after_replace_of_hasKeys _ hput]
    exact Message.usersAt_withReactions _ hlisted key
  -- The comparison with adding one by one is about the entries alone.
  exact ⟨m, hcached, husers,
    fun m₀ h₀ => Message.usersAt_against_adds h₀ husers (hkeys.mp hput)⟩

/-- A message comes with the reactions of two users under one emoji and of one under another, and
with an entry that nobody is listed in. -/
theorem acceptPacket_listings_two : ∃ (s : Session) (p : Packet) (m : Message),
    s.handlers = .standard false ∧ s.lanes.running = true ∧ p.type = "MESSAGE_CREATE" ∧
      (s.acceptPacket 7 p).accepted = true ∧
      (s.acceptPacket 7 p).session.cache.message? 5 = some m ∧
      m.usersAt "❤" = {1, 2} ∧ m.usersAt "42" = {2} ∧ m.usersAt "no" = ∅ ∧
      ∀ m₀ : Message, m₀.reactions = [] →
        m.usersAt = ((p.listings.flatMap Listing.adds).foldl Message.after m₀).usersAt := by
  let s : Session :=
    { settings := [], handlers := .standard false, registry := { files := [], nextId := 1 },
      cache := { channels := [(2, ⟨2, "", none⟩)], capacity := 4 }, lanes := { running := true } }
  let p : Packet :=
    { type := "MESSAGE_CREATE", sequence := none
      data := [(.text "id", .text "5"), (.text "channel_id", .text "2"),
        (.text "author", .map [(.text "id", .text "9")]),
        (.text "reactions", .list [
          .map [(.text "emoji", .map [(.text "name", .text "❤")]),
            (.text "user_ids", .list [.text "1", .text "2"])],
          .map [(.text "emoji", .map [(.text "name", .text "no")])],
          .map [(.text "emoji", .map [(.text "name", .text "ok"), (.text "id", .text "42")]),
            (.text "user_ids", .list [.text "2"])]])] }
  -- What the payload reads as.
  have hn : Notice.decode p .messageCreate = .ok (.messageCreate 2 5 ⟨9, "", false⟩ ""
      [⟨⟨some "❤", none⟩, [1, 2]⟩, ⟨⟨some "ok", some 42⟩, [2]⟩]) := by decide +kernel
  obtain ⟨hkeys, hcached⟩ :=
    acceptPacket_listings (b := false) (s := s) rfl rfl 7 rfl hn rfl (by decide)
  have haccepted : (s.acceptPacket 7 p).accepted = true := hkeys.mpr (by decide +kernel)
  obtain ⟨m, hm, husers, heach⟩ := hcached haccepted
  -- The users under each of the three keys.
  refine ⟨s, p, m, rfl, rfl, rfl, haccepted, hm, ?_, ?_, ?_, fun m₀ h₀ => ?_⟩
  · rw [husers]
    decide +kernel
  · rw [husers]
    decide +kernel
  · rw [husers]
    decide +kernel
  · exact (heach m₀ h₀).2 (by decide +kernel)

/-- A message comes with one user under an emoji and another one under the same emoji with a
variation selector. To add both one by one would keep both, and the message has the last one. -/
theorem acceptPacket_overruled : ∃ (s : Session) (p : Packet) (m : Message),
    s.handlers = .standard false ∧ s.lanes.running = true ∧ p.type = "MESSAGE_CREATE" ∧
      Fields.get p.data "reactions" = .list [
        .map [(.text "emoji", .map [(.text "name", .text "❤")]),
          (.text "user_ids", .list [.text "1"])],
        .map [(.text "emoji", .map [(.text "name", .text "❤\uFE0F")]),
          (.text "user_ids", .list [.text "2"])]] ∧
      (s.acceptPacket 7 p).accepted = true ∧
      (s.acceptPacket 7 p).session.cache.message? 5 = some m ∧ m.usersAt "❤" = {2} ∧
      ((p.listings.flatMap Listing.adds).foldl Message.after
        { id := 5, channel := 2 }).usersAt "❤" = {1, 2} := by
  let s : Session :=
    { settings := [], handlers := .standard false, registry := { files := [], nextId := 1 },
      cache := { channels := [(2, ⟨2, "", none⟩)], capacity := 4 }, lanes := { running := true } }
  let p : Packet :=
    { type := "MESSAGE_CREATE", sequence := none
      data := [(.text "id", .text "5"), (.text "channel_id", .text "2"),
        (.text "author", .map [(.text "id", .text "9")]),
        (.text "reactions", .list [
          .map [(.text "emoji", .map [(.text "name", .text "❤")]),
            (.text "user_ids", .list [.text "1"])],
          .map [(.text "emoji", .map [(.text "name", .text "❤\uFE0F")]),
            (.text "user_ids", .list [.text "2"])]])] }
  let m : Message :=
    { id := 5, channel := 2, author := some 9, createdAt := 7
      reactions := [("❤", ⟨⟨some "❤", none⟩, [2]⟩)] }
  exact ⟨s, p, m, rfl, rfl, rfl, rfl, by decide +kernel⟩

end Session

end Switchboard
