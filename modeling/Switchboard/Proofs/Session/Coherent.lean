import Switchboard.Proofs.Cache.Coherent
import Switchboard.Proofs.Session.Filed

/-!
# Frames and sweeps keep the cache coherent

`Lived` describes the states of a session that takes in frames and is swept, with a clock that never
goes back, while nobody else writes to its cache. In all of them the cache is coherent and has room
for as many messages as the session was given at first (`lived_coherent`).
-/

namespace Switchboard.Session

/-- The cache is coherent, no message entered after an instant, and the room for messages is the
given one. -/
structure Coherent (s : Session) (t : Instant) (capacity : Int) : Prop where
  cache : s.cache.Coherent
  past : s.cache.Until t
  room : s.cache.capacity = capacity

variable {s s' : Session} {t now : Instant} {capacity : Int}

/-- Time goes on. -/
theorem Coherent.mono (h : s.Coherent t capacity) (ht : t ≤ now) : s.Coherent now capacity :=
  ⟨h.cache, h.past.mono ht, h.room⟩

/-- A call on the reactions of a cached message keeps the cache coherent. -/
theorem Coherent.applyCall (h : s.Coherent t capacity) (id : Snowflake) (call : ReactionCall) :
    (s.applyCall id call).1.Coherent t capacity := by
  rcases s.applyCall_cases id call with hs | ⟨m, answer, m', hm, hp, hs⟩
  · rw [hs]
    exact h
  · rw [hs]
    obtain ⟨hid, hchan, htime, htidy⟩ := Message.perform_spec hp
    have hown : m.id = id := h.cache.filed.messages.key_of_find? hm
    have hfind : s.cache.message? m'.id = some m := by rw [hid, hown, hm]
    have hin : m ∈ Table.values s.cache.messages := Table.mem_values_of_find? hm
    obtain ⟨hc, hu⟩ :=
      h.cache.updateMessage h.past hfind hchan htime (htidy (h.cache.tidy m hin))
    exact ⟨hc, hu, h.room⟩

/-- What a notice brings keeps the cache coherent. A message is only taken when its channel is
cached. -/
theorem Coherent.enter (h : s.Coherent now capacity) {n : Notice} (hheard : s.hears n = true) :
    (s.enter now n).1.Coherent now capacity := by
  cases n with
  | reactionAdd c m u e => exact h.applyCall m _
  | reactionRemove c m u e => exact h.applyCall m _
  | reactionRemoveAll c m => exact h.applyCall m _
  | reactionRemoveEmoji c m e => exact h.applyCall m _
  | messageCreate c m author content reactions =>
    -- The author is kept first, which changes nothing that matters here.
    have huser : (s.cache.keepUser author).Coherent := h.cache.keepUser author
    simp only [Session.enter, receive]
    split
    · exact ⟨huser, h.past, h.room⟩
    · rename_i answer msg hp
      obtain ⟨-, hchan, htime, htidy⟩ := Message.perform_spec hp
      have hcached : ((s.cache.keepUser author).channel? msg.channel).isSome := by
        rw [hchan]
        simp only [hears, Notice.channel?, Option.all_some, Bool.and_eq_true] at hheard
        exact hheard.1
      have htime' : msg.createdAt = now := htime
      obtain ⟨hc, hu, hcap⟩ := huser.keepMessage (m := msg) h.past (Int.le_of_eq htime'.symm)
        hcached (htidy (.of_nil rfl))
      exact ⟨hc, htime' ▸ hu, hcap.trans h.room⟩
  | channelCreate ch => exact ⟨h.cache.keepChannels [ch], h.past, h.room⟩
  | ready user channels =>
    refine ⟨(h.cache.keepUser user).keepChannels channels, h.past.sublist ?_, ?_⟩
    · simp only [Session.enter, Cache.keepChannels_messages]
      exact List.Sublist.refl _
    · exact (Cache.keepChannels_capacity _ channels).trans h.room
  | serverCreate g channels =>
    refine ⟨(h.cache.keepServer g).keepChannels channels, h.past.sublist ?_, ?_⟩
    · simp only [Session.enter, Cache.keepChannels_messages]
      exact List.Sublist.refl _
    · exact (Cache.keepChannels_capacity _ channels).trans h.room
  | messageDelete c m => exact h
  | channelDelete c => exact h
  | serverDelete g unavailable => exact h

/-- What a notice takes away leaves the cache coherent. -/
theorem Coherent.leave (h : s.Coherent t capacity) (n : Notice) :
    (s.leave n).Coherent t capacity := by
  -- The messages in other channels stay, in their order.
  have hchannels (c : Cache) (ids : List Snowflake) :
      (c.dropChannels ids).messages.Sublist c.messages := by
    rw [Cache.dropChannels_messages]
    exact List.filter_sublist
  cases n with
  | messageDelete c m =>
    exact ⟨h.cache.dropMessage m, h.past.sublist List.filter_sublist, h.room⟩
  | channelDelete c =>
    -- The registrations that go have nothing to do with the cache.
    simp only [Session.leave]
    refine ⟨?_, ?_, ?_⟩
    · rw [releaseChannels_cache]
      exact h.cache.dropChannels [c]
    · rw [releaseChannels_cache]
      exact h.past.sublist (hchannels s.cache [c])
    · rw [releaseChannels_cache]
      exact h.room
  | serverDelete g unavailable =>
    simp only [Session.leave]
    refine ⟨?_, ?_, ?_⟩
    · rw [releaseChannels_cache]
      exact h.cache.dropServer g
    · rw [releaseChannels_cache]
      exact h.past.sublist (hchannels _ _)
    · rw [releaseChannels_cache]
      exact (Cache.dropChannels_capacity _ _).trans h.room
  | _ => exact h

/-- A frame keeps the cache coherent. -/
theorem Coherent.acceptFrame (h : s.Coherent t capacity) (ht : t ≤ now) (v : Value) :
    (s.acceptFrame now v).session.Coherent now capacity := by
  have hnow := h.mono ht
  rcases acceptFrame_session now s v with he | ⟨n, he⟩
  · rw [he]
    exact hnow
  · rw [he]
    exact take_keeps (P := fun s => s.Coherent now capacity) now s n
      (fun _ _ h => ⟨h.cache, h.past, h.room⟩) (fun hheard => hnow.enter hheard)
      (fun _ h => h.leave n) hnow

/-- A sweep keeps the cache coherent. -/
theorem Coherent.sweep (h : s.Coherent t capacity) (ht : t ≤ now) {maxAge : Duration} {n : Nat}
    (hs : s.sweep maxAge now = .ok (n, s')) : s'.Coherent now capacity := by
  obtain ⟨cutoff, -, rfl⟩ := sweep_eq hs
  exact ⟨h.cache.dropUntil cutoff, (h.mono ht).past.sublist List.filter_sublist, h.room⟩

/-! ## Whole runs -/

/-- The states of a session that takes in frames and is swept, each with an instant that its clock
has reached. -/
inductive Lived (s₀ : Session) : Instant → Session → Prop
  | nil (t : Instant) : Lived s₀ t s₀
  | frame {t now : Instant} {s : Session} (h : Lived s₀ t s) (ht : t ≤ now) (v : Value) :
      Lived s₀ now (s.acceptFrame now v).session
  | sweep {t now : Instant} {s s' : Session} {maxAge : Duration} {n : Nat} (h : Lived s₀ t s)
      (ht : t ≤ now) (hs : s.sweep maxAge now = .ok (n, s')) : Lived s₀ now s'
  /-- Lanes, registrations and handlers may change on their own. -/
  | beside {t : Instant} {s s' : Session} (h : Lived s₀ t s) (hc : s'.cache = s.cache) :
      Lived s₀ t s'

/-- Frames and sweeps keep the cache coherent throughout. -/
theorem Lived.coherent {s₀ : Session} (h : Lived s₀ t s) (h₀ : s₀.cache = { capacity }) :
    s.Coherent t capacity := by
  induction h with
  | nil t =>
    refine ⟨h₀ ▸ .empty capacity, fun m hm => ?_, by rw [h₀]⟩
    rw [h₀] at hm
    cases hm
  | frame _ ht v ih => exact ih.acceptFrame ht v
  | sweep _ ht hs ih => exact ih.sweep ht hs
  | beside _ hc ih => exact ⟨hc ▸ ih.cache, by rw [hc]; exact ih.past, by rw [hc]; exact ih.room⟩

/-- In every state of a new session that takes in frames and is swept, with a clock that never goes
back, the cache is coherent, it has room for as many messages as the session was given, and the
messages that are too old are always the first ones. -/
theorem lived_coherent {given : Value} {s₀ : Session} (hc : create given none = .ok s₀)
    (h : Lived s₀.start t s) :
    s.cache.Coherent ∧ s.cache.capacity = s₀.cache.capacity ∧
      ∀ cutoff, ∃ n, (s.cache.dropUntil cutoff).1 = Table.values (s.cache.messages.take n) ∧
        (s.cache.dropUntil cutoff).2.messages = s.cache.messages.drop n := by
  obtain ⟨settings, capacity, handlers, rfl⟩ := create_eq hc
  have hcoherent : s.Coherent t capacity := h.coherent rfl
  exact ⟨hcoherent.cache, hcoherent.room, hcoherent.cache.dropUntil_split⟩

/-- A server with a channel comes in, then a message of that channel, and then a sweep finds the
message too young. -/
theorem lived_coherent_received : ∃ s₀ s : Session, create .null none = .ok s₀ ∧
    Lived s₀.start 12 s ∧ (Table.keys s.cache.messages = [5] ∧ s.cache.Coherent) := by
  -- A frame with a server and its channel, and one with a message in this channel.
  let s₀ : Session :=
    { settings := Settings.defaults, cache := { capacity := 1000 }, handlers := .standard false }
  let server : Value := .map [(.text "t", .text "GUILD_CREATE"), (.text "d", .map
    [(.text "id", .int 1), (.text "channels", .list [.map [(.text "id", .int 2)]])])]
  let message : Value := .map [(.text "t", .text "MESSAGE_CREATE"), (.text "d", .map
    [(.text "id", .int 5), (.text "channel_id", .int 2),
      (.text "author", .map [(.text "id", .int 9)])])]
  let s₁ : Session := (s₀.start.acceptFrame 3 server).session
  let s₂ : Session := (s₁.acceptFrame 7 message).session
  have hcreate : create .null none = .ok s₀ := rfl
  have hserver : Lived s₀.start 3 s₁ := .frame (.nil 0) (by decide) server
  have hmessage : Lived s₀.start 7 s₂ := .frame hserver (by decide) message
  -- The cutoff lies before the message, so nothing goes.
  have hsweep (s : Session) : s.sweep 10 12 = .ok ((s.cache.dropUntil 2).1.length,
      releaseMessages { s with cache := (s.cache.dropUntil 2).2 } (s.cache.dropUntil 2).1) := rfl
  have hlived : Lived s₀.start 12 _ := .sweep hmessage (by decide) (hsweep s₂)
  exact ⟨s₀, _, hcreate, hlived, by decide, (lived_coherent hcreate hlived).1⟩

end Switchboard.Session
