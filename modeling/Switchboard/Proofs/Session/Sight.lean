import Switchboard.Proofs.Session.Outcome

/-!
# What listeners see

`Event.Shows` says how the effect of a packet is seen in the cache, for the event of the packet. The
handling of a frame ends with a cache that shows the event that it posts (`shows_take`), although
what goes leaves the cache only after its event is submitted. `Live` lists what happens in a live
session: frames come in, drains call listeners, and the session is swept and changed in other ways.
Every call with an event goes back to the frame that posted it, and while the cache is as the frame
left it, the listener sees the whole effect (`live_sight`).
-/

namespace Switchboard

/-- The effect of a packet is seen after it, for the event of the packet: what is said about a
message holds if it is cached, and a new message is kept if any are. -/
def Event.Shows (before after : Cache) : Event → Prop
  | .reactionAdd _ _ m u e => ∀ msg, after.message? m = some msg →
    ∃ r, msg.reaction? e = some r ∧ r.contains u = true
  | .reactionRemove _ _ m u e => ∀ msg, after.message? m = some msg →
    ∀ r, msg.reaction? e = some r → r.contains u = false
  | .reactionRemoveAll _ _ m => ∀ msg, after.message? m = some msg → msg.reactions = []
  | .reactionRemoveEmoji _ _ m e => ∀ msg, after.message? m = some msg → msg.reaction? e = none
  | .messageCreate c _ m author content => 1 ≤ before.capacity →
    ∃ msg, after.message? m = some msg ∧ msg.channel = c ∧ msg.author = author ∧
      msg.content = content
  | .messageDelete _ _ m => after.message? m = none
  | .channelCreate c server name =>
    ∃ ch, after.channel? c = some ch ∧ ch.name = name ∧ ch.server = server
  | .channelDelete c _ => after.channel? c = none ∧ after.messagesOf c = []
  | .serverJoin g name => ∃ server, after.server? g = some server ∧ server.name = name
  | .serverLeave g _ => after.server? g = none ∧ after.channelsOf g = [] ∧
    ∀ ch ∈ before.channelsOf g, after.channel? ch.id = none ∧ after.messagesOf ch.id = []

/-- A message that was replaced by what came of a call keeps its author and its content. -/
theorem Message.after_replace (m : Message) (rs : List Reaction) :
    (m.after (.replace rs)).author = m.author ∧ (m.after (.replace rs)).content = m.content := by
  unfold after
  split
  · rename_i answer m' hp
    simp only [perform] at hp
    split at hp
    · cases hp
      exact ⟨rfl, rfl⟩
    · cases hp
  · exact ⟨rfl, rfl⟩

/-- No message is left in a channel when none is found there. -/
theorem Cache.Filed.messagesOf_eq_nil {c : Cache} (hf : c.Filed) {channel : Snowflake}
    (h : ∀ id m, c.message? id = some m → m.channel ≠ channel) : c.messagesOf channel = [] := by
  refine List.filter_eq_nil_iff.mpr fun m hm => ?_
  simpa using h m.id m (hf.messages.find?_key hm)

namespace Session

variable {s : Session} {now : Instant} {n : Notice}

/-- After a notice about reactions the message that it names reflects its call. -/
theorem reflects_take (hf : s.cache.Filed) (hr : s.lanes.running = true)
    (h : s.heeds now n = true) {m : Snowflake} {call : ReactionCall}
    (hcall : n.call? = some (m, call)) {msg : Message}
    (hmsg : (s.take now n).1.cache.message? m = some msg) : msg.Reflects call := by
  -- What is found of the message afterwards is what the call made of it.
  have hafter : n.messageAfter now s.owner? m (s.cache.message? m) =
      (s.cache.message? m).map (·.after call) := by
    cases n <;> cases hcall <;> simp [Notice.messageAfter, Notice.call?]
  have hroom : s.cache.RoomFor n := by cases n <;> cases hcall <;> trivial
  rw [message?_take hf hr h hroom, hafter] at hmsg
  obtain ⟨old, hold, rfl⟩ := Option.map_eq_some_iff.mp hmsg
  have henter := (heeds_iff.mp h).2
  rw [enter_call hcall] at henter
  -- The call was made on a cached message and had its effect there.
  rcases applyCall_after henter with ⟨-, hnone⟩ | ⟨old', answer, hold', hp, -⟩
  · rw [hnone] at hold
    cases hold
  · rw [hold'] at hold
    cases hold
    exact Message.reflects_of_perform hp

/-- A notice that is heeded leaves a cache that shows its event. -/
theorem shows_take (hf : s.cache.Filed) (hr : s.lanes.running = true) (h : s.heeds now n = true)
    {e : Event} (he : s.event? n = some e) : e.Shows s.cache (s.take now n).1.cache := by
  -- What is found after the notice, for each kind of entity.
  have hf' := filed_take now hf n
  have hserver := server?_take hr h
  have hchannel := channel?_take hf hr h
  have hmessage := message?_take hf hr h
  cases n with
  | reactionAdd c m u emoji =>
    cases he
    exact fun msg hmsg => reflects_take hf hr h rfl hmsg
  | reactionRemove c m u emoji =>
    cases he
    exact fun msg hmsg => reflects_take hf hr h rfl hmsg
  | reactionRemoveAll c m =>
    cases he
    exact fun msg hmsg => reflects_take hf hr h rfl hmsg
  | reactionRemoveEmoji c m emoji =>
    cases he
    exact fun msg hmsg => reflects_take hf hr h rfl hmsg
  | messageCreate c m author content reactions =>
    cases he
    -- The message is kept when there is room for any.
    intro hcap
    obtain ⟨lanes, htake⟩ := take_of_heeds hr h
    obtain ⟨msg, hmsg, henter⟩ := enter_message (heeds_iff.mp h).2
    obtain ⟨hid, hchan⟩ := hmsg ▸ Message.after_spec _ _
    obtain ⟨hauthor, hcontent⟩ := hmsg ▸ Message.after_replace _ _
    have hkept := Cache.message?_keepMessage (s.cache.keepUser author) msg hcap
    rw [hid] at hkept
    refine ⟨msg, ?_, hchan, hauthor, hcontent⟩
    rw [htake, henter]
    exact hkept
  | messageDelete c m =>
    cases he
    rw [Event.Shows, hmessage trivial]
    simp [Notice.messageAfter]
  | channelCreate ch =>
    cases he
    exact ⟨ch, by rw [hchannel]; simp [Notice.channelAfter], rfl, rfl⟩
  | channelDelete c =>
    cases he
    -- The messages in the channel that goes have gone, too.
    refine ⟨by rw [hchannel]; simp [Notice.channelAfter], ?_⟩
    refine hf'.messagesOf_eq_nil fun id msg hmsg => ?_
    rw [hmessage trivial, Notice.messageAfter] at hmsg
    simpa using (Option.filter_eq_some_iff.mp hmsg).2
  | ready user chs => cases he
  | serverCreate g chs =>
    cases he
    exact ⟨g, by rw [hserver]; simp [Notice.serverAfter], rfl⟩
  | serverDelete g unavailable =>
    cases he
    -- So have the channels of the server.
    refine ⟨by rw [hserver]; simp [Notice.serverAfter], ?_, fun ch hch => ?_⟩
    · refine List.filter_eq_nil_iff.mpr fun ch hch => ?_
      have hfound : Cache.channel? _ ch.id = some ch := hf'.channels.find?_key hch
      rw [hchannel, Notice.channelAfter] at hfound
      simpa using (Option.filter_eq_some_iff.mp hfound).2
    · -- The channel was found under its id, so what was sent in it goes with the server.
      obtain ⟨hv, hs⟩ := List.mem_filter.mp hch
      have hfound : s.cache.channel? ch.id = some ch := hf.channels.find?_key hv
      refine ⟨by rw [hchannel, hfound, Notice.channelAfter, Option.filter, hs]; rfl, ?_⟩
      refine hf'.messagesOf_eq_nil fun id msg hmsg hchan => ?_
      rw [hmessage trivial, Notice.messageAfter] at hmsg
      have hstays := (Option.filter_eq_some_iff.mp hmsg).2
      rw [hchan, owner?, hfound, Option.bind_some, hs] at hstays
      cases hstays

/-- The handling of a frame leaves a cache that shows the event of the job that it posts. -/
theorem shows_posts (hf : s.cache.Filed) {b : Bool} (hh : s.handlers = .standard b)
    (hr : s.lanes.running = true) {v : Value} {root : Root} {job : Job}
    (h : (root, job) ∈ s.posts now v) :
    ∃ e, job.signal = .event e ∧ e.Shows s.cache (s.acceptFrame now v).session.cache := by
  obtain ⟨n, e, hn, hheeds, he, -, rfl⟩ := mem_posts h
  refine ⟨e, rfl, ?_⟩
  rw [acceptFrame_standard hh, hn]
  exact shows_take hf hr hheeds he

/-! ## Live sessions -/

/-- Something that is done in a live session. -/
inductive Deed where
  /-- The handling of a frame posts a job, between a cache and another one. -/
  | posted (root : Root) (job : Job) (before after : Cache)
  /-- The embedding program submits a note. -/
  | noted (root : Root) (name : String) (listeners : List Listener)
  /-- A drain calls a listener, which sees a cache. -/
  | called (root : Root) (listener : Listener) (signal : Signal) (sees : Cache)

namespace Deed

/-- The calls in a lane that a deed asks for. -/
def asks (root : Root) : Deed → List (Listener × Signal)
  | posted r job _ _ => if r = root then job.calls else []
  | noted r name listeners => if r = root then (Job.mk (.note name r) listeners).calls else []
  | called .. => []

/-- The call in a lane that a deed is. -/
def calls (root : Root) : Deed → List (Listener × Signal)
  | called r listener signal _ => if r = root then [(listener, signal)] else []
  | posted .. | noted .. => []

end Deed

/-- What is done in a live session, oldest first, and the session after it. -/
inductive Live (s₀ : Session) : List Deed → Session → Prop
  | start : Live s₀ [] s₀
  /-- A frame is handled. -/
  | frame {ds : List Deed} {s : Session} (h : Live s₀ ds s) (now : Instant) (v : Value) :
      Live s₀
        (ds ++ (s.posts now v).map fun p =>
          .posted p.1 p.2 s.cache (s.acceptFrame now v).session.cache)
        (s.acceptFrame now v).session
  /-- A note is submitted. -/
  | note {ds : List Deed} {s : Session} (h : Live s₀ ds s) {root : Root} {name : String}
      {listeners : List Listener} {lanes : Lanes}
      (hl : s.lanes.submit root ⟨.note name root, listeners⟩ = .ok lanes) :
      Live s₀ (ds ++ [.noted root name listeners]) { s with lanes }
  /-- A drain takes a step, in which it may call a listener. -/
  | drain {ds : List Deed} {s : Session} (h : Live s₀ ds s) {root : Root} {move : Move}
      {lanes : Lanes} (hl : s.lanes.advance root = some (move, lanes)) :
      Live s₀ (ds ++ move.calls.map fun c => .called root c.1 c.2 s.cache) { s with lanes }
  /-- A sweep, a registration, or whatever else is done to a session but for its lanes and its
  handlers. -/
  | other {ds : List Deed} {s s' : Session} (h : Live s₀ ds s) (hc : s.Change s')
      (hl : s'.lanes = s.lanes) (hh : s'.handlers = s.handlers) : Live s₀ ds s'

/-- What holds at any time in a live session. -/
structure Kept (b : Bool) (ds : List Deed) (s : Session) : Prop where
  filed : s.cache.Filed
  running : s.lanes.running = true
  handlers : s.handlers = .standard b
  sound : s.lanes.Sound
  /-- What was asked for in a lane has been called or is still to be called. -/
  owed : ∀ root, ds.flatMap (Deed.asks root) = ds.flatMap (Deed.calls root) ++ s.lanes.pending root
  /-- A call is the next one of those that were asked for before it. -/
  next : ∀ past root listener signal sees future,
    ds = past ++ .called root listener signal sees :: future →
      past.flatMap (Deed.calls root) ++ [(listener, signal)] <+: past.flatMap (Deed.asks root)
  /-- A job is posted with an event that its cache shows. -/
  shown : ∀ root job before after, .posted root job before after ∈ ds →
    ∃ e, job.signal = .event e ∧ e.Shows before after

/-- An item that is not in the second of two lists stands in the first one. -/
theorem exists_split_left {α : Type} {as bs past future : List α} {a : α}
    (h : as ++ bs = past ++ a :: future) (ha : a ∉ bs) : ∃ rest, as = past ++ a :: rest := by
  rcases List.append_eq_append_iff.mp h with ⟨more, rfl, hb⟩ | ⟨more, rfl, hb⟩
  · exact absurd (by simp [hb]) ha
  · cases more with
    | nil =>
      rw [List.nil_append] at hb
      exact absurd (hb ▸ List.mem_cons_self) ha
    | cons x more =>
      obtain ⟨rfl, -⟩ := List.cons.inj hb
      exact ⟨more, rfl⟩

/-- An item of the lists that are made of some items belongs to the list of one of them. -/
theorem exists_split_flatMap {α β : Type} {f : α → List β} {as : List α} {k : Nat} {b : β}
    (h : (as.flatMap f)[k]? = some b) : ∃ past a future, as = past ++ a :: future ∧
      (past.flatMap f).length ≤ k ∧ (f a)[k - (past.flatMap f).length]? = some b := by
  induction as generalizing k with
  -- The place of the item falls into the first list, or into one of the others.
  | nil => simp at h
  | cons a as ih =>
    rw [List.flatMap_cons] at h
    by_cases hk : k < (f a).length
    · rw [List.getElem?_append_left hk] at h
      exact ⟨[], a, as, rfl, Nat.zero_le _, h⟩
    · rw [List.getElem?_append_right (Nat.le_of_not_lt hk)] at h
      obtain ⟨past, a', future, rfl, hle, hb⟩ := ih h
      refine ⟨a :: past, a', future, rfl, ?_, ?_⟩
      · rw [List.flatMap_cons, List.length_append]
        omega
      · rwa [List.flatMap_cons, List.length_append, ← Nat.sub_sub]

/-- At any time in a live session. -/
theorem Live.kept {s₀ : Session} {b : Bool} (h₀ : Kept b [] s₀) {ds : List Deed}
    (h : Live s₀ ds s) : Kept b ds s := by
  -- Every deed asks for calls, makes one, or does neither.
  induction h with
  | start => exact h₀
  | @frame ds s _ now v ih =>
    have haccepts := acceptFrame_posts now ih.handlers ih.running v
    obtain ⟨hsound, hpending⟩ := haccepts.pending ih.sound
    -- Jobs that are posted ask for calls, and make none.
    have hcalls (root : Root) (ps : List (Root × Job)) (c c' : Cache) :
        (ps.map fun p => Deed.posted p.1 p.2 c c').flatMap (Deed.calls root) = [] := by
      simp [List.flatMap_map, Deed.calls]
    have hasks (root : Root) (ps : List (Root × Job)) (c c' : Cache) :
        (ps.map fun p => Deed.posted p.1 p.2 c c').flatMap (Deed.asks root) =
          ps.flatMap fun p => if p.1 = root then p.2.calls else [] := by
      simp [List.flatMap_map, Deed.asks]
    refine ⟨filed_acceptFrame now ih.filed v, by rw [acceptFrame_running, ih.running],
      by rw [acceptFrame_handlers, ih.handlers], hsound, fun root => ?_, ?_, ?_⟩
    · rw [List.flatMap_append, List.flatMap_append, hcalls, hasks, ih.owed, hpending,
        List.append_nil, List.append_assoc]
    · -- The new deeds make no call, so the calls are those before.
      intro past root listener signal sees future hsplit
      obtain ⟨rest, hds⟩ := exists_split_left hsplit (by simp)
      exact ih.next past root listener signal sees rest hds
    · intro root job before after hmem
      rcases List.mem_append.mp hmem with hmem | hmem
      · exact ih.shown root job before after hmem
      · obtain ⟨⟨root', job'⟩, hpost, he⟩ := List.mem_map.mp hmem
        cases he
        exact shows_posts ih.filed ih.handlers ih.running hpost
  -- A note asks for the calls of its listeners.
  | @note ds s _ root name listeners lanes hl ih =>
    have hrunning : lanes.running = s.lanes.running := (Lanes.Accepts.one hl).running_eq
    refine ⟨ih.filed, hrunning.trans ih.running, ih.handlers, ih.sound.submit hl, fun r => ?_, ?_,
      fun root' job before after hmem => ?_⟩
    · rw [Lanes.pending_submit ih.sound hl r]
      simp [ih.owed r, Deed.calls, Deed.asks]
    · intro past root' listener signal sees future hsplit
      obtain ⟨rest, hds⟩ := exists_split_left hsplit (by simp)
      exact ih.next past root' listener signal sees rest hds
    · exact ih.shown root' job before after (by simpa using hmem)
  -- A drain makes the first of the calls that were asked for, or none.
  | @drain ds s _ root move lanes hl ih =>
    have hpending := Lanes.pending_advance hl
    obtain ⟨c, hc⟩ | hnone : (∃ c, move.calls = [c]) ∨ move.calls = [] := by
      cases move <;> simp [Move.calls]
    · simp only [hc, List.map_cons, List.map_nil] at hpending ⊢
      refine ⟨ih.filed, (Lanes.running_advance hl).trans ih.running, ih.handlers,
        ih.sound.advance hl, fun r => ?_, ?_, fun root' job before after hmem => ?_⟩
      · simp [ih.owed r, hpending r, Deed.calls, Deed.asks]
      · intro past root' listener signal sees future hsplit
        rcases List.eq_nil_or_concat future with rfl | ⟨future', d, rfl⟩
        · -- The call is the last deed, so it is the first one that was still to be made.
          obtain ⟨rfl, hd⟩ := List.append_inj' hsplit rfl
          cases hd
          rw [ih.owed root, hpending root, if_pos rfl, ← List.append_assoc]
          exact List.prefix_append _ _
        · rw [List.concat_eq_append, ← List.cons_append, ← List.append_assoc] at hsplit
          exact ih.next past root' listener signal sees future' (List.append_inj' hsplit rfl).1
      · exact ih.shown root' job before after (by simpa using hmem)
    · simp only [hnone, List.map_nil, List.append_nil, ite_self, List.nil_append] at hpending ⊢
      refine ⟨ih.filed, (Lanes.running_advance hl).trans ih.running, ih.handlers,
        ih.sound.advance hl, fun r => ?_, ih.next, ih.shown⟩
      rw [ih.owed r, hpending r]
  -- Other deeds leave the lanes and handlers alone.
  | other _ hc hl hh ih =>
    exact ⟨filed_reaches (.single hc) ih.filed, hl.symm ▸ ih.running, hh.trans ih.handlers,
      hl.symm ▸ ih.sound, hl.symm ▸ ih.owed, ih.next, ih.shown⟩

/-- Whatever is done in a live session with the standard handlers: a listener that is called with an
event is called for a job that the handling of a frame posted before, and the jobs of a lane are
served in the order in which they were posted. The cache that the frame left shows the whole effect
of its packet; so does the cache that the listener sees, if nothing has changed it since. -/
theorem live_sight {given : Value} {s₀ : Session} (hc : create given none = .ok s₀)
    {past future : List Deed} {root : Root} {listener : Listener} {e : Event} {sees : Cache}
    (h : Live s₀.start (past ++ .called root listener (.event e) sees :: future) s) :
    ∃ (earlier : List Deed) (job : Job) (before after : Cache) (later : List Deed),
      past = earlier ++ .posted root job before after :: later ∧
      job.signal = .event e ∧ listener ∈ job.listeners ∧
      (earlier.flatMap (Deed.asks root)).length ≤ (past.flatMap (Deed.calls root)).length ∧
      (past.flatMap (Deed.calls root)).length <
        (earlier.flatMap (Deed.asks root)).length + job.listeners.length ∧
      e.Shows before after ∧ (sees = after → e.Shows before sees) := by
  obtain ⟨b, hh⟩ := handlers_create hc
  have h₀ : Kept b [] s₀.start := by
    have hfiled := filed_create hc
    obtain ⟨settings, capacity, handlers, rfl⟩ := create_eq hc
    exact ⟨hfiled, rfl, hh, .of_nil rfl rfl, fun _ => rfl, by simp, by simp⟩
  have hkept := h.kept h₀
  -- The call is one of those that were asked for, so some deed has asked for it.
  obtain ⟨rest, hrest⟩ := hkept.next past root listener (.event e) sees future rfl
  have hasked : (past.flatMap (Deed.asks root))[(past.flatMap (Deed.calls root)).length]? =
      some (listener, .event e) := by
    rw [← hrest, List.append_assoc, List.getElem?_append_right (Nat.le_refl _), Nat.sub_self]
    rfl
  obtain ⟨earlier, d, later, hpast, hle, hd⟩ := exists_split_flatMap hasked
  have hmem := List.mem_of_getElem? hd
  have hlt := (List.getElem?_eq_some_iff.mp hd).1
  cases d with
  | called r l signal c => simp [Deed.asks] at hmem
  | noted r name listeners =>
    -- A note is told of with its name, not with an event.
    simp only [Deed.asks] at hmem
    split at hmem
    · simp [Job.calls] at hmem
    · cases hmem
  | posted r job before after =>
    by_cases hroot : r = root
    · subst hroot
      rw [Deed.asks, if_pos rfl] at hmem hlt
      obtain ⟨l, hl, hcall⟩ := List.mem_map.mp hmem
      obtain ⟨rfl, hsignal⟩ := Prod.mk.inj hcall
      obtain ⟨e', he', hshows⟩ := hkept.shown r job before after (by simp [hpast])
      obtain rfl : e = e' := Signal.event.inj (hsignal.symm.trans he')
      have hlength : job.calls.length = job.listeners.length := by simp [Job.calls]
      refine ⟨earlier, job, before, after, later, hpast, hsignal, hl, hle, ?_, hshows, ?_⟩
      · omega
      · rintro rfl
        exact hshows
    · simp [Deed.asks, hroot] at hmem

/-- A listener that is called with a reaction sees the message with the reaction. -/
theorem live_sight_reaction : ∃ (s₀ s : Session) (past : List Deed) (e : Event) (sees : Cache),
    create .null none = .ok s₀ ∧
      Live s₀.start (past ++ .called (some 1) "seer" (.event e) sees :: []) s ∧
      e = .reactionAdd 2 (some 1) 5 9 ⟨"ok", none⟩ ∧
      ((sees.message? 5).bind (·.reaction? ⟨"ok", none⟩)).map Reaction.users = some [9] ∧
      ∃ (earlier : List Deed) (job : Job) (before after : Cache) (later : List Deed),
        past = earlier ++ .posted (some 1) job before after :: later ∧
        job.signal = .event e ∧ "seer" ∈ job.listeners ∧
        (earlier.flatMap (Deed.asks (some 1))).length ≤
          (past.flatMap (Deed.calls (some 1))).length ∧
        (past.flatMap (Deed.calls (some 1))).length <
          (earlier.flatMap (Deed.asks (some 1))).length + job.listeners.length ∧
        e.Shows before after ∧ (sees = after → e.Shows before sees) := by
  let s₀ : Session :=
    { settings := Settings.defaults, cache := { capacity := 1000 }, handlers := .standard false }
  -- A server with a channel, a message in it and a reaction to the message.
  let server : Value := .map [(.text "t", .text "GUILD_CREATE"), (.text "d", .map
    [(.text "id", .int 1), (.text "channels", .list [.map [(.text "id", .int 2)]])])]
  let message : Value := .map [(.text "t", .text "MESSAGE_CREATE"), (.text "d", .map
    [(.text "id", .int 5), (.text "channel_id", .int 2),
      (.text "author", .map [(.text "id", .int 9)])])]
  let reaction : Value := .map [(.text "t", .text "MESSAGE_REACTION_ADD"), (.text "d", .map
    [(.text "channel_id", .int 2), (.text "message_id", .int 5), (.text "user_id", .int 9),
      (.text "emoji", .map [(.text "name", .text "ok")])])]
  let e : Event := .reactionAdd 2 (some 1) 5 9 ⟨"ok", none⟩
  have hcreate : create .null none = .ok s₀ := rfl
  have hstart : Live s₀.start [] s₀.start := .start
  -- The listener is attached before the frames come.
  have hattached := hstart.other (.attach s₀.start .global .reactionAdd "seer") rfl rfl
  have hframes := ((hattached.frame 3 server).frame 7 message).frame 8 reaction
  -- The session is too large to be computed with in full, so it is named.
  generalize hlast : (acceptFrame 8 _ reaction).session = s at hframes
  have hmove : (s.lanes.advance (some 1)).map Prod.fst = some (.call "seer" (.event e)) := by
    rw [← hlast]
    decide +kernel
  obtain ⟨⟨move, lanes⟩, hadvance, rfl⟩ := Option.map_eq_some_iff.mp hmove
  -- The drain calls the listener, which sees the cache as it is now.
  have hcalled := hframes.drain hadvance
  refine ⟨s₀, _, _, e, s.cache, hcreate, hcalled, rfl, ?_, live_sight hcreate hcalled⟩
  rw [← hlast]
  decide +kernel

end Session

end Switchboard
