import Switchboard.Proofs.Session.Outcome

/-!
# Frames that come twice

What a notice brings is there already when it comes again at the same instant, and what it takes
away is gone already: entering twice is entering once (`enter_twice`), and so it is for notices as a
whole (`take_twice`) and for frames (`acceptFrame_twice`), apart from the lanes, in which the event
of a notice stands once for each time that it came. A message that comes again takes its own place
as the newest one, so that no other one has to make room for it a second time (`keepMessage_twice`).
-/

namespace Switchboard

/-! ## Reactions -/

/-- A user that is added twice is there once. -/
theorem insertUser_twice (u : Snowflake) (us : List Snowflake) :
    insertUser u (insertUser u us) = insertUser u us := by
  induction us with
  | nil => simp [insertUser]
  | cons v vs ih =>
    by_cases hlt : u < v
    · simp [insertUser, hlt]
    · by_cases heq : u = v
      · simp [insertUser, heq]
      · simp [insertUser, hlt, heq, ih]

namespace Message

/-- A user that reacts twice reacts once. -/
theorem react_twice (m : Message) (e : Emoji) (u : Snowflake) :
    ((m.react e u).2.react e u).2 = (m.react e u).2 := by
  have hfind : (m.react e u).2.reaction? e =
      some ⟨e, insertUser u (((m.reaction? e).map Reaction.users).getD [])⟩ :=
    Table.find?_put_self ..
  rw [react, hfind]
  simp only [Option.map_some, Option.getD_some, insertUser_twice]
  rw [Table.put_of_find? hfind]

/-- A reaction that is taken back twice is taken back once. -/
theorem unreact_twice (m : Message) (e : Emoji) (u : Snowflake) :
    ((m.unreact e u).2.unreact e u).2 = (m.unreact e u).2 := by
  -- There is no record, the user was its last one, or others are left.
  cases hr : m.reaction? e with
  | none =>
    have hsame : m.unreact e u = (none, m) := by simp only [unreact, hr]
    rw [hsame, hsame]
  | some r =>
    cases hrest : (r.users.filter (· != u)).isEmpty with
    | true =>
      have hgone : m.unreact e u =
          (none, { m with reactions := Table.drop e.key m.reactions }) := by
        simp only [unreact, hr, hrest, if_true]
      have hnone : (m.unreact e u).2.reaction? e = none := by
        rw [hgone]
        exact Table.find?_drop_self ..
      rw [unreact, hnone]
    | false =>
      have hleft : m.unreact e u =
          (some ⟨r.emoji, r.users.filter (· != u)⟩,
            { m with
              reactions := Table.put e.key ⟨r.emoji, r.users.filter (· != u)⟩ m.reactions }) := by
        simp [unreact, hr, hrest]
      have hfind : (m.unreact e u).2.reaction? e =
          some ⟨r.emoji, r.users.filter (· != u)⟩ := by
        rw [hleft]
        exact Table.find?_put_self ..
      rw [unreact, hfind]
      simp only [List.filter_filter, Bool.and_self, hrest, Bool.false_eq_true, if_false]
      rw [Table.put_of_find? hfind]

/-- An emoji that is dropped twice is dropped once. -/
theorem dropEmoji_twice (m : Message) (e : Emoji) :
    ((m.dropEmoji e).2.dropEmoji e).2 = (m.dropEmoji e).2 := by
  simp [dropEmoji, Table.drop, List.filter_filter]

/-- A call that is made twice leaves the message as one does. -/
theorem perform_twice {m m' : Message} {call : ReactionCall} {answer : ReactionAnswer}
    (h : m.perform call = .ok (answer, m')) : ∃ answer', m'.perform call = .ok (answer', m') := by
  -- A call that succeeds writes what is there afterwards, so it writes it once more.
  cases call with
  | add e u =>
    obtain ⟨key, hkey, h⟩ := bind_eq_ok.mp h
    obtain rfl : (m.react e u).2 = m' := congrArg Prod.snd (Except.ok.inj h)
    refine ⟨_, bind_eq_ok.mpr ⟨key, hkey, congrArg Except.ok (Prod.ext rfl ?_)⟩⟩
    exact m.react_twice e u
  | remove e u =>
    obtain ⟨key, hkey, h⟩ := bind_eq_ok.mp h
    obtain rfl : (m.unreact e u).2 = m' := congrArg Prod.snd (Except.ok.inj h)
    refine ⟨_, bind_eq_ok.mpr ⟨key, hkey, congrArg Except.ok (Prod.ext rfl ?_)⟩⟩
    exact m.unreact_twice e u
  | dropEmoji e =>
    obtain ⟨key, hkey, h⟩ := bind_eq_ok.mp h
    obtain rfl : (m.dropEmoji e).2 = m' := congrArg Prod.snd (Except.ok.inj h)
    refine ⟨_, bind_eq_ok.mpr ⟨key, hkey, congrArg Except.ok (Prod.ext rfl ?_)⟩⟩
    exact m.dropEmoji_twice e
  | removeAll =>
    cases h
    exact ⟨_, rfl⟩
  | get e =>
    obtain ⟨key, hkey, h⟩ := bind_eq_ok.mp h
    cases h
    exact ⟨_, bind_eq_ok.mpr ⟨key, hkey, rfl⟩⟩
  | replace rs =>
    simp only [perform] at h ⊢
    -- The records take the place of all others, whatever these were.
    split at h
    · rename_i hall
      cases h
      exact ⟨_, if_pos hall⟩
    · cases h
  | contains e u =>
    obtain ⟨key, hkey, h⟩ := bind_eq_ok.mp h
    cases h
    exact ⟨_, bind_eq_ok.mpr ⟨key, hkey, rfl⟩⟩

end Message

/-! ## The cache -/

/-- The channel among those that are kept depends on what was there before only if none of them has
the id. -/
theorem Notice.channelAmong_const_or_same (id : Snowflake) (chs : List Channel) :
    (∃ ch, ∀ old, channelAmong id old chs = some ch) ∨ ∀ old, channelAmong id old chs = old := by
  unfold channelAmong
  induction chs with
  | nil => exact .inr fun _ => rfl
  | cons ch chs ih =>
    rcases ih with ⟨ch', h⟩ | h
    · exact .inl ⟨ch', fun _ => h _⟩
    · by_cases hid : id = ch.id
      · exact .inl ⟨ch, fun old => by rw [List.foldl_cons, h, if_pos hid]⟩
      · exact .inr fun old => by rw [List.foldl_cons, h, if_neg hid]

namespace Cache

variable {c : Cache}

/-- A server that is cached as it is need not be kept. -/
theorem keepServer_of_server? {g : Server} (h : c.server? g.id = some g) : c.keepServer g = c := by
  rw [keepServer, Table.put_of_find? h]

/-- A channel that is cached as it is need not be kept. -/
theorem keepChannel_of_channel? {ch : Channel} (h : c.channel? ch.id = some ch) :
    c.keepChannel ch = c := by
  rw [keepChannel, Table.put_of_find? h]

/-- A user that is known as they are need not be kept. -/
theorem keepUser_of_user? {u : User} (h : c.user? u.id = some u) : c.keepUser u = c := by
  rw [keepUser, Table.put_of_find? h]

/-- Keeping channels changes nothing but the channels. -/
theorem keepChannels_eq (c : Cache) (chs : List Channel) :
    c.keepChannels chs = { c with channels := (c.keepChannels chs).channels } := by
  unfold keepChannels
  induction chs generalizing c with
  | nil => rfl
  | cons ch chs ih => exact ih (c.keepChannel ch)

/-- Channels that are cached keep their places when they are kept. -/
theorem keys_keepChannels {chs : List Channel} (h : ∀ ch ∈ chs, (c.channel? ch.id).isSome) :
    Table.keys (c.keepChannels chs).channels = Table.keys c.channels := by
  unfold keepChannels
  induction chs generalizing c with
  | nil => rfl
  | cons ch chs ih =>
    have hkeys : Table.keys (c.keepChannel ch).channels = Table.keys c.channels :=
      Table.keys_put_of_mem ch (Table.isSome_find?_iff.mp (h ch List.mem_cons_self))
    refine (ih fun ch' hch' => ?_).trans hkeys
    exact Table.isSome_find?_put (h ch' (List.mem_cons_of_mem _ hch'))

/-- Channels that are kept are cached. -/
theorem isSome_channel?_of_mem {chs : List Channel} {ch : Channel} (h : ch ∈ chs) :
    ((c.keepChannels chs).channel? ch.id).isSome := by
  unfold keepChannels
  induction chs generalizing c with
  | nil => cases h
  | cons ch' chs ih =>
    rcases List.mem_cons.mp h with rfl | h
    · refine isSome_channel?_keepChannels (c.keepChannel ch) chs ?_
      simp [channel?, keepChannel]
    · exact ih h

/-- Channels that are kept twice are kept once, even if some of them have the same id. -/
theorem keepChannels_twice (hf : c.Filed) (chs : List Channel) :
    (c.keepChannels chs).keepChannels chs = c.keepChannels chs := by
  have hkeys := keys_keepChannels (c := c.keepChannels chs) fun ch hch =>
    isSome_channel?_of_mem hch
  have hchannels : ((c.keepChannels chs).keepChannels chs).channels =
      (c.keepChannels chs).channels := by
    refine Table.ext_of_find? hkeys (hkeys ▸ (hf.keepChannels chs).channels.nodup) fun id => ?_
    have honce := channel?_keepChannels (c := c) chs id
    have htwice := channel?_keepChannels (c := c.keepChannels chs) chs id
    rcases Notice.channelAmong_const_or_same id chs with ⟨ch, h⟩ | h
    · exact (htwice.trans (h _)).trans (honce.trans (h _)).symm
    · exact htwice.trans (h _)
  rw [keepChannels_eq, hchannels]

/-- A message that is kept twice is kept once, and the second time no other one makes room. -/
theorem keepMessage_twice (c : Cache) (m : Message) :
    (c.keepMessage m).2.keepMessage m = ([], (c.keepMessage m).2) := by
  rcases c.keepMessage_cases m with ⟨hnone, he⟩ | ⟨n, hroom, hn, he⟩
  · rw [he]
    exact he
  · -- The message stands last, behind those that are left of the others.
    have hall : Table.putLast m.id m c.messages = Table.drop m.id c.messages ++ [(m.id, m)] := rfl
    have hlength : n ≤ (Table.drop m.id c.messages).length := by
      rw [hall, List.length_append, List.length_singleton] at hn
      omega
    have hrest : (Table.putLast m.id m c.messages).drop n =
        (Table.drop m.id c.messages).drop n ++ [(m.id, m)] := by
      rw [hall, List.drop_append_of_le_length hlength]
    have hothers : Table.drop m.id ((Table.drop m.id c.messages).drop n) =
        (Table.drop m.id c.messages).drop n := by
      refine List.filter_eq_self.mpr fun e hin => ?_
      exact (List.mem_filter.mp (List.mem_of_mem_drop hin)).2
    have hagain : Table.putLast m.id m ((Table.putLast m.id m c.messages).drop n) =
        (Table.putLast m.id m c.messages).drop n := by
      have hlast : Table.drop m.id [(m.id, m)] = [] := by simp [Table.drop]
      rw [hrest, Table.putLast]
      unfold Table.drop at hothers hlast ⊢
      rw [List.filter_append, hothers, hlast, List.append_nil]
    have hfits : ((Table.putLast m.id m c.messages).drop n).length - c.capacity.toNat = 0 := by
      rw [List.length_drop]
      omega
    rw [he]
    simp only [keepMessage, if_neg (Int.not_le.mpr hroom), hagain, hfits, List.take_zero,
      List.drop_zero]
    rfl

/-- Keeping a message leaves the users alone. -/
@[simp] theorem keepMessage_users (c : Cache) (m : Message) :
    (c.keepMessage m).2.users = c.users := by
  rcases c.keepMessage_cases m with ⟨-, he⟩ | ⟨n, -, -, he⟩
  · rw [he]
  · rw [he]

end Cache

namespace Session

variable {s : Session} {now : Instant}

/-! ## What enters -/

/-- A call that is made twice on the reactions of a message leaves the session as one does. -/
theorem applyCall_twice (hf : s.cache.Filed) (id : Snowflake) (call : ReactionCall) :
    (s.applyCall id call).1.applyCall id call = s.applyCall id call := by
  cases hm : s.cache.message? id with
  | none =>
    have hsame : s.applyCall id call = (s, none) := by simp only [applyCall, hm]
    rw [hsame, hsame]
  | some m =>
    cases hp : m.perform call with
    | error f =>
      have hsame : s.applyCall id call = (s, some f) := by simp only [applyCall, hm, hp]
      rw [hsame, hsame]
    | ok r =>
      obtain ⟨answer, m'⟩ := r
      have honce : s.applyCall id call =
          ({ s with cache := s.cache.updateMessage m' }, none) := by
        simp only [applyCall, hm, hp]
      obtain ⟨answer', hp'⟩ := Message.perform_twice hp
      -- The changed message stands where the old one stood.
      have hid : m'.id = id :=
        (Message.perform_spec hp).1.trans (hf.messages.key_of_find? hm)
      have hfind : (s.cache.updateMessage m').message? id = some m' := by
        simp [Cache.message?, Cache.updateMessage, hid]
      have hagain : (s.cache.updateMessage m').updateMessage m' = s.cache.updateMessage m' := by
        rw [Cache.updateMessage, Table.put_of_find? (hid ▸ hfind)]
      rw [honce]
      simp only [applyCall, hfind, hp', hagain]

/-- A message that is received twice is received once. -/
theorem receive_twice (s : Session) (m : Message) (reactions : List Reaction) :
    (s.receive m reactions).1.receive m reactions = s.receive m reactions := by
  -- The reactions cannot be put either time, or the message is kept either time.
  cases hp : m.perform (.replace reactions) with
  | error f =>
    have hsame (s : Session) : s.receive m reactions = (s, some f) := by simp only [receive, hp]
    rw [hsame, hsame]
  | ok r =>
    obtain ⟨answer, m'⟩ := r
    have honce (s : Session) : s.receive m reactions =
        (releaseMessages { s with cache := (s.cache.keepMessage m').2 } (s.cache.keepMessage m').1,
          none) := by
      simp only [receive, hp]
    rw [honce s, honce]
    simp only [releaseMessages, Cache.keepMessage_twice]
    rfl

/-- Receiving a message leaves the users alone. -/
theorem receive_users (s : Session) (m : Message) (reactions : List Reaction) :
    (s.receive m reactions).1.cache.users = s.cache.users := by
  unfold receive
  split
  · rfl
  · exact Cache.keepMessage_users _ _

/-- What a notice brings is there when it comes again at the same instant. -/
theorem enter_twice (hf : s.cache.Filed) (now : Instant) (n : Notice) :
    (s.enter now n).1.enter now n = s.enter now n := by
  cases n with
  | reactionAdd c m u e => exact applyCall_twice hf m _
  | reactionRemove c m u e => exact applyCall_twice hf m _
  | reactionRemoveAll c m => exact applyCall_twice hf m _
  | reactionRemoveEmoji c m e => exact applyCall_twice hf m _
  | messageCreate c m author content reactions =>
    simp only [enter]
    -- The author that was kept is still there, as the message drives out no users.
    have huser (s : Session) (m : Message) : Cache.keepUser
        (receive { s with cache := s.cache.keepUser author } m reactions).1.cache author =
        (receive { s with cache := s.cache.keepUser author } m reactions).1.cache := by
      refine Cache.keepUser_of_user? ?_
      rw [Cache.user?, receive_users]
      exact Table.find?_put_self ..
    rw [huser]
    exact receive_twice _ _ _
  | channelCreate ch =>
    have hchannel : (s.cache.keepChannel ch).channel? ch.id = some ch := Table.find?_put_self ..
    simp only [enter, Cache.keepChannel_of_channel? hchannel]
  | ready user channels =>
    -- What came first is still there when all has come.
    have huser : ((s.cache.keepUser user).keepChannels channels).keepUser user =
        (s.cache.keepUser user).keepChannels channels := by
      refine Cache.keepUser_of_user? ?_
      rw [Cache.keepChannels_eq]
      exact Table.find?_put_self ..
    simp only [enter, huser, Cache.keepChannels_twice (hf.keepUser user)]
  | serverCreate g channels =>
    have hserver : ((s.cache.keepServer g).keepChannels channels).keepServer g =
        (s.cache.keepServer g).keepChannels channels := by
      refine Cache.keepServer_of_server? ?_
      rw [Cache.keepChannels_eq]
      exact Table.find?_put_self ..
    simp only [enter, hserver, Cache.keepChannels_twice (hf.keepServer g)]
  | messageDelete c m => rfl
  | channelDelete c => rfl
  | serverDelete g unavailable => rfl

/-- A notice that is heard is heard again once what it brings has entered. -/
theorem hears_enter (now : Instant) {n : Notice} (h : s.hears n = true) :
    (s.enter now n).1.hears n = true := by
  obtain ⟨hchannel, hserver⟩ := hears_iff.mp h
  refine hears_iff.mpr ⟨fun c hc => ?_, fun g hg => ?_⟩
  · rw [Cache.channel?, (enter_places now hc).2]
    exact hchannel c hc
  · cases n with
    | channelCreate ch => exact hserver g hg
    | serverDelete g' unavailable => exact hserver g hg
    | _ => cases hg

/-- What a notice brings enters beside any lanes. -/
theorem enter_withLanes (now : Instant) (s : Session) (n : Notice) (lanes : Lanes) :
    enter now { s with lanes } n = ({ (s.enter now n).1 with lanes }, (s.enter now n).2) := by
  -- A call on the reactions does not look at the lanes.
  have hcall (id : Snowflake) (call : ReactionCall) : applyCall { s with lanes } id call =
      ({ (s.applyCall id call).1 with lanes }, (s.applyCall id call).2) := by
    unfold applyCall
    dsimp only
    split
    · rfl
    · split <;> rfl
  cases n with
  | messageCreate c m author content reactions =>
    simp only [enter, receive]
    split <;> rfl
  | reactionAdd c m u e => exact hcall m _
  | reactionRemove c m u e => exact hcall m _
  | reactionRemoveAll c m => exact hcall m .removeAll
  | reactionRemoveEmoji c m e => exact hcall m _
  | _ => rfl

/-! ## What leaves -/

/-- What a notice takes away leaves beside any lanes. -/
theorem leave_withLanes (s : Session) (n : Notice) (lanes : Lanes) :
    leave { s with lanes } n = { s.leave n with lanes } := by
  cases n with
  | channelDelete c => simp only [leave, releaseChannels_eq]
  | serverDelete g unavailable => simp only [leave, releaseChannels_eq]
  | _ => rfl

/-- A notice of a channel or a server that goes is not heard again. -/
theorem hears_leave (s : Session) {n : Notice}
    (hn : (∃ c, n = .channelDelete c) ∨ ∃ g unavailable, n = .serverDelete g unavailable) :
    (s.leave n).hears n = false := by
  rcases hn with ⟨c, rfl⟩ | ⟨g, unavailable, rfl⟩
  · have hgone : (s.leave (.channelDelete c)).cache.channel? c = none := by
      simp only [leave, releaseChannels_cache]
      exact Table.find?_drop_self ..
    simp [hears, Notice.channel?, hgone]
  · have hgone : (s.leave (.serverDelete g unavailable)).cache.server? g = none := by
      simp only [leave, releaseChannels_cache, Cache.dropServer, Cache.server?,
        Cache.dropChannels_servers]
      exact Table.find?_drop_self ..
    simp [hears, Notice.server?, hgone]

/-- A message that is deleted twice is deleted once. -/
theorem leave_message_twice (s : Session) (c m : Snowflake) :
    (s.leave (.messageDelete c m)).leave (.messageDelete c m) = s.leave (.messageDelete c m) := by
  simp [leave, Cache.dropMessage, Registry.dropScope, Table.drop, List.filter_filter]

/-! ## Notices -/

/-- A notice that brings and takes away nothing any more changes nothing but the lanes. -/
theorem take_settled (hr : s.lanes.running = true) {n : Notice} (hheard : s.hears n = true)
    (henter : s.enter now n = (s, none)) (hleave : s.leave n = s) :
    ∃ lanes, s.take now n = ({ s with lanes }, none) := by
  have hheeds : s.heeds now n = true := heeds_iff.mpr ⟨hheard, by rw [henter]⟩
  obtain ⟨lanes, htake⟩ := take_of_heeds hr hheeds
  refine ⟨lanes, Prod.ext ?_ (take_heeded hr hheeds)⟩
  rw [htake, henter, leave_withLanes, hleave]

/-- Taking a notice leaves the serving of the lanes as it is. -/
theorem take_running (now : Instant) (s : Session) (n : Notice) :
    (s.take now n).1.lanes.running = s.lanes.running := by
  obtain ⟨js, h⟩ := take_accepts now s n
  exact h.running_eq

/-- A notice that was heeded is not heard again, or it brings and takes away nothing any more. -/
theorem take_heeded_twice (hf : s.cache.Filed) (hr : s.lanes.running = true) {n : Notice}
    (h : s.heeds now n = true) :
    ∃ lanes, (s.take now n).1.take now n = ({ (s.take now n).1 with lanes }, none) := by
  obtain ⟨lanes, htake⟩ := take_of_heeds hr h
  obtain ⟨hheard, hentered⟩ := heeds_iff.mp h
  have hr' := (take_running now s n).trans hr
  -- Most notices take nothing away.
  have hstay (hleave : ∀ s : Session, s.leave n = s) :
      ∃ lanes, (s.take now n).1.take now n = ({ (s.take now n).1 with lanes }, none) := by
    rw [htake, hleave] at hr' ⊢
    refine take_settled hr' (hears_enter now hheard) ?_ (hleave _)
    rw [enter_withLanes, enter_twice hf, hentered]
  have hgone (hn : (∃ c, n = .channelDelete c) ∨ ∃ g unavailable, n = .serverDelete g unavailable) :
      ∃ lanes, (s.take now n).1.take now n = ({ (s.take now n).1 with lanes }, none) := by
    rw [htake]
    exact ⟨_, take_unheard (hears_leave _ hn)⟩
  cases n with
  | messageDelete c m =>
    rw [htake] at hr' ⊢
    exact take_settled hr' hheard rfl (leave_message_twice _ c m)
  | channelDelete c => exact hgone (.inl ⟨c, rfl⟩)
  | serverDelete g unavailable => exact hgone (.inr ⟨g, unavailable, rfl⟩)
  | _ => exact hstay fun _ => rfl

/-- A notice that is taken twice at one instant changes the session as one does, apart from the
lanes, and fails or succeeds as it did. -/
theorem take_twice (hf : s.cache.Filed) (hr : s.lanes.running = true) (now : Instant) (n : Notice) :
    ∃ lanes, (s.take now n).1.take now n = ({ (s.take now n).1 with lanes }, (s.take now n).2) := by
  -- A notice that is not heard changes nothing, so it is not heard again.
  cases hheard : s.hears n with
  | false =>
    rw [take_unheard hheard, take_unheard hheard]
    exact ⟨s.lanes, rfl⟩
  | true =>
    by_cases hfailed : (s.enter now n).2 = none
    · have hheeds : s.heeds now n = true := heeds_iff.mpr ⟨hheard, hfailed⟩
      rw [take_heeded hr hheeds]
      exact take_heeded_twice hf hr hheeds
    · -- What does not enter does not enter the second time.
      have htwice := enter_twice hf now n
      have hagain : ((s.enter now n).1.enter now n).2 ≠ none := by rwa [htwice]
      rw [take_of_enter_failed hheard hfailed,
        take_of_enter_failed (hears_enter now hheard) hagain, htwice]
      exact ⟨(s.enter now n).1.lanes, rfl⟩

/-! ## Frames -/

/-- What is refused of a packet of a topic depends on how its notice was taken, and on nothing else
of the session. -/
theorem acceptTopic_twice (hf : s.cache.Filed) (hr : s.lanes.running = true) (now : Instant)
    (p : Packet) (t : Topic) :
    ∃ lanes, ((s.acceptTopic now p t).session.acceptTopic now p t).session =
        { (s.acceptTopic now p t).session with lanes } ∧
      ((s.acceptTopic now p t).session.acceptTopic now p t).refusal =
        (s.acceptTopic now p t).refusal := by
  -- A refusal is made of the packet and the failure.
  have hrefusal (s s' : Session) (logs logs' : List LogRecord) (f : Option Failure) :
      (s.conclude p logs f).refusal = (s'.conclude p logs' f).refusal := by
    cases f <;> rfl
  unfold acceptTopic
  cases Notice.decode p t with
  | error f => exact ⟨s.lanes, rfl, rfl⟩
  | ok n =>
    dsimp only
    obtain ⟨lanes, htwice⟩ := take_twice hf hr now n
    refine ⟨lanes, ?_, ?_⟩
    · rw [conclude_session, conclude_session, htwice]
    · rw [conclude_session, htwice]
      exact hrefusal _ _ _ _ _

/-- With the standard handlers and lanes that are served, a frame that comes twice at one instant
changes the session as one does, apart from the lanes, and the same is refused of it. -/
theorem acceptFrame_twice (hf : s.cache.Filed) (hr : s.lanes.running = true) {b : Bool}
    (hh : s.handlers = .standard b) (now : Instant) (v : Value) :
    ∃ lanes, ((s.acceptFrame now v).session.acceptFrame now v).session =
        { (s.acceptFrame now v).session with lanes } ∧
      ((s.acceptFrame now v).session.acceptFrame now v).refusal =
        (s.acceptFrame now v).refusal := by
  have hh' := (acceptFrame_handlers now s v).trans hh
  -- The frame is malformed, carries no packet, or carries one of some type.
  cases hp : Packet.ofFrame v with
  | error e =>
    simp only [acceptFrame, hp]
    exact ⟨s.lanes, rfl, trivial⟩
  | ok found =>
    cases found with
    | none =>
      simp only [acceptFrame, hp]
      exact ⟨s.lanes, rfl, trivial⟩
    | some p =>
      simp only [acceptFrame, hp] at hh' ⊢
      rw [acceptPacket_standard hh', acceptPacket_standard hh]
      cases Topic.ofTag? p.type with
      | none => exact ⟨s.lanes, rfl, rfl⟩
      | some t => exact acceptTopic_twice hf hr now p t

end Session

end Switchboard
