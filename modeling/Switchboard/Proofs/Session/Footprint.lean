import Mathlib.Data.Set.Basic
import Switchboard.Proofs.Session.Outcome

/-!
# The footprint of a frame

The footprint of a frame is made of the servers, channels and messages that its notice `Touches`:
those that it names, the servers that own the channels it names, and the channels and messages that
belong to the servers and channels it names. A notice changes nothing outside its footprint
(`agreeAt_take`), and the footprint of another one grows by it only within its own footprint, and
only when the two had something in common before (`touches_take`).
-/

namespace Switchboard

/-- Filters that agree on the value, if there is one. -/
theorem filter_congr {α : Type} {o : Option α} {p q : α → Bool}
    (h : ∀ a, o = some a → p a = q a) : o.filter p = o.filter q := by
  cases o with
  | none => rfl
  | some a => simp only [Option.filter, h a rfl]

/-- A filter that lets the value pass, if there is one. -/
theorem filter_eq_self {α : Type} {o : Option α} {p : α → Bool} (h : ∀ a, o = some a → p a = true) :
    o.filter p = o := by
  refine (filter_congr (q := fun _ => true) h).trans ?_
  cases o <;> rfl

/-- The scope is that of a server, a channel or a message. -/
def Scope.isEntity : Scope → Bool
  | .server _ | .channel _ | .message _ => true
  | .global | .user _ => false

/-- The scopes of a channel and of the server that it names. -/
def Channel.scopes (ch : Channel) : List Scope := .channel ch.id :: ch.server.toList.map .server

/-- The scopes that a notice names. -/
def Notice.names : Notice → List Scope
  | reactionAdd c m _ _ | reactionRemove c m _ _ | reactionRemoveAll c m | reactionRemoveEmoji c m _
  | messageCreate c m _ _ _ | messageDelete c m => [.channel c, .message m]
  | channelCreate ch => ch.scopes
  | channelDelete c => [.channel c]
  | ready _ chs => chs.flatMap Channel.scopes
  | serverCreate g chs => .server g.id :: chs.flatMap Channel.scopes
  | serverDelete g _ => [.server g]

namespace Notice

variable {n : Notice}

/-- The channel with an id once channels are kept is one of them, or else the old one. -/
theorem channelAmong_cases (id : Snowflake) (old : Option Channel) (chs : List Channel) :
    (∃ ch ∈ chs, ch.id = id ∧ channelAmong id old chs = some ch) ∨
      channelAmong id old chs = old := by
  unfold channelAmong
  -- The induction is on the channels, of which the last one with the id counts.
  induction chs generalizing old with
  | nil => exact .inr rfl
  | cons ch chs ih =>
    rw [List.foldl_cons]
    rcases ih (if id = ch.id then some ch else old) with ⟨ch', hin, hid, hlast⟩ | hlast
    · exact .inl ⟨ch', List.mem_cons_of_mem ch hin, hid, hlast⟩
    · rw [hlast]
      split
      · rename_i hid
        exact .inl ⟨ch, List.mem_cons_self, hid.symm, rfl⟩
      · exact .inr rfl

/-- The notice names the channel, and the server that the channel names. -/
theorem scopes_subset_names {chs : List Channel} {ch : Channel} (hin : ch ∈ chs)
    (hchs : chs.flatMap Channel.scopes ⊆ n.names) : ch.scopes ⊆ n.names :=
  List.Subset.trans (fun _ hx => List.mem_flatMap.mpr ⟨ch, hin, hx⟩) hchs

/-- Only entities are named. -/
theorem isEntity_of_mem_names {x : Scope} (h : x ∈ n.names) : x.isEntity = true := by
  -- A channel names itself and its server.
  have hscopes {ch : Channel} (hx : x ∈ ch.scopes) : x.isEntity = true := by
    rcases List.mem_cons.mp hx with rfl | hx
    · rfl
    · obtain ⟨g, -, rfl⟩ := List.mem_map.mp hx
      rfl
  have hall {chs : List Channel} (hx : x ∈ chs.flatMap Channel.scopes) : x.isEntity = true := by
    obtain ⟨ch, -, hx⟩ := List.mem_flatMap.mp hx
    exact hscopes hx
  cases n with
  | channelCreate ch => exact hscopes h
  | ready user chs => exact hall h
  | serverCreate g chs =>
    rcases List.mem_cons.mp h with rfl | h
    · rfl
    · exact hall h
  | channelDelete | serverDelete =>
    rw [List.mem_singleton.mp h]
    rfl
  | _ =>
    rcases List.mem_pair.mp h with rfl | rfl <;> rfl

/-- The channel that the notice is about is named. -/
theorem mem_names_of_channel? {c : Snowflake} (h : n.channel? = some c) :
    Scope.channel c ∈ n.names := by
  cases n <;> cases h <;> simp [names]

/-- The server that the notice is about is named. -/
theorem mem_names_of_server? {g : Snowflake} (h : n.server? = some g) :
    Scope.server g ∈ n.names := by
  cases n with
  | channelCreate ch =>
    have hserver : ch.server = some g := h
    simp [names, Channel.scopes, hserver]
  | serverDelete g' unavailable =>
    cases h
    exact List.mem_singleton.mpr rfl
  | _ => cases h

/-- The message whose reactions the notice changes is named. -/
theorem mem_names_of_call? {m : Snowflake} {call : ReactionCall} (h : n.call? = some (m, call)) :
    Scope.message m ∈ n.names := by
  cases n <;> cases h <;> simp [names]

/-- A server other than the old one comes in only by its name. -/
theorem serverAfter_of_not_mem {id : Snowflake} {old : Option Server}
    (h : Scope.server id ∉ n.names) : n.serverAfter id old = old := by
  cases n with
  | serverCreate g chs =>
    exact if_neg fun he => h (by simp [names, he])
  | serverDelete g unavailable =>
    exact if_neg fun he => h (by simp [names, he])
  | _ => rfl

/-- A channel of a server is the old one, or the notice names both. -/
theorem channelAfter_eq_some {id g : Snowflake} {old : Option Channel} {ch : Channel}
    (h : n.channelAfter id old = some ch) (hg : ch.server = some g) :
    old = some ch ∨ Scope.channel id ∈ n.names ∧ Scope.server g ∈ n.names := by
  -- A channel that comes with the notice is named along with its server.
  have hown : ch.scopes ⊆ n.names → ch.id = id →
      Scope.channel id ∈ n.names ∧ Scope.server g ∈ n.names := by
    rintro hsub rfl
    exact ⟨hsub List.mem_cons_self, hsub (by simp [Channel.scopes, hg])⟩
  have hamong {chs : List Channel} (hchs : chs.flatMap Channel.scopes ⊆ n.names)
      (h : channelAmong id old chs = some ch) :
      old = some ch ∨ Scope.channel id ∈ n.names ∧ Scope.server g ∈ n.names := by
    rcases channelAmong_cases id old chs with ⟨ch', hin, hid, hlast⟩ | hlast
    · cases h.symm.trans hlast
      exact .inr (hown (scopes_subset_names hin hchs) hid)
    · exact .inl (hlast.symm.trans h)
  cases n with
  | channelCreate ch' =>
    simp only [channelAfter] at h
    split at h
    · rename_i hid
      cases h
      exact .inr (hown (List.Subset.refl _) hid.symm)
    · exact .inl h
  | channelDelete c =>
    simp only [channelAfter] at h
    split at h
    · cases h
    · exact .inl h
  | ready user chs => exact hamong (List.Subset.refl _) h
  | serverCreate g' chs => exact hamong (List.subset_cons_self _ _) h
  | serverDelete g' unavailable => exact .inl (Option.filter_eq_some_iff.mp h).1
  | _ => exact .inl h

/-- A message is in the channel that the old one was in, or the notice names both. -/
theorem messageAfter_eq_some {now : Instant} {owner? : Snowflake → Option Snowflake}
    {id : Snowflake} {old : Option Message} {m : Message}
    (h : n.messageAfter now owner? id old = some m) :
    (∃ m₀, old = some m₀ ∧ m₀.channel = m.channel) ∨
      Scope.message id ∈ n.names ∧ Scope.channel m.channel ∈ n.names := by
  -- A call on the reactions leaves a message in its channel.
  have hcall {m' : Snowflake} {call : ReactionCall}
      (h : (if id = m' then old.map (·.after call) else old) = some m) :
      ∃ m₀, old = some m₀ ∧ m₀.channel = m.channel := by
    split at h
    · obtain ⟨m₀, hm, rfl⟩ := Option.map_eq_some_iff.mp h
      exact ⟨m₀, hm, (m₀.after_spec call).2.symm⟩
    · exact ⟨m, h, rfl⟩
  cases n with
  | messageCreate c m' author content reactions =>
    simp only [messageAfter] at h
    split at h
    · rename_i hid
      cases h
      exact .inr ⟨by simp [names, hid], by simp [names, (Message.after_spec _ _).2]⟩
    · exact .inl ⟨m, h, rfl⟩
  | messageDelete c m' =>
    simp only [messageAfter] at h
    split at h
    · cases h
    · exact .inl ⟨m, h, rfl⟩
  | channelDelete c => exact .inl ⟨m, (Option.filter_eq_some_iff.mp h).1, rfl⟩
  | serverDelete g unavailable => exact .inl ⟨m, (Option.filter_eq_some_iff.mp h).1, rfl⟩
  | reactionAdd | reactionRemove | reactionRemoveAll | reactionRemoveEmoji => exact .inl (hcall h)
  | channelCreate | ready | serverCreate => exact .inl ⟨m, h, rfl⟩

end Notice

namespace Session

variable {s : Session} {now : Instant} {n n' : Notice} {x : Scope}

/-- The scopes that a notice has to do with: it names them, or they own what it names, or they
belong to what it names. -/
inductive Touches (s : Session) (n : Notice) : Scope → Prop
  | named {x : Scope} (h : x ∈ n.names) : Touches s n x
  /-- The server that owns a channel that is named. -/
  | owner {c g : Snowflake} (h : .channel c ∈ n.names) (hown : s.owner? c = some g) :
      Touches s n (.server g)
  /-- A channel of a server that is named. -/
  | channel {c g : Snowflake} (h : .server g ∈ n.names) (hown : s.owner? c = some g) :
      Touches s n (.channel c)
  /-- A message in a channel that is named. -/
  | message {id : Snowflake} {m : Message} (h : .channel m.channel ∈ n.names)
      (hm : s.cache.message? id = some m) : Touches s n (.message id)
  /-- A message in a channel of a server that is named. -/
  | below {id g : Snowflake} {m : Message} (h : .server g ∈ n.names)
      (hm : s.cache.message? id = some m) (hown : s.owner? m.channel = some g) :
      Touches s n (.message id)

/-- The scopes that a frame has to do with; none if it carries no notice. A server that is named
beside a channel or a message of an event is not read, so only the owner of the channel counts. -/
def footprint (s : Session) (v : Value) : Set Scope :=
  {x | ∃ n, Notice.ofFrame? v = some n ∧ s.Touches n x}

/-- Only entities are touched. -/
theorem Touches.isEntity (h : s.Touches n x) : x.isEntity = true := by
  cases h with
  | named h => exact Notice.isEntity_of_mem_names h
  | owner | channel | message | below => rfl

/-- The server of a notice's event is touched. -/
theorem touches_server {e : Event} (he : s.event? n = some e) {g : Snowflake}
    (hg : e.server? = some g) : s.Touches n (.server g) := by
  -- The owner of the channel that a notice names is touched.
  have howner {c : Snowflake} (hc : n.channel? = some c) (hown : s.owner? c = some g) :
      s.Touches n (.server g) := .owner (Notice.mem_names_of_channel? hc) hown
  cases n with
  | channelCreate ch =>
    cases he
    exact .named (Notice.mem_names_of_server? hg)
  | ready => cases he
  | serverCreate | serverDelete =>
    cases he
    cases hg
    exact .named List.mem_cons_self
  | _ =>
    cases he
    exact howner rfl hg

/-- The event of a notice is heard at scopes that the notice touches, and at some that are no
entities. -/
theorem touches_of_mem_scopes {e : Event} (he : s.event? n = some e) {x : Scope}
    (hx : x ∈ scopes e) : s.Touches n x ∨ x.isEntity = false := by
  -- Users and the global scope are no entities.
  cases x with
  | global | user => exact .inr rfl
  | server g =>
    refine .inl (touches_server he ?_)
    cases e <;> simpa [scopes, Event.server?, eq_comm] using hx
  | channel c =>
    -- A scope of the event is that of its channel or message, which the notice names.
    have hc : e.channel? = some c := by
      cases e <;> simp_all [scopes, Event.channel?]
    cases n <;> cases he <;> cases hc <;> exact .inl (.named List.mem_cons_self)
  | message m =>
    have hm : e.message? = some m := by
      cases e <;> simp_all [scopes, Event.message?]
    cases n <;> cases he <;> cases hm <;> exact .inl (.named (by simp [Notice.names]))

/-! ## What a notice leaves as it is -/

/-- Two sessions know the same at a scope: the same entity, and the same registrations. -/
structure AgreeAt (s s' : Session) (x : Scope) : Prop where
  server : ∀ id, x = .server id → s.cache.server? id = s'.cache.server? id
  channel : ∀ id, x = .channel id → s.cache.channel? id = s'.cache.channel? id
  message : ∀ id, x = .message id → s.cache.message? id = s'.cache.message? id
  files : ∀ kind, Table.find? (x, kind) s.registry.files = Table.find? (x, kind) s'.registry.files

namespace AgreeAt

variable {s' s'' : Session}

/-- A session agrees with itself. -/
theorem refl (s : Session) (x : Scope) : AgreeAt s s x :=
  ⟨fun _ _ => rfl, fun _ _ => rfl, fun _ _ => rfl, fun _ => rfl⟩

/-- Sessions that agree, the other way round. -/
theorem symm (h : AgreeAt s s' x) : AgreeAt s' s x :=
  ⟨fun id hx => (h.server id hx).symm, fun id hx => (h.channel id hx).symm,
    fun id hx => (h.message id hx).symm, fun kind => (h.files kind).symm⟩

/-- Sessions that agree with one agree. -/
theorem trans (h : AgreeAt s s' x) (h' : AgreeAt s' s'' x) : AgreeAt s s'' x :=
  ⟨fun id hx => (h.server id hx).trans (h'.server id hx),
    fun id hx => (h.channel id hx).trans (h'.channel id hx),
    fun id hx => (h.message id hx).trans (h'.message id hx),
    fun kind => (h.files kind).trans (h'.files kind)⟩

end AgreeAt

/-- What a notice drops is touched by it. -/
theorem touches_of_drops (h : s.drops n x = true) : s.Touches n x := by
  cases n with
  | messageDelete c m =>
    -- A message goes when it is named, or when it is in a channel or under a server that goes.
    cases x <;> simp only [drops, Bool.false_eq_true, beq_iff_eq] at h
    exact .named (by simp [Notice.names, h])
  | channelDelete c =>
    cases x <;> simp only [drops, Bool.false_eq_true, beq_iff_eq, Option.any_eq_true] at h
    · exact .named (by simp [Notice.names, h])
    · obtain ⟨m, hm, hc⟩ := h
      exact .message (by simp [Notice.names, hc]) hm
  | serverDelete g unavailable =>
    have hg : Scope.server g ∈ (Notice.serverDelete g unavailable).names :=
      List.mem_singleton_self _
    cases x <;> simp only [drops, Bool.false_eq_true, beq_iff_eq, Option.any_eq_true] at h
    · exact .named (by simp [Notice.names, h])
    · exact .channel hg h
    · obtain ⟨m, hm, hown⟩ := h
      exact .below hg hm hown
  | _ => cases x <;> cases h

/-- A notice changes only the servers that it touches. -/
theorem server?_take_of_not_touches (hr : s.lanes.running = true) (h : s.heeds now n = true)
    {id : Snowflake} (hx : ¬ s.Touches n (.server id)) :
    (s.take now n).1.cache.server? id = s.cache.server? id := by
  rw [server?_take hr h]
  exact Notice.serverAfter_of_not_mem fun hin => hx (.named hin)

/-- A notice changes only the channels that it touches. -/
theorem channel?_take_of_not_touches (hf : s.cache.Filed) (hr : s.lanes.running = true)
    (h : s.heeds now n = true) {id : Snowflake} (hx : ¬ s.Touches n (.channel id)) :
    (s.take now n).1.cache.channel? id = s.cache.channel? id := by
  rw [channel?_take hf hr h]
  -- The channel is not among those that the notice brings.
  have hnamed : Scope.channel id ∉ n.names := fun hin => hx (.named hin)
  have hamong {chs : List Channel} (hchs : chs.flatMap Channel.scopes ⊆ n.names) :
      Notice.channelAmong id (s.cache.channel? id) chs = s.cache.channel? id := by
    rcases Notice.channelAmong_cases id (s.cache.channel? id) chs with ⟨ch, hin, hid, -⟩ | hsame
    · refine absurd (Notice.scopes_subset_names hin hchs ?_) hnamed
      rw [← hid]
      exact List.mem_cons_self
    · exact hsame
  cases n with
  | channelCreate ch => exact if_neg fun he => hnamed (by simp [Notice.names, Channel.scopes, he])
  | channelDelete c => exact if_neg fun he => hnamed (by simp [Notice.names, he])
  | ready user chs => exact hamong (List.Subset.refl _)
  | serverCreate g chs => exact hamong (List.subset_cons_self _ _)
  | serverDelete g unavailable =>
    refine filter_eq_self fun ch hch => ?_
    -- A channel of the server that goes would be touched.
    have hother : ch.server ≠ some g := fun hg =>
      hx (.channel (g := g) (by simp [Notice.names]) (by simp [owner?, hch, hg]))
    simpa using hother
  | _ => rfl

/-- A notice changes only the messages that it touches. -/
theorem message?_take_of_not_touches (hf : s.cache.Filed) (hr : s.lanes.running = true)
    (h : s.heeds now n = true) (hroom : s.cache.RoomFor n) {id : Snowflake}
    (hx : ¬ s.Touches n (.message id)) :
    (s.take now n).1.cache.message? id = s.cache.message? id := by
  rw [message?_take hf hr h hroom]
  -- The message is none that the notice brings or changes.
  have hnamed : Scope.message id ∉ n.names := fun hin => hx (.named hin)
  have hcall {m : Snowflake} {call : ReactionCall} (hm : n.call? = some (m, call)) :
      (if id = m then (s.cache.message? id).map (·.after call) else s.cache.message? id) =
        s.cache.message? id :=
    if_neg fun he : id = m => hnamed (he ▸ Notice.mem_names_of_call? hm)
  cases n with
  | messageCreate c m author content reactions =>
    exact if_neg fun he => hnamed (by simp [Notice.names, he])
  | messageDelete c m => exact if_neg fun he => hnamed (by simp [Notice.names, he])
  | channelDelete c =>
    refine filter_eq_self fun m hm => ?_
    -- A message in the channel that goes would be touched.
    have hother : m.channel ≠ c := fun hc => hx (.message (by simp [Notice.names, hc]) hm)
    simpa using hother
  | serverDelete g unavailable =>
    refine filter_eq_self fun m hm => ?_
    -- A message under the server that goes would be touched.
    have hother : s.owner? m.channel ≠ some g := fun hown =>
      hx (.below (g := g) (by simp [Notice.names]) hm hown)
    simpa using hother
  | reactionAdd | reactionRemove | reactionRemoveAll | reactionRemoveEmoji => exact hcall rfl
  | channelCreate | ready | serverCreate => rfl

/-- A notice changes nothing but what it touches, if there is room for all messages. -/
theorem agreeAt_take (hf : s.cache.Filed) (hr : s.lanes.running = true)
    (hroom : s.cache.RoomFor n) (hx : ¬ s.Touches n x) : AgreeAt (s.take now n).1 s x := by
  cases h : s.heeds now n with
  | false =>
    -- A notice that is not heeded changes the users at most.
    obtain ⟨users, hsame⟩ := take_unheeded h
    rw [hsame]
    exact ⟨fun _ _ => rfl, fun _ _ => rfl, fun _ _ => rfl, fun _ => rfl⟩
  | true =>
    -- A notice that is heeded changes nothing of the four kinds without touching it.
    refine ⟨fun id he => ?_, fun id he => ?_, fun id he => ?_, fun kind => ?_⟩
    · exact server?_take_of_not_touches hr h (he ▸ hx)
    · exact channel?_take_of_not_touches hf hr h (he ▸ hx)
    · exact message?_take_of_not_touches hf hr h hroom (he ▸ hx)
    · rw [find?_take hf hr h (.inr hroom)]
      exact if_neg fun hd => hx (touches_of_drops hd)

/-! ## How footprints grow -/

/-- The server that owns a channel after a notice is the one that owned it before, or the notice
names both. -/
theorem owner?_take (hf : s.cache.Filed) (hr : s.lanes.running = true) {c g : Snowflake}
    (h : (s.take now n).1.owner? c = some g) :
    s.owner? c = some g ∨ Scope.channel c ∈ n.names ∧ Scope.server g ∈ n.names := by
  cases hheeds : s.heeds now n with
  | false =>
    obtain ⟨users, hsame⟩ := take_unheeded hheeds
    rw [hsame] at h
    exact .inl h
  | true =>
    -- A new owner comes with a channel that the notice brings.
    obtain ⟨ch, hch, hg⟩ := Option.bind_eq_some_iff.mp h
    rw [channel?_take hf hr hheeds] at hch
    refine (Notice.channelAfter_eq_some hch hg).imp_left fun hold => ?_
    rw [owner?, hold]
    exact hg

/-- A message after a notice is in the channel that it was in before, or the notice names both. -/
theorem message?_take_eq_some (hf : s.cache.Filed) (hr : s.lanes.running = true)
    (hroom : s.cache.RoomFor n) {id : Snowflake} {m : Message}
    (h : (s.take now n).1.cache.message? id = some m) :
    (∃ m₀, s.cache.message? id = some m₀ ∧ m₀.channel = m.channel) ∨
      Scope.message id ∈ n.names ∧ Scope.channel m.channel ∈ n.names := by
  cases hheeds : s.heeds now n with
  | false =>
    obtain ⟨users, hsame⟩ := take_unheeded hheeds
    rw [hsame] at h
    exact .inl ⟨m, h, rfl⟩
  | true =>
    rw [message?_take hf hr hheeds hroom] at h
    exact Notice.messageAfter_eq_some h

/-- What a second notice touches after a first one was touched by it before; or else the first one
touches it too, and something was touched by both. -/
theorem touches_take (hf : s.cache.Filed) (hr : s.lanes.running = true)
    (hroom : s.cache.RoomFor n) (h : (s.take now n).1.Touches n' x) :
    s.Touches n' x ∨ s.Touches n x ∧ ∃ y, s.Touches n y ∧ s.Touches n' y := by
  -- A notice that gives a channel to a server, or brings a message into a channel, names both.
  cases h with
  | named h => exact .inl (.named h)
  | @owner c g h hown =>
    rcases owner?_take hf hr hown with hold | ⟨hc, hg⟩
    · exact .inl (.owner h hold)
    · exact .inr ⟨.named hg, _, .named hc, .named h⟩
  | @channel c g h hown =>
    rcases owner?_take hf hr hown with hold | ⟨hc, hg⟩
    · exact .inl (.channel h hold)
    · exact .inr ⟨.named hc, _, .named hg, .named h⟩
  | @message id m h hm =>
    rcases message?_take_eq_some hf hr hroom hm with ⟨m₀, hold, hc⟩ | ⟨hid, hc⟩
    · exact .inl (.message (hc ▸ h) hold)
    · exact .inr ⟨.named hid, _, .named hc, .named h⟩
  | @below id g m h hm hown =>
    rcases message?_take_eq_some hf hr hroom hm with ⟨m₀, hold, hc⟩ | ⟨hid, hc⟩
    · rcases owner?_take hf hr hown with howned | ⟨hchannel, hg⟩
      · exact .inl (.below h hold (hc ▸ howned))
      · -- The channel was given to the server, with the message in it.
        exact .inr ⟨.message (hc ▸ hchannel) hold, _, .named hg, .named h⟩
    · -- The message is new in the channel, whose server is touched with it.
      refine .inr ⟨.named hid, .server g, ?_, .named h⟩
      rcases owner?_take hf hr hown with howned | ⟨-, hg⟩
      · exact .owner hc howned
      · exact .named hg

end Session

end Switchboard
