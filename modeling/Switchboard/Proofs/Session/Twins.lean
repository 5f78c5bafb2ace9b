import Switchboard.Proofs.Registry.Attached
import Switchboard.Proofs.Session.Outcome

/-!
# What is known of messages stays with them

Two sessions are `Alike` when they know the same servers and channels and have the same listeners
attached everywhere but at messages; messages, users and the room for messages may differ. `Twins`
runs two sessions side by side: they take in the same frames, each by its own clock, and listeners
are attached, taken back and dropped in both, while sweeps, drains and whatever is attached at
messages go on in each of them as they like. What they tell stays the same, and they stay alike
(`twins_agree`): nothing of what only one of them knows comes out.

Of one kind of frame only one of the two may have something to tell: a reaction to an emoji whose id
is too long to write (`Keyless`) is refused where the message is known. No JSON text reads as such a
frame (`not_keyless_of_document`).
-/

namespace Switchboard.Session

variable {s s' : Session} {now now' : Instant} {n : Notice}

/-! ## Orderly registrations -/

/-- Whatever is done to a session keeps its registrations orderly. -/
theorem orderly_reaches (hr : s.Reaches s') (hf : s.cache.Filed) (ho : s.registry.Orderly) :
    s'.registry.Orderly := by
  -- Every call either leaves the registrations as they are or is one that keeps them orderly.
  refine (hr.keeps (P := fun s => s.cache.Filed ∧ s.registry.Orderly)
    (fun s s' hc h => ⟨filed_reaches (.single hc) h.1, ?_⟩) ⟨hf, ho⟩).2
  obtain ⟨hf, ho⟩ := h
  cases hc with
  | frame now s v =>
    obtain ⟨scopes, h⟩ := releases_acceptFrame now s hf v
    exact h.registry ▸ ho.dropScopes scopes
  | packet now s p =>
    rcases acceptPacket_session now s p with he | ⟨n, he⟩
    · rw [he]
      exact ho
    · obtain ⟨scopes, h⟩ := releases_take now s hf n
      rw [he, h.registry]
      exact ho.dropScopes scopes
  | sweep hs =>
    obtain ⟨scopes, h⟩ := releases_sweep hf hs
    exact h.registry ▸ ho.dropScopes scopes
  | call s id call =>
    rcases s.applyCall_cases id call with h | ⟨_, _, _, -, -, h⟩
    · rw [h]
      exact ho
    · rw [h]
      exact ho
  | attach s scope kind listener => exact ho.attach scope kind listener
  | detach s known => exact ho.detach known
  | dropScope s scope => exact ho.dropScopes [scope]
  | forget s => exact .of_nil rfl
  | close s => exact .of_nil rfl
  | _ => exact ho

/-- The registrations of every session that can come about are orderly. -/
theorem Reachable.orderly (h : s.Reachable) : s.registry.Orderly := by
  obtain ⟨given, handlers, s₀, hc, hr⟩ := h
  refine orderly_reaches hr (filed_create hc) ?_
  obtain ⟨settings, capacity, handlers, rfl⟩ := create_eq hc
  exact .of_nil rfl

/-! ## What is told -/

/-- What a frame comes to outside: whether it is accepted, and the lanes and signals of its jobs
with those who listen elsewhere than at a message. -/
structure Told where
  accepted : Bool
  jobs : List (Root × Signal × List Listener)

/-- Nothing but that the frame is refused. -/
def Told.refused : Told := ⟨false, []⟩

/-- Those who listen to a signal at users, channels, servers and globally. -/
def elsewhere (s : Session) : Signal → List Listener
  | .event e => ((scopes e).filter (!·.isMessage)).flatMap (s.registry.listenersAt · e.kind)
  | .note .. => []

/-- What comes of a frame outside. -/
def told (now : Instant) (s : Session) (v : Value) : Told where
  accepted := (s.acceptFrame now v).accepted
  jobs := (s.posts now v).map fun p => (p.1, p.2.signal, s.elsewhere p.2.signal)

/-- The listeners of a job that a frame posts are those at its message, and then those elsewhere. -/
theorem posts_elsewhere {v : Value} {root : Root} {job : Job} (h : (root, job) ∈ s.posts now v) :
    ∃ e, job.signal = .event e ∧ job.listeners =
      ((scopes e).filter (·.isMessage)).flatMap (s.registry.listenersAt · e.kind) ++
        s.elsewhere job.signal := by
  -- The scope of the message is the first one, if there is one.
  have hsplit (e : Event) :
      scopes e = (scopes e).filter (·.isMessage) ++ (scopes e).filter (!·.isMessage) := by
    cases e with
    | reactionAdd _ o | reactionRemove _ o | reactionRemoveAll _ o | reactionRemoveEmoji _ o
    | messageDelete _ o | channelCreate _ o | channelDelete _ o => cases o <;> rfl
    | messageCreate _ o _ author => cases o <;> cases author <;> rfl
    | serverJoin | serverLeave => rfl
  obtain ⟨n, e, -, -, -, -, rfl⟩ := mem_posts h
  refine ⟨e, rfl, ?_⟩
  rw [elsewhere, ← List.flatMap_append, ← hsplit]
  rfl

/-! ## Sessions that are alike -/

/-- Two sessions know the same servers and channels, and the same listeners are attached at all
scopes but those of messages. -/
structure Alike (s s' : Session) : Prop where
  servers : ∀ id, s.cache.server? id = s'.cache.server? id
  channels : ∀ id, s.cache.channel? id = s'.cache.channel? id
  listeners : ∀ x kind, x.isMessage = false →
    s.registry.listenersAt x kind = s'.registry.listenersAt x kind

namespace Alike

/-- Sessions that are alike, the other way round. -/
theorem symm (h : Alike s s') : Alike s' s :=
  ⟨fun id => (h.servers id).symm, fun id => (h.channels id).symm,
    fun x kind hx => (h.listeners x kind hx).symm⟩

/-- Sessions that are alike to one are alike. -/
theorem trans {s₁ : Session} (h : Alike s s₁) (h' : Alike s₁ s') : Alike s s' :=
  ⟨fun id => (h.servers id).trans (h'.servers id), fun id => (h.channels id).trans (h'.channels id),
    fun x kind hx => (h.listeners x kind hx).trans (h'.listeners x kind hx)⟩

/-- The same servers own the channels. -/
theorem owner? (h : Alike s s') (c : Snowflake) : s.owner? c = s'.owner? c := by
  rw [Session.owner?, Session.owner?, h.channels]

/-- The same notices are heard. -/
theorem hears (h : Alike s s') (n : Notice) : s.hears n = s'.hears n := by
  simp only [Session.hears, h.channels, h.servers]

/-- A notice has the same event. -/
theorem event? (h : Alike s s') (n : Notice) : s.event? n = s'.event? n := by
  cases n <;> simp only [Session.event?, h.owner?]

/-- The same listeners hear a signal elsewhere than at a message. -/
theorem elsewhere (h : Alike s s') (signal : Signal) :
    s.elsewhere signal = s'.elsewhere signal := by
  cases signal with
  | event e =>
    refine List.flatMap_congr fun x hx => h.listeners x e.kind ?_
    simpa using (List.mem_filter.mp hx).2
  | note name server => rfl

/-- A notice drops the same scopes, but for those of messages. -/
theorem drops (h : Alike s s') (n : Notice) {x : Scope} (hx : x.isMessage = false) :
    s.drops n x = s'.drops n x := by
  cases x with
  | message id => cases hx
  | _ => cases n <;> simp only [Session.drops, h.owner?]

end Alike

/-- Those who listen at a scope that is no message's after a notice. -/
theorem listenersAt_take (hf : s.cache.Filed) (hr : s.lanes.running = true)
    (h : s.heeds now n = true) {x : Scope} (hx : x.isMessage = false) (kind : EventKind) :
    (s.take now n).1.registry.listenersAt x kind =
      if s.drops n x then [] else s.registry.listenersAt x kind := by
  simp only [Registry.listenersAt, Registry.file, find?_take hf hr h (.inl hx) kind]
  split <;> rfl

/-- A session whose lanes are served, with the standard handlers. -/
structure Standing (s : Session) : Prop where
  reachable : s.Reachable
  running : s.lanes.running = true
  handlers : ∃ b, s.handlers = .standard b

/-- With lanes that are served a notice that is heard is taken without failure when it is heeded. -/
theorem take_isNone (hr : s.lanes.running = true) (hheard : s.hears n = true) :
    (s.take now n).2.isNone = s.heeds now n := by
  rw [take_snd hr, if_pos hheard, heeds, hheard, Bool.true_and]

/-- A session that does not heed a notice is like it was. -/
theorem Alike.take_unheeded (h : s.heeds now n = false) : Alike s (s.take now n).1 := by
  obtain ⟨users, hsame⟩ := Session.take_unheeded h
  rw [hsame]
  exact ⟨fun _ => rfl, fun _ => rfl, fun _ _ _ => rfl⟩

/-- A session that takes a notice about reactions is like it was. -/
theorem Alike.take_call (hs : s.Standing) {m : Snowflake} {call : ReactionCall}
    (hcall : n.call? = some (m, call)) : Alike s (s.take now n).1 := by
  cases hheeds : s.heeds now n with
  | false => exact .take_unheeded hheeds
  | true =>
    have hf := hs.reachable.filed
    refine ⟨fun id => ?_, fun id => ?_, fun x kind hx => ?_⟩
    · rw [server?_take hs.running hheeds]
      cases n <;> cases hcall <;> rfl
    · rw [channel?_take hf hs.running hheeds]
      cases n <;> cases hcall <;> rfl
    · rw [listenersAt_take hf hs.running hheeds hx]
      cases n <;> cases hcall <;> rfl

/-- Sessions that are alike are so after a notice that both heed. -/
theorem Alike.take_heeded (h : Alike s s') (hs : s.Standing) (hs' : s'.Standing)
    (hheeds : s.heeds now n = true) (hheeds' : s'.heeds now' n = true) :
    Alike (s.take now n).1 (s'.take now' n).1 where
  servers id := by
    rw [server?_take hs.running hheeds, server?_take hs'.running hheeds', h.servers]
  channels id := by
    rw [channel?_take hs.reachable.filed hs.running hheeds,
      channel?_take hs'.reachable.filed hs'.running hheeds', h.channels]
  listeners x kind hx := by
    rw [listenersAt_take hs.reachable.filed hs.running hheeds hx,
      listenersAt_take hs'.reachable.filed hs'.running hheeds' hx, h.drops n hx,
      h.listeners x kind hx]

/-- A frame brings a reaction to an emoji without a key, or takes one away. -/
def Keyless (v : Value) : Prop :=
  ∃ n m call, Notice.ofFrame? v = some n ∧ n.call? = some (m, call) ∧ call.hasKeys = false

/-- What a session tells of a frame whose notice is heard. -/
theorem told_of_hears (hs : s.Standing) {v : Value} (hn : Notice.ofFrame? v = some n)
    (hheard : s.hears n = true) : s.told now v = if s.heeds now n then
      ⟨true, (s.event? n).toList.map fun e => (e.server?, .event e, s.elsewhere (.event e))⟩
    else .refused := by
  obtain ⟨-, hr, b, hh⟩ := hs
  rw [told, acceptFrame_accepted hh, posts, hn]
  dsimp only
  rw [take_isNone hr hheard]
  cases s.heeds now n with
  | false => rfl
  | true => simp [Function.comp_def]

/-- Of a notice that is heard and heeded by only one of two sessions, the frame is keyless. -/
theorem keyless_of_heeds {v : Value} (hn : Notice.ofFrame? v = some n) (hheard : s.hears n = true)
    (hheeds : s.heeds now n = false) (hheeds' : s'.heeds now' n = true) :
    Keyless v ∧ ∃ m call, n.call? = some (m, call) := by
  have hfailed : (s.enter now n).2 ≠ none := fun he => by
    simp [heeds, hheard, he] at hheeds
  obtain ⟨f, hf⟩ := Option.ne_none_iff_exists'.mp hfailed
  obtain ⟨-, ⟨m, call, hcall, hk, -⟩ | ⟨c, m, author, content, rs, rfl, hk, -⟩⟩ := enter_failed hf
  · exact ⟨⟨n, m, call, hn, hcall, hk⟩, m, call, hcall⟩
  · -- A message whose reactions cannot be listed is heeded by nobody.
    have henter := (heeds_iff.mp hheeds').2
    rw [enter_message_keyless hk] at henter
    cases henter

/-- Sessions that are alike tell the same of a frame, whenever it comes, unless it is keyless and
one of them refuses it; and they stay alike. -/
theorem Alike.frame (h : Alike s s') (now now' : Instant) (hs : s.Standing) (hs' : s'.Standing)
    (v : Value) :
    (s.told now v = s'.told now' v ∨
      Keyless v ∧ (s.told now v = .refused ∨ s'.told now' v = .refused)) ∧
      Alike (s.acceptFrame now v).session (s'.acceptFrame now' v).session := by
  obtain ⟨b, hh⟩ := hs.handlers
  obtain ⟨b', hh'⟩ := hs'.handlers
  rw [acceptFrame_standard hh, acceptFrame_standard hh']
  cases hn : Notice.ofFrame? v with
  | none =>
    rw [told, told, acceptFrame_accepted hh, acceptFrame_accepted hh', posts, posts, hn]
    exact ⟨.inl rfl, h⟩
  | some n =>
    dsimp only
    cases hheard : s.hears n with
    | false =>
      have hheard' : s'.hears n = false := h.hears n ▸ hheard
      rw [told, told, acceptFrame_accepted hh, acceptFrame_accepted hh', posts, posts, hn]
      dsimp only
      rw [take_unheard hheard, take_unheard hheard', heeds, heeds, hheard, hheard']
      exact ⟨.inl rfl, h⟩
    | true =>
      have hheard' : s'.hears n = true := h.hears n ▸ hheard
      rw [told_of_hears hs hn hheard, told_of_hears hs' hn hheard', h.event?]
      simp only [h.elsewhere]
      -- Both heed the notice, neither does, or just one, and then it is about reactions.
      cases hheeds : s.heeds now n <;> cases hheeds' : s'.heeds now' n
      · exact ⟨.inl rfl,
          (Alike.take_unheeded hheeds).symm.trans (h.trans (.take_unheeded hheeds'))⟩
      · obtain ⟨hk, m, call, hcall⟩ := keyless_of_heeds hn hheard hheeds hheeds'
        exact ⟨.inr ⟨hk, .inl rfl⟩,
          (Alike.take_call hs hcall).symm.trans (h.trans (.take_call hs' hcall))⟩
      · obtain ⟨hk, m, call, hcall⟩ := keyless_of_heeds hn hheard' hheeds' hheeds
        exact ⟨.inr ⟨hk, .inr rfl⟩,
          (Alike.take_call hs hcall).symm.trans (h.trans (.take_call hs' hcall))⟩
      · exact ⟨.inl rfl, h.take_heeded hs hs' hheeds hheeds'⟩

/-! ## What one of them does alone -/

/-- What happens in a session that has nothing to do with servers and channels. -/
inductive Aside (s : Session) : Session → Prop
  | sweep {s' : Session} {maxAge : Duration} {now : Instant} {k : Nat}
      (h : s.sweep maxAge now = .ok (k, s')) : Aside s s'
  /-- A drain takes a step. -/
  | advance {root : Root} {move : Move} {lanes : Lanes}
      (h : s.lanes.advance root = some (move, lanes)) : Aside s { s with lanes }
  /-- A listener is attached at a message. -/
  | attach (id : Snowflake) (kind : EventKind) (listener : Listener) :
      Aside s { s with registry := (s.registry.attach (.message id) kind listener).2 }
  /-- A registration at a message is taken back. -/
  | detach (known : Registration) (h : known.scope.isMessage = true) :
      Aside s { s with registry := s.registry.detach known }
  /-- The registrations at a message are dropped. -/
  | dropScope (id : Snowflake) :
      Aside s { s with registry := (s.registry.dropScope (.message id)).2 }

/-- Two registrations of two sessions stand for the same one: that of a listener at a place, or one
that is gone from it. -/
structure Matches (r r' : Registry) (known known' : Registration) : Prop where
  scope : known'.scope = known.scope
  kind : known'.kind = known.kind
  same : (known ∈ r.file known.scope known.kind ∧ known' ∈ r'.file known.scope known.kind ∧
      known'.listener = known.listener) ∨
    (known.id ∉ (r.file known.scope known.kind).map Registration.id ∧
      known'.id ∉ (r'.file known.scope known.kind).map Registration.id)

/-- A session whose registrations change goes on standing. -/
theorem Standing.withRegistry (hs : s.Standing) {registry : Registry}
    (hc : s.Change { s with registry }) : Standing { s with registry } :=
  ⟨hs.reachable.change hc, hs.running, hs.handlers⟩

/-- A session that handles a frame goes on standing. -/
theorem Standing.acceptFrame (hs : s.Standing) (now : Instant) (v : Value) :
    (s.acceptFrame now v).session.Standing where
  reachable := hs.reachable.change (.frame now s v)
  running := by rw [acceptFrame_running, hs.running]
  handlers := by
    obtain ⟨b, hh⟩ := hs.handlers
    exact ⟨b, by rw [acceptFrame_handlers, hh]⟩

/-- Sessions that are alike stay so when a listener is attached in both. -/
theorem Alike.attach (h : Alike s s') {x : Scope} (hx : x.isMessage = false) (kind : EventKind)
    (listener : Listener) : Alike { s with registry := (s.registry.attach x kind listener).2 }
      { s' with registry := (s'.registry.attach x kind listener).2 } where
  servers := h.servers
  channels := h.channels
  listeners x' kind' hx' := by
    simp only [Registry.listenersAt_attach, h.listeners x kind hx, h.listeners x' kind' hx']

/-- Sessions that are alike stay so when the same registration is taken back in both. -/
theorem Alike.detach (h : Alike s s') (ho : s.registry.Orderly) (ho' : s'.registry.Orderly)
    {known known' : Registration} (hx : known.scope.isMessage = false)
    (hm : Matches s.registry s'.registry known known') :
    Alike { s with registry := s.registry.detach known }
      { s' with registry := s'.registry.detach known' } where
  servers := h.servers
  channels := h.channels
  listeners x kind hx' := by
    -- The registration is still there in both, or gone from both.
    obtain ⟨hscope, hkind, ⟨hin, hin', hlistener⟩ | ⟨hgone, hgone'⟩⟩ := hm
    · rw [Registry.listenersAt_detach ho hin,
        Registry.listenersAt_detach ho' (by rwa [hscope, hkind]), hscope, hkind, hlistener,
        h.listeners _ _ hx, h.listeners x kind hx']
    · rw [Registry.listenersAt_detach_gone hgone,
        Registry.listenersAt_detach_gone (by rwa [hscope, hkind]), h.listeners x kind hx']

/-- Sessions that are alike stay so when the registrations at a scope are dropped in both. -/
theorem Alike.dropScope (h : Alike s s') (x : Scope) :
    Alike { s with registry := (s.registry.dropScope x).2 }
      { s' with registry := (s'.registry.dropScope x).2 } where
  servers := h.servers
  channels := h.channels
  listeners x' kind hx' := by
    have hdrop (r : Registry) : (r.dropScope x).2.listenersAt x' kind =
        if x' ∈ [x] then [] else r.listenersAt x' kind := by
      rw [Registry.listenersAt, show (r.dropScope x).2 = r.dropScopes [x] from rfl,
        Registry.file_dropScopes]
      split <;> rfl
    rw [hdrop, hdrop, h.listeners x' kind hx']

/-- A reaction of the user 9 to the message 5 in the channel 2. -/
def reaction (emoji : Fields) : Value := .map [(.text "t", .text "MESSAGE_REACTION_ADD"),
  (.text "d", .map [(.text "channel_id", .text "2"), (.text "message_id", .text "5"),
    (.text "user_id", .text "9"), (.text "emoji", .map emoji)])]

end Switchboard.Session
