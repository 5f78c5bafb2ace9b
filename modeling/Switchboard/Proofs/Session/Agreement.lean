import Switchboard.Proofs.Session.Footprint

/-!
# What a notice looks at

Two sessions that agree on all that a notice touches in them take it in the same way: both heed it
or neither does (`CommonGround.heeds`), they tell the same listeners of the same event
(`CommonGround.listeners`), and they agree afterwards wherever they did before
(`CommonGround.take`). So a notice looks at nothing but what it touches and the registrations at
users and of the whole session.
-/

namespace Switchboard.Session

variable {s s' : Session} {now : Instant} {n : Notice} {R : Set Scope}

/-- Two sessions agree within a region that covers all that a notice touches in them, and everything
that is no entity. -/
structure CommonGround (s s' : Session) (n : Notice) (R : Set Scope) : Prop where
  agree : ∀ x ∈ R, AgreeAt s s' x
  left : ∀ x, s.Touches n x → x ∈ R
  right : ∀ x, s'.Touches n x → x ∈ R
  rest : ∀ x : Scope, x.isEntity = false → x ∈ R

/-- Sessions that agree on a channel agree on its owner. -/
theorem AgreeAt.owner? {c : Snowflake} (h : AgreeAt s s' (.channel c)) :
    s.owner? c = s'.owner? c := by
  rw [Session.owner?, Session.owner?, h.channel c rfl]

namespace CommonGround

/-- The sessions agree on what is named. -/
theorem named (h : CommonGround s s' n R) {x : Scope} (hx : x ∈ n.names) : AgreeAt s s' x :=
  h.agree x (h.left x (.named hx))

/-- A server that is named owns the same channels. -/
theorem owner?_beq (h : CommonGround s s' n R) {g : Snowflake} (hg : .server g ∈ n.names)
    (c : Snowflake) : (s.owner? c == some g) = (s'.owner? c == some g) := by
  rw [Bool.eq_iff_iff, beq_iff_eq, beq_iff_eq]
  -- Whichever session has the server own the channel, the channel is touched in it.
  constructor
  · intro hown
    rwa [← (h.agree _ (h.left _ (.channel hg hown))).owner?]
  · intro hown
    rwa [(h.agree _ (h.right _ (.channel hg hown))).owner?]

/-- The notice is heard by both sessions or by neither. -/
theorem hears (h : CommonGround s s' n R) : s.hears n = s'.hears n := by
  -- The channel and the server that the notice is about are named by it, so both sessions have them
  -- alike.
  have hchannel : n.channel?.all (fun c => (s.cache.channel? c).isSome) =
      n.channel?.all fun c => (s'.cache.channel? c).isSome := by
    cases hc : n.channel? with
    | none => rfl
    | some c =>
      have hsame := (h.named (Notice.mem_names_of_channel? hc)).channel c rfl
      simp only [Option.all_some, hsame]
  have hserver : n.server?.all (fun g => (s.cache.server? g).isSome) =
      n.server?.all fun g => (s'.cache.server? g).isSome := by
    cases hg : n.server? with
    | none => rfl
    | some g =>
      have hsame := (h.named (Notice.mem_names_of_server? hg)).server g rfl
      simp only [Option.all_some, hsame]
  rw [Session.hears, Session.hears, hchannel, hserver]

/-- What the notice brings enters both sessions, or fails in both for the same reason. -/
theorem enter (h : CommonGround s s' n R) (now : Instant) :
    (s.enter now n).2 = (s'.enter now n).2 := by
  have hcall {m : Snowflake} {call : ReactionCall} (hm : n.call? = some (m, call)) :
      (s.applyCall m call).2 = (s'.applyCall m call).2 := by
    have hsame := (h.named (Notice.mem_names_of_call? hm)).message m rfl
    unfold applyCall
    rw [hsame]
    cases s'.cache.message? m with
    | none => rfl
    | some msg =>
      dsimp only
      cases msg.perform call <;> rfl
  cases n with
  | reactionAdd | reactionRemove | reactionRemoveAll | reactionRemoveEmoji => exact hcall rfl
  | messageCreate c m author content reactions =>
    -- The message is a fresh one, so it is not looked for.
    simp only [Session.enter, receive]
    cases Message.perform _ (.replace reactions) <;> rfl
  | _ => rfl

/-- The notice is heeded by both sessions or by neither. -/
theorem heeds (h : CommonGround s s' n R) (now : Instant) : s.heeds now n = s'.heeds now n := by
  rw [Session.heeds, Session.heeds, h.hears, h.enter]

/-- The notice has the same event in both sessions. -/
theorem event? (h : CommonGround s s' n R) : s.event? n = s'.event? n := by
  have hown {c : Snowflake} (hc : n.channel? = some c) : s.owner? c = s'.owner? c :=
    (h.named (Notice.mem_names_of_channel? hc)).owner?
  cases n with
  | channelCreate | ready | serverCreate | serverDelete => rfl
  | _ => simp only [Session.event?, hown rfl]

/-- The same listeners are called for the event of the notice. -/
theorem listeners (h : CommonGround s s' n R) {e : Event} (he : s.event? n = some e) :
    s.listeners e = s'.listeners e := by
  refine List.flatMap_congr fun x hx => ?_
  have hin : x ∈ R := (touches_of_mem_scopes he hx).elim (h.left x) (h.rest x)
  simp only [Registry.listenersAt, Registry.file, (h.agree x hin).files]

/-- The notice drops the same scopes of the region. -/
theorem drops (h : CommonGround s s' n R) {x : Scope} (hx : x ∈ R) :
    s.drops n x = s'.drops n x := by
  have ha := h.agree x hx
  -- What is dropped with a channel or a server depends on where the messages and channels of the
  -- region are.
  cases n with
  | channelDelete c =>
    cases x with
    | message id => simp only [Session.drops, ha.message id rfl]
    | _ => rfl
  | serverDelete g unavailable =>
    have hown := h.owner?_beq (List.mem_singleton_self (Scope.server g))
    cases x with
    | channel id => exact hown id
    | message id => simp only [Session.drops, ha.message id rfl, hown]
    | _ => rfl
  | _ => cases x <;> rfl

/-- The notice does the same to a message, whichever of the sessions says who owns its channel. -/
theorem messageAfter (h : CommonGround s s' n R) (id : Snowflake) (old : Option Message) :
    n.messageAfter now s.owner? id old = n.messageAfter now s'.owner? id old := by
  cases n with
  | serverDelete g unavailable =>
    exact filter_congr fun m _ =>
      congrArg not (h.owner?_beq (List.mem_singleton_self (Scope.server g)) m.channel)
  | _ => rfl

/-- The sessions agree after the notice wherever they did before. -/
theorem take (h : CommonGround s s' n R) (hf : s.cache.Filed) (hf' : s'.cache.Filed)
    (hr : s.lanes.running = true) (hr' : s'.lanes.running = true) (hroom : s.cache.RoomFor n)
    (hroom' : s'.cache.RoomFor n) {x : Scope} (hx : x ∈ R) :
    AgreeAt (s.take now n).1 (s'.take now n).1 x := by
  have ha := h.agree x hx
  have hboth := h.heeds now
  cases hheeds : s.heeds now n with
  -- In both sessions the notice changes nothing but the users.
  | false =>
    obtain ⟨users, hsame⟩ := take_unheeded hheeds
    obtain ⟨users', hsame'⟩ := take_unheeded (hboth ▸ hheeds)
    rw [hsame, hsame']
    exact ⟨ha.server, ha.channel, ha.message, ha.files⟩
  | true =>
    -- What is found afterwards depends on the notice and on what was found before.
    have hheeds' : s'.heeds now n = true := hboth ▸ hheeds
    refine ⟨fun id he => ?_, fun id he => ?_, fun id he => ?_, fun kind => ?_⟩
    · rw [server?_take hr hheeds, server?_take hr' hheeds', ha.server id he]
    · rw [channel?_take hf hr hheeds, channel?_take hf' hr' hheeds', ha.channel id he]
    · rw [message?_take hf hr hheeds hroom, message?_take hf' hr' hheeds' hroom',
        ha.message id he, h.messageAfter]
    · rw [find?_take hf hr hheeds (.inr hroom), find?_take hf' hr' hheeds' (.inr hroom'),
        h.drops hx, ha.files]

end CommonGround

end Switchboard.Session
