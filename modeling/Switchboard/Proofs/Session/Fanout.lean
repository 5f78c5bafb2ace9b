import Switchboard.Proofs.Notice.Reads
import Switchboard.Proofs.Registry
import Switchboard.Proofs.Session.Standard

/-!
# Who is told of a packet

A packet that is heard has one event, which is submitted once. `Fanout` says for every kind of
notice which event that is, in which lane it is submitted, and at which scopes its listeners are
looked up; they are looked up among the registrations as they were before the packet, although some
packets drop registrations before their event is built and some after (`listeners_enter`). The
main result is `acceptPacket_fanout`.
-/

namespace Switchboard.Session

variable {s s' : Session} {now : Instant}

/-- One event is submitted: in the lane of the server that it belongs to, or in the global one, and
to the listeners that were attached at the scopes near to it, at its server, and globally. -/
def Submits (s s' : Session) (e : Event) (home : Option Snowflake) (near : List Scope) : Prop :=
  e.server? = home ∧
    s.lanes.submit home ⟨.event e, (near ++ home.toList.map Scope.server ++ [Scope.global]).flatMap
      (s.registry.listenersAt · e.kind)⟩ = .ok s'.lanes

/-- What is submitted for a notice. -/
def Fanout (s s' : Session) : Notice → Prop
  | .reactionAdd c m u e =>
    Submits s s' (.reactionAdd c (s.owner? c) m u e) (s.owner? c) [.message m, .user u, .channel c]
  | .reactionRemove c m u e =>
    Submits s s' (.reactionRemove c (s.owner? c) m u e) (s.owner? c)
      [.message m, .user u, .channel c]
  | .reactionRemoveAll c m =>
    Submits s s' (.reactionRemoveAll c (s.owner? c) m) (s.owner? c) [.message m, .channel c]
  | .reactionRemoveEmoji c m e =>
    Submits s s' (.reactionRemoveEmoji c (s.owner? c) m e) (s.owner? c) [.message m, .channel c]
  | .messageCreate c m author content _ =>
    Submits s s' (.messageCreate c (s.owner? c) m (some author.id) content) (s.owner? c)
      [.user author.id, .channel c]
  | .messageDelete c m =>
    Submits s s' (.messageDelete c (s.owner? c) m) (s.owner? c) [.message m, .channel c]
  | .channelCreate ch => Submits s s' (.channelCreate ch.id ch.server ch.name) ch.server []
  | .channelDelete c => Submits s s' (.channelDelete c (s.owner? c)) (s.owner? c) [.channel c]
  | .ready _ _ => s'.lanes = s.lanes
  | .serverCreate g _ => Submits s s' (.serverJoin g.id g.name) (some g.id) []
  | .serverDelete g unavailable => Submits s s' (.serverLeave g unavailable) (some g) []

/-- The listeners of an event are the same with the same registrations. -/
theorem listeners_congr (h : s'.registry = s.registry) (e : Event) :
    s'.listeners e = s.listeners e := by
  rw [listeners, listeners, h]

/-- What a notice brings does not change who listens to its event: it can only make messages go, and
then the event is that of a new message, which is not looked up at any message. -/
theorem listeners_enter {n : Notice} {e : Event} (h : s.event? n = some e) :
    (s.enter now n).1.listeners e = s.listeners e := by
  have hcall (id : Snowflake) (call : ReactionCall) :
      (s.applyCall id call).1.listeners e = s.listeners e := by
    rcases s.applyCall_cases id call with hs | ⟨m, answer, m', -, -, hs⟩
    · rw [hs]
    · rw [hs]
      exact listeners_congr rfl e
  cases n with
  | reactionAdd c m u emoji => exact hcall m _
  | reactionRemove c m u emoji => exact hcall m _
  | reactionRemoveAll c m => exact hcall m _
  | reactionRemoveEmoji c m emoji => exact hcall m _
  | messageCreate c m author content reactions =>
    simp only [enter, receive]
    split
    · exact listeners_congr rfl e
    · rename_i answer msg _
      cases h
      -- No scope of this event is one of those that are dropped.
      refine List.flatMap_congr fun scope hscope => ?_
      refine Registry.listenersAt_dropScopes (fun hgone => ?_) _
      obtain ⟨m', -, rfl⟩ := List.mem_map.mp hgone
      simp [scopes] at hscope
  | channelCreate ch => exact listeners_congr rfl e
  | ready user channels => cases h
  | serverCreate g channels => exact listeners_congr rfl e
  | messageDelete c m => rfl
  | channelDelete c => rfl
  | serverDelete g unavailable => rfl

/-- A notice that is heard and does not fail submits its event to those who listened before. -/
theorem take_submits {n : Notice} (hheard : s.hears n = true) (h : (s.take now n).2 = none) :
    match s.event? n with
    | none => (s.take now n).1.lanes = s.lanes
    | some e =>
      s.lanes.submit e.server? ⟨.event e, s.listeners e⟩ = .ok (s.take now n).1.lanes := by
  obtain ⟨lanes, htake, hsub⟩ := take_heard hheard h
  rw [htake, leave_lanes]
  cases he : s.event? n with
  | none =>
    rw [he] at hsub
    exact hsub
  | some e =>
    rw [he] at hsub
    dsimp only at hsub ⊢
    -- The listeners are looked up when the notice has entered, and are the same as before.
    rw [← listeners_enter he]
    exact hsub

/-- The event of a notice that is heard and does not fail goes where `Fanout` says. -/
theorem fanout_take {n : Notice} (hheard : s.hears n = true) (h : (s.take now n).2 = none) :
    Fanout s (s.take now n).1 n := by
  have hsub := take_submits hheard h
  cases n with
  | ready user channels => exact hsub
  | _ => exact ⟨rfl, hsub⟩

/-- A packet whose channel or server is known, as far as it names one, has exactly one event, made
of the fields of the packet and the owner of its channel. The event is submitted once, to the
listeners that the registrations had for it before the packet. A packet of an unknown type changes
nothing, and the only packets that fail once they are decoded are those with an emoji whose id
cannot be written. -/
theorem acceptPacket_fanout {b : Bool} (hh : s.handlers = .standard b)
    (hr : s.lanes.running = true) (now : Instant) (p : Packet) :
    (∀ (t : Topic) (n : Notice), t.tag = p.type → Notice.decode p t = .ok n →
      (∀ c, n.channel? = some c → (s.cache.channel? c).isSome) →
      (∀ g, n.server? = some g → (s.cache.server? g).isSome) →
        (Value.entriesWritable p.data = true → (s.acceptPacket now p).accepted = true) ∧
        ((s.acceptPacket now p).accepted = true →
          n.topic = t ∧ n.Reads p ∧ Fanout s (s.acceptPacket now p).session n)) ∧
      ((∀ t : Topic, t.tag ≠ p.type) → (s.acceptPacket now p).session = s) := by
  constructor
  · intro t n htag hn hchannel hserver
    -- What the notice names is cached, so the session hears it.
    have hheard : s.hears n = true := hears_iff.mpr ⟨hchannel, hserver⟩
    obtain ⟨hsession, haccepted⟩ := acceptPacket_taken now hh htag hn
    rw [hsession, haccepted]
    -- With keys that can be written the notice is taken.
    refine ⟨fun hp => ?_, fun hdone => ?_⟩
    · rw [take_succeeds hr (Notice.keyed_of_decode hp hn)]
      rfl
    · obtain ⟨htopic, hreads⟩ := Notice.reads_of_decode hn
      exact ⟨htopic, hreads, fanout_take hheard (by simpa using hdone)⟩
  · -- An unknown type has no handler.
    intro hunknown
    rw [acceptPacket_standard hh]
    cases ht : Topic.ofTag? p.type with
    | none => exact conclude_session ..
    | some t => exact absurd (Topic.tag_of_ofTag? ht) (hunknown t)

/-- A reaction to a message of a channel that a server owns, with a listener at every scope. -/
theorem acceptPacket_fanout_reaction : ∃ (s : Session) (p : Packet) (n : Notice),
    Notice.decode p .reactionAdd = .ok n ∧ n = .reactionAdd 2 5 9 ⟨"ok", none⟩ ∧
      s.handlers = .standard false ∧ s.lanes.running = true ∧
      (∀ c, n.channel? = some c → (s.cache.channel? c).isSome) ∧
      (∀ g, n.server? = some g → (s.cache.server? g).isSome) ∧
      Value.entriesWritable p.data = true ∧
      Fanout s (s.acceptPacket 3 p).session n ∧
      (s.acceptPacket 3 p).session.lanes.queues =
        [(some 1, [⟨.event (.reactionAdd 2 (some 1) 5 9 ⟨"ok", none⟩),
          ["message", "user", "channel", "server", "all"]⟩])] := by
  -- A listener at each of the five scopes of the event.
  let registry : Registry :=
    { files := [
        ((.global, .reactionAdd), [⟨1, .global, .reactionAdd, "all"⟩]),
        ((.server 1, .reactionAdd), [⟨2, .server 1, .reactionAdd, "server"⟩]),
        ((.user 9, .reactionAdd), [⟨3, .user 9, .reactionAdd, "user"⟩]),
        ((.channel 2, .reactionAdd), [⟨4, .channel 2, .reactionAdd, "channel"⟩]),
        ((.message 5, .reactionAdd), [⟨5, .message 5, .reactionAdd, "message"⟩])]
      nextId := 6 }
  let s : Session :=
    { settings := Settings.defaults, handlers := .standard false, registry
      cache := { servers := [(1, ⟨1, ""⟩)], channels := [(2, ⟨2, "", some 1⟩)] }
      lanes := { running := true } }
  let p : Packet :=
    { type := "MESSAGE_REACTION_ADD", sequence := none
      data := [(.text "channel_id", .int 2), (.text "message_id", .text "5"),
        (.text "user_id", .int 9), (.text "emoji", .map [(.text "name", .text "ok")])] }
  have hdecode : Notice.decode p .reactionAdd = .ok (.reactionAdd 2 5 9 ⟨"ok", none⟩) := by
    decide +kernel
  -- The channel that the reaction names is cached, and it names no server.
  have hchannel (c : Snowflake) (hc : (Notice.reactionAdd 2 5 9 ⟨"ok", none⟩).channel? = some c) :
      (s.cache.channel? c).isSome := by
    cases hc
    rfl
  have hserver (g : Snowflake) (hg : (Notice.reactionAdd 2 5 9 ⟨"ok", none⟩).server? = some g) :
      (s.cache.server? g).isSome := by
    cases hg
  have hwritable : Value.entriesWritable p.data = true := by decide +kernel
  -- The general statement for this packet; the queue is computed.
  obtain ⟨hdone, hfanout⟩ :=
    (acceptPacket_fanout rfl rfl 3 p).1 .reactionAdd _ rfl hdecode hchannel hserver
  exact ⟨s, p, _, hdecode, rfl, rfl, rfl, hchannel, hserver, hwritable,
    (hfanout (hdone hwritable)).2.2, by decide +kernel⟩

end Switchboard.Session
