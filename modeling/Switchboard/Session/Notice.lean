import Switchboard.Message.Call
import Switchboard.Session

/-!
# What a notice does to a session

A notice about a channel or a server that is not cached is dropped. Any other is taken in three
steps: what it brings enters the cache (`enter`), its event is submitted to the lane of its server
with the listeners gathered for it (`announce`), and what it takes away leaves the cache together
with the registrations that belong to it (`leave`). So listeners see the cache as the notice leaves
it, and the listeners of an entity that goes are still told that it went.
-/

namespace Switchboard.Session

/-- The channel and the server that a notice is about are cached, as far as they have to be. -/
def hears (s : Session) (n : Notice) : Bool :=
  n.channel?.all (fun c => (s.cache.channel? c).isSome) &&
    n.server?.all (fun g => (s.cache.server? g).isSome)

/-- The server that owns a cached channel. -/
def owner? (s : Session) (channel : Snowflake) : Option Snowflake :=
  (s.cache.channel? channel).bind Channel.server

/-! ## Events and their listeners -/

/-- The event of a notice, built from the notice and the owner of its channel. -/
def event? (s : Session) : Notice → Option Event
  | .reactionAdd c m u e => some (.reactionAdd c (s.owner? c) m u e)
  | .reactionRemove c m u e => some (.reactionRemove c (s.owner? c) m u e)
  | .reactionRemoveAll c m => some (.reactionRemoveAll c (s.owner? c) m)
  | .reactionRemoveEmoji c m e => some (.reactionRemoveEmoji c (s.owner? c) m e)
  | .messageCreate c m author content _ =>
    some (.messageCreate c (s.owner? c) m (some author.id) content)
  | .messageDelete c m => some (.messageDelete c (s.owner? c) m)
  | .channelCreate ch => some (.channelCreate ch.id ch.server ch.name)
  | .channelDelete c => some (.channelDelete c (s.owner? c))
  | .ready _ _ => none
  | .serverCreate g _ => some (.serverJoin g.id g.name)
  | .serverDelete g unavailable => some (.serverLeave g unavailable)

/-- The scopes at which an event is heard, in the order in which they are served: the message, the
user, the channel, the owning server, all. -/
def scopes : Event → List Scope
  | .reactionAdd c s m u _ | .reactionRemove c s m u _ =>
    [.message m, .user u, .channel c] ++ s.toList.map .server ++ [.global]
  | .reactionRemoveAll c s m | .reactionRemoveEmoji c s m _ | .messageDelete c s m =>
    [.message m, .channel c] ++ s.toList.map .server ++ [.global]
  | .messageCreate c s _ author _ =>
    author.toList.map .user ++ [.channel c] ++ s.toList.map .server ++ [.global]
  | .channelDelete c s => [.channel c] ++ s.toList.map .server ++ [.global]
  | .channelCreate _ s _ => s.toList.map .server ++ [.global]
  | .serverJoin s _ | .serverLeave s _ => [.server s, .global]

/-- The listeners of an event, scope by scope. -/
def listeners (s : Session) (e : Event) : List Listener :=
  (scopes e).flatMap (s.registry.listenersAt · e.kind)

/-- Submits an event to the lane of its server, or to the global one. -/
def announce (s : Session) (e : Event) : Except Failure Session :=
  (s.lanes.submit e.server? ⟨.event e, s.listeners e⟩).map fun lanes => { s with lanes }

/-! ## Changes -/

/-- Drops the registrations of messages that left the cache. -/
def releaseMessages (s : Session) (gone : List Message) : Session :=
  { s with registry := s.registry.dropScopes (gone.map fun m => .message m.id) }

/-- Performs a call on the reactions of a message, if it is cached. -/
def applyCall (s : Session) (id : Snowflake) (call : ReactionCall) : Session × Option Failure :=
  match s.cache.message? id with
  | none => (s, none)
  | some m =>
    match m.perform call with
    | .error f => (s, some f)
    | .ok (_, m) => ({ s with cache := s.cache.updateMessage m }, none)

/-- Caches a new message, which may make room by dropping others. -/
def receive (s : Session) (m : Message) (reactions : List Reaction) : Session × Option Failure :=
  match m.perform (.replace reactions) with
  | .error f => (s, some f)
  | .ok (_, m) =>
    let (gone, cache) := s.cache.keepMessage m
    (releaseMessages { s with cache } gone, none)

/-- What a notice brings enters the cache. -/
def enter (now : Instant) (s : Session) : Notice → Session × Option Failure
  | .reactionAdd _ m u e => s.applyCall m (.add e u)
  | .reactionRemove _ m u e => s.applyCall m (.remove e u)
  | .reactionRemoveAll _ m => s.applyCall m .removeAll
  | .reactionRemoveEmoji _ m e => s.applyCall m (.dropEmoji e)
  | .messageCreate c m author content reactions =>
    let s := { s with cache := s.cache.keepUser author }
    s.receive
      { id := m, channel := c, author := some author.id, content, createdAt := now } reactions
  | .channelCreate ch => ({ s with cache := s.cache.keepChannel ch }, none)
  | .ready user channels =>
    let cache := (s.cache.keepUser user).keepChannels channels
    ({ s with cache, self := some user.id }, none)
  | .serverCreate g channels =>
    ({ s with cache := (s.cache.keepServer g).keepChannels channels }, none)
  | .messageDelete _ _ | .channelDelete _ | .serverDelete _ _ => (s, none)

/-- Drops the registrations of the messages of channels and of the channels themselves. -/
def releaseChannels (s : Session) (ids : List Snowflake) : Session :=
  ids.foldl (fun s id =>
    let s := s.releaseMessages (s.cache.messagesOf id)
    { s with registry := (s.registry.dropScope (.channel id)).2 }) s

/-- What a notice takes away leaves the cache, and its registrations with it. -/
def leave (s : Session) : Notice → Session
  | .messageDelete _ m =>
    { s with
      cache := (s.cache.dropMessage m).2
      registry := (s.registry.dropScope (.message m)).2 }
  | .channelDelete c =>
    let s := s.releaseChannels [c]
    { s with cache := (s.cache.dropChannel c).2 }
  | .serverDelete g _ =>
    let s := s.releaseChannels ((s.cache.channelsOf g).map Channel.id)
    { s with
      cache := (s.cache.dropServer g).2
      registry := (s.registry.dropScope (.server g)).2 }
  | _ => s

/-- Takes a notice. When it fails on the way, what was changed before stays changed. -/
def take (now : Instant) (s : Session) (n : Notice) : Session × Option Failure :=
  if !s.hears n then (s, none)
  else
    match s.enter now n with
    | (s', some f) => (s', some f)
    | (s', none) =>
      match s.event? n with
      | none => (s'.leave n, none)
      | some e =>
        match s'.announce e with
        | .error f => (s', some f)
        | .ok s' => (s'.leave n, none)

end Switchboard.Session
