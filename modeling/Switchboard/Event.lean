import Switchboard.Cache

/-!
# Events

What listeners are told. An event is built from the fields of a packet, never from the cache after
the change, so it stays meaningful when the entity was not cached. The entities that it names can be
looked up, as far as they are cached at the moment of looking.
-/

namespace Switchboard

/-- The kinds of events. -/
inductive EventKind where
  | reactionAdd
  | reactionRemove
  | reactionRemoveAll
  | reactionRemoveEmoji
  | messageCreate
  | messageDelete
  | channelCreate
  | channelDelete
  | serverJoin
  | serverLeave
  deriving DecidableEq, Inhabited

namespace EventKind

/-- Every kind. -/
def all : List EventKind :=
  [reactionAdd, reactionRemove, reactionRemoveAll, reactionRemoveEmoji, messageCreate,
    messageDelete, channelCreate, channelDelete, serverJoin, serverLeave]

/-- The tag of a kind. -/
def tag : EventKind → String
  | reactionAdd => "reaction_add"
  | reactionRemove => "reaction_remove"
  | reactionRemoveAll => "reaction_remove_all"
  | reactionRemoveEmoji => "reaction_remove_emoji"
  | messageCreate => "message_create"
  | messageDelete => "message_delete"
  | channelCreate => "channel_create"
  | channelDelete => "channel_delete"
  | serverJoin => "server_join"
  | serverLeave => "server_leave"

/-- The name of a kind in messages. -/
def title : EventKind → String
  | reactionAdd => "ReactionAddEvent"
  | reactionRemove => "ReactionRemoveEvent"
  | reactionRemoveAll => "ReactionRemoveAllEvent"
  | reactionRemoveEmoji => "ReactionRemoveEmojiEvent"
  | messageCreate => "MessageCreateEvent"
  | messageDelete => "MessageDeleteEvent"
  | channelCreate => "ChannelCreateEvent"
  | channelDelete => "ChannelDeleteEvent"
  | serverJoin => "ServerJoinEvent"
  | serverLeave => "ServerLeaveEvent"

end EventKind

/-- An event. Those about a channel name its owning server, if it has one. -/
inductive Event where
  | reactionAdd (channel : Snowflake) (server : Option Snowflake) (message user : Snowflake)
      (emoji : Emoji)
  | reactionRemove (channel : Snowflake) (server : Option Snowflake) (message user : Snowflake)
      (emoji : Emoji)
  | reactionRemoveAll (channel : Snowflake) (server : Option Snowflake) (message : Snowflake)
  | reactionRemoveEmoji (channel : Snowflake) (server : Option Snowflake) (message : Snowflake)
      (emoji : Emoji)
  | messageCreate (channel : Snowflake) (server : Option Snowflake) (message : Snowflake)
      (author : Option Snowflake) (content : String)
  | messageDelete (channel : Snowflake) (server : Option Snowflake) (message : Snowflake)
  | channelCreate (channel : Snowflake) (server : Option Snowflake) (name : String)
  | channelDelete (channel : Snowflake) (server : Option Snowflake)
  | serverJoin (server : Snowflake) (name : String)
  | serverLeave (server : Snowflake) (unavailable : Bool)
  deriving DecidableEq, Inhabited

namespace Event

/-- The kind of an event. -/
def kind : Event → EventKind
  | reactionAdd .. => .reactionAdd
  | reactionRemove .. => .reactionRemove
  | reactionRemoveAll .. => .reactionRemoveAll
  | reactionRemoveEmoji .. => .reactionRemoveEmoji
  | messageCreate .. => .messageCreate
  | messageDelete .. => .messageDelete
  | channelCreate .. => .channelCreate
  | channelDelete .. => .channelDelete
  | serverJoin .. => .serverJoin
  | serverLeave .. => .serverLeave

/-- The server that an event belongs to. -/
def server? : Event → Option Snowflake
  | reactionAdd _ s _ _ _ | reactionRemove _ s _ _ _ | reactionRemoveAll _ s _
  | reactionRemoveEmoji _ s _ _ | messageCreate _ s _ _ _ | messageDelete _ s _
  | channelCreate _ s _ | channelDelete _ s => s
  | serverJoin s _ | serverLeave s _ => some s

/-- The channel that an event names. -/
def channel? : Event → Option Snowflake
  | reactionAdd c _ _ _ _ | reactionRemove c _ _ _ _ | reactionRemoveAll c _ _
  | reactionRemoveEmoji c _ _ _ | messageCreate c _ _ _ _ | messageDelete c _ _
  | channelCreate c _ _ | channelDelete c _ => some c
  | serverJoin .. | serverLeave .. => none

/-- The message that an event names. -/
def message? : Event → Option Snowflake
  | reactionAdd _ _ m _ _ | reactionRemove _ _ m _ _ | reactionRemoveAll _ _ m
  | reactionRemoveEmoji _ _ m _ | messageCreate _ _ m _ _ | messageDelete _ _ m => some m
  | channelCreate .. | channelDelete .. | serverJoin .. | serverLeave .. => none

/-- An id that may be missing, in messages. -/
def shownId : Option Snowflake → String
  | some n => toString n
  | none => "None"

/-- The named fields of an event, in order, as messages show them. -/
def shownFields : Event → List (String × String)
  | reactionAdd c s m u e | reactionRemove c s m u e =>
    [("channel_id", toString c), ("server_id", shownId s), ("message_id", toString m),
      ("user_id", toString u), ("emoji", e.shown)]
  | reactionRemoveAll c s m | messageDelete c s m =>
    [("channel_id", toString c), ("server_id", shownId s), ("message_id", toString m)]
  | reactionRemoveEmoji c s m e =>
    [("channel_id", toString c), ("server_id", shownId s), ("message_id", toString m),
      ("emoji", e.shown)]
  | messageCreate c s m a t =>
    [("channel_id", toString c), ("server_id", shownId s), ("message_id", toString m),
      ("author_id", shownId a), ("content", quoted t)]
  | channelCreate c s n =>
    [("channel_id", toString c), ("server_id", shownId s), ("name", quoted n)]
  | channelDelete c s => [("channel_id", toString c), ("server_id", shownId s)]
  | serverJoin s n => [("server_id", toString s), ("name", quoted n)]
  | serverLeave s u => [("server_id", toString s), ("unavailable", if u then "True" else "False")]

/-- An event in messages. -/
def shown (e : Event) : String :=
  let fields := e.shownFields.map fun f => f.1 ++ "=" ++ f.2
  e.kind.title ++ "(" ++ String.intercalate ", " fields ++ ")"

/-! ## Looking up what an event names -/

/-- The channel of an event, for events about a channel. -/
def channelIn? (e : Event) (c : Cache) : Option (Option Channel) := e.channel?.map c.channel?

/-- The server of an event. -/
def serverIn? (e : Event) (c : Cache) : Option Server := e.server?.bind c.server?

/-- The message of an event, for events about a message. -/
def messageIn? (e : Event) (c : Cache) : Option (Option Message) := e.message?.map c.message?

end Event

/-- What a lane delivers: an event, or a named note that the embedding program submits itself. -/
inductive Signal where
  | event (e : Event)
  | note (name : String) (server : Option Snowflake)
  deriving DecidableEq, Inhabited

namespace Signal

/-- The server that a signal belongs to. -/
def server? : Signal → Option Snowflake
  | event e => e.server?
  | note _ s => s

/-- The name of a signal's kind in messages. -/
def title : Signal → String
  | event e => e.kind.title
  | note .. => "Note"

end Signal

end Switchboard
