import Switchboard.Entity
import Switchboard.Packet.Field

/-!
# Notices

A notice is a packet of a known topic with all its fields decoded. Decoding looks at nothing but the
packet and changes nothing, so a packet that does not decode has no effect at all.
-/

namespace Switchboard

/-- The packet types that the session understands. -/
inductive Topic where
  | reactionAdd
  | reactionRemove
  | reactionRemoveAll
  | reactionRemoveEmoji
  | messageCreate
  | messageDelete
  | channelCreate
  | channelDelete
  | ready
  | serverCreate
  | serverDelete
  deriving DecidableEq

namespace Topic

/-- Every topic. -/
def all : List Topic :=
  [reactionAdd, reactionRemove, reactionRemoveAll, reactionRemoveEmoji, messageCreate,
    messageDelete, channelCreate, channelDelete, ready, serverCreate, serverDelete]

/-- The type tag of a topic's packets. -/
def tag : Topic → String
  | reactionAdd => "MESSAGE_REACTION_ADD"
  | reactionRemove => "MESSAGE_REACTION_REMOVE"
  | reactionRemoveAll => "MESSAGE_REACTION_REMOVE_ALL"
  | reactionRemoveEmoji => "MESSAGE_REACTION_REMOVE_EMOJI"
  | messageCreate => "MESSAGE_CREATE"
  | messageDelete => "MESSAGE_DELETE"
  | channelCreate => "CHANNEL_CREATE"
  | channelDelete => "CHANNEL_DELETE"
  | ready => "READY"
  | serverCreate => "GUILD_CREATE"
  | serverDelete => "GUILD_DELETE"

end Topic

/-- What a packet of a known topic says. -/
inductive Notice where
  | reactionAdd (channel message user : Snowflake) (emoji : Emoji)
  | reactionRemove (channel message user : Snowflake) (emoji : Emoji)
  | reactionRemoveAll (channel message : Snowflake)
  | reactionRemoveEmoji (channel message : Snowflake) (emoji : Emoji)
  | messageCreate (channel message : Snowflake) (author : User) (content : String)
      (reactions : List Reaction)
  | messageDelete (channel message : Snowflake)
  | channelCreate (channel : Channel)
  | channelDelete (channel : Snowflake)
  | ready (user : User) (channels : List Channel)
  | serverCreate (server : Server) (channels : List Channel)
  | serverDelete (server : Snowflake) (unavailable : Bool)
  deriving DecidableEq

namespace Packet

/-! ## Parts of a payload -/

/-- The text of a name field within an object. A missing name, and any value that counts as not
given, is empty. -/
def nameIn (p : Packet) (data : Fields) (key field : String) : Except Failure String :=
  let v := data.get key
  if v.isGiven then
    match v with
    | .text s => .ok s
    | _ => .error (p.refuse field .notAName)
  else .ok ""

/-- A user in an object field. -/
def user (p : Packet) (field : String) : Except Failure User := do
  let data ← p.object field
  let name ← p.nameIn data "username" (field ++ ".username")
  let id ← Snowflake.decode p.type (field ++ ".id") (data.get "id")
  pure ⟨id, name, (data.get "bot").isGiven⟩

/-- A channel. The server that its object names goes before the given one. -/
def channelIn (p : Packet) (data : Fields) (server : Option Snowflake) :
    Except Failure Channel := do
  let name ← p.nameIn data "name" "name"
  let server ← match data.get "guild_id" with
    | .null => pure server
    | v => some <$> Snowflake.decode p.type "guild_id" v
  let id ← Snowflake.decode p.type "id" (data.get "id")
  pure ⟨id, name, server⟩

/-- The channels in an array field. -/
def channels (p : Packet) (field : String) (server : Option Snowflake) :
    Except Failure (List Channel) := do
  (← p.array field).mapM fun
    | .map data => p.channelIn data server
    | _ => .error (p.refuse field .notObjects)

/-- The users of a reaction object; none if the list is missing. -/
def reactionUsers (p : Packet) (data : Fields) : Except Failure (List Snowflake) :=
  let field := "reactions.user_ids"
  let v := data.get "user_ids"
  if v.isGiven then
    match v with
    | .list us => us.mapM (Snowflake.decode p.type field)
    | _ => .error (p.refuse field .notAUserList)
  else .ok []

/-- A reaction object. One without users says nothing, and its emoji is not decoded. -/
def reactionIn (p : Packet) (data : Fields) : Except Failure (Option Reaction) := do
  match data.get "emoji" with
  | .map emoji =>
    let users ← p.reactionUsers data
    if users.isEmpty then pure none
    else do
      let emoji ← Emoji.decode p.type emoji
      pure (some (.ofUsers emoji users))
  | _ => throw (p.refuse "reactions.emoji" .noEmoji)

/-- The reactions of a message payload. -/
def reactions (p : Packet) : Except Failure (List Reaction) := do
  let found ← (← p.array "reactions").mapM fun
    | .map data => p.reactionIn data
    | _ => .error (p.refuse "reactions" .notObjects)
  pure (found.filterMap id)

end Packet

namespace Notice

/-! ## Decoding by topic -/

/-- Decodes a packet of a topic. -/
def decode (p : Packet) : Topic → Except Failure Notice
  | .reactionAdd => do
    let channel ← p.snowflake "channel_id"
    let message ← p.snowflake "message_id"
    let user ← p.snowflake "user_id"
    let emoji ← p.emoji "emoji"
    pure (reactionAdd channel message user emoji)
  | .reactionRemove => do
    let channel ← p.snowflake "channel_id"
    let message ← p.snowflake "message_id"
    let user ← p.snowflake "user_id"
    let emoji ← p.emoji "emoji"
    pure (reactionRemove channel message user emoji)
  | .reactionRemoveAll => do
    let channel ← p.snowflake "channel_id"
    let message ← p.snowflake "message_id"
    pure (reactionRemoveAll channel message)
  | .reactionRemoveEmoji => do
    let channel ← p.snowflake "channel_id"
    let message ← p.snowflake "message_id"
    let emoji ← p.emoji "emoji"
    pure (reactionRemoveEmoji channel message emoji)
  | .messageCreate => do
    let message ← p.snowflake "id"
    let channel ← p.snowflake "channel_id"
    let author ← p.user "author"
    let content ← p.string? "content"
    let reactions ← p.reactions
    pure (messageCreate channel message author (content.getD "") reactions)
  | .messageDelete => do
    let message ← p.snowflake "id"
    let channel ← p.snowflake "channel_id"
    pure (messageDelete channel message)
  | .channelCreate => channelCreate <$> p.channelIn p.data none
  | .channelDelete => channelDelete <$> p.snowflake "id"
  | .ready => do
    let user ← p.user "user"
    let channels ← p.channels "private_channels" none
    pure (ready user channels)
  | .serverCreate => do
    let server ← p.snowflake "id"
    let name ← p.string? "name"
    let channels ← p.channels "channels" (some server)
    pure (serverCreate ⟨server, name.getD ""⟩ channels)
  | .serverDelete => do
    let server ← p.snowflake "id"
    pure (serverDelete server (p.field "unavailable").isGiven)

/-- The channel that must be cached for a notice to be heard. -/
def channel? : Notice → Option Snowflake
  | reactionAdd c _ _ _ | reactionRemove c _ _ _ | reactionRemoveAll c _ | reactionRemoveEmoji c _ _
  | messageCreate c _ _ _ _ | messageDelete c _ | channelDelete c => some c
  | channelCreate _ | ready _ _ | serverCreate _ _ | serverDelete _ _ => none

/-- The server that must be cached for a notice to be heard. -/
def server? : Notice → Option Snowflake
  | channelCreate ch => ch.server
  | serverDelete s _ => some s
  | _ => none

end Notice

end Switchboard
