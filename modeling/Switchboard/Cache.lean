import Switchboard.Entity
import Switchboard.Table

/-!
# The entity cache

The latest known servers, channels, users and messages. Messages stand in the order in which they
entered and are bounded in number: the oldest make room for a new one. Dropping a channel drops the
messages sent in it, dropping a server drops its channels in this way.
-/

namespace Switchboard

/-- What is known of servers, channels, users and messages. -/
structure Cache where
  /-- The greatest number of messages; zero or less keeps none. -/
  capacity : Int := 1000
  servers : List (Snowflake × Server) := []
  channels : List (Snowflake × Channel) := []
  users : List (Snowflake × User) := []
  messages : List (Snowflake × Message) := []
  deriving Inhabited

namespace Cache

/-! ## Lookups -/

/-- A server. -/
def server? (c : Cache) (id : Snowflake) : Option Server := Table.find? id c.servers

/-- A channel. -/
def channel? (c : Cache) (id : Snowflake) : Option Channel := Table.find? id c.channels

/-- A user. -/
def user? (c : Cache) (id : Snowflake) : Option User := Table.find? id c.users

/-- A message. -/
def message? (c : Cache) (id : Snowflake) : Option Message := Table.find? id c.messages

/-- The channels that a server owns. -/
def channelsOf (c : Cache) (server : Snowflake) : List Channel :=
  (Table.values c.channels).filter (·.server == some server)

/-- The messages sent in a channel. -/
def messagesOf (c : Cache) (channel : Snowflake) : List Message :=
  (Table.values c.messages).filter (·.channel == channel)

/-! ## Changes -/

/-- Keeps a server. -/
def keepServer (c : Cache) (s : Server) : Cache := { c with servers := Table.put s.id s c.servers }

/-- Keeps a channel. -/
def keepChannel (c : Cache) (ch : Channel) : Cache :=
  { c with channels := Table.put ch.id ch c.channels }

/-- Keeps channels. -/
def keepChannels (c : Cache) (chs : List Channel) : Cache := chs.foldl keepChannel c

/-- Keeps a user. -/
def keepUser (c : Cache) (u : User) : Cache := { c with users := Table.put u.id u c.users }

/-- Keeps a message as the newest one, and gives the oldest ones that had to make room. -/
def keepMessage (c : Cache) (m : Message) : List Message × Cache :=
  if c.capacity ≤ 0 then ([], c)
  else
    let all := Table.putLast m.id m c.messages
    let excess := all.length - c.capacity.toNat
    (Table.values (all.take excess), { c with messages := all.drop excess })

/-- Puts a changed message in the place of the cached one with its id. -/
def updateMessage (c : Cache) (m : Message) : Cache :=
  { c with messages := Table.put m.id m c.messages }

/-- Drops a message and gives it. -/
def dropMessage (c : Cache) (id : Snowflake) : Option Message × Cache :=
  (c.message? id, { c with messages := Table.drop id c.messages })

/-- Drops a channel with its messages and gives the channel. -/
def dropChannel (c : Cache) (id : Snowflake) : Option Channel × Cache :=
  (c.channel? id,
    { c with
      channels := Table.drop id c.channels
      messages := c.messages.filter (!·.2.channel == id) })

/-- Drops channels with their messages. -/
def dropChannels (c : Cache) (ids : List Snowflake) : Cache :=
  ids.foldl (fun c id => (c.dropChannel id).2) c

/-- Drops a server with its channels and their messages, and gives the server. -/
def dropServer (c : Cache) (id : Snowflake) : Option Server × Cache :=
  let c' : Cache := { c with servers := Table.drop id c.servers }
  (c.server? id, c'.dropChannels ((c'.channelsOf id).map Channel.id))

/-- Drops the messages that entered at the cutoff or before, and gives them. -/
def dropUntil (c : Cache) (cutoff : Instant) : List Message × Cache :=
  let stale := (Table.values c.messages).filter (·.createdAt ≤ cutoff)
  (stale, { c with messages := c.messages.filter (!·.2.createdAt ≤ cutoff) })

/-- Drops the messages that are at least `maxAge` old, and gives them. -/
def dropOlder (c : Cache) (maxAge : Duration) (now : Instant) :
    Except Failure (List Message × Cache) :=
  (Instant.before? now maxAge).map c.dropUntil

/-- Forgets everything. -/
def clear (c : Cache) : Cache := { capacity := c.capacity }

end Cache

end Switchboard
