import Switchboard.Emoji
import Switchboard.Moment

/-!
# Entities

Users, servers, channels, and messages with their reactions. A message keeps one record per emoji,
filed under the emoji's key in the order in which the keys appeared, and a record is kept only while
it has users. The users of a record are kept in increasing order, so equal sets are equal lists.
-/

namespace Switchboard

/-- A user. -/
structure User where
  id : Snowflake
  name : String := ""
  bot : Bool := false
  deriving DecidableEq, Inhabited

/-- A server. -/
structure Server where
  id : Snowflake
  name : String := ""
  deriving DecidableEq, Inhabited

/-- A text channel: owned by a server, or private. -/
structure Channel where
  id : Snowflake
  name : String := ""
  server : Option Snowflake := none
  deriving DecidableEq, Inhabited

/-- Adds a user to an increasing list of users. -/
def insertUser (u : Snowflake) : List Snowflake → List Snowflake
  | [] => [u]
  | v :: vs => if u < v then u :: v :: vs else if u = v then v :: vs else v :: insertUser u vs

/-- All reactions with one emoji: its users in increasing order. -/
structure Reaction where
  emoji : Emoji
  users : List Snowflake := []
  deriving DecidableEq, Inhabited

namespace Reaction

/-- The number of users. -/
def count (r : Reaction) : Nat := r.users.length

/-- The user is among them. -/
def contains (r : Reaction) (u : Snowflake) : Bool := r.users.contains u

/-- The record with the users of a list. -/
def ofUsers (emoji : Emoji) (us : List Snowflake) : Reaction := ⟨emoji, us.foldr insertUser []⟩

end Reaction

/-- A message in the cache; `createdAt` is when it entered. -/
structure Message where
  id : Snowflake
  channel : Snowflake
  author : Option Snowflake := none
  content : String := ""
  createdAt : Instant := 0
  /-- Reaction records by emoji key. -/
  reactions : List (String × Reaction) := []
  deriving DecidableEq, Inhabited

namespace Message

/-- The record of an emoji. -/
def reaction? (m : Message) (e : Emoji) : Option Reaction := Table.find? e.key m.reactions

/-- Adds a user to the record of an emoji and gives the new record, which shows the emoji as it was
last sent. -/
def react (m : Message) (e : Emoji) (u : Snowflake) : Reaction × Message :=
  let users := ((m.reaction? e).map Reaction.users).getD []
  let r : Reaction := ⟨e, insertUser u users⟩
  (r, { m with reactions := Table.put e.key r m.reactions })

/-- Takes a user from the record of an emoji and gives what remains; a record without users goes. -/
def unreact (m : Message) (e : Emoji) (u : Snowflake) : Option Reaction × Message :=
  match m.reaction? e with
  | none => (none, m)
  | some r =>
    let users := r.users.filter (· != u)
    if users.isEmpty then (none, { m with reactions := Table.drop e.key m.reactions })
    else
      let r' : Reaction := ⟨r.emoji, users⟩
      (some r', { m with reactions := Table.put e.key r' m.reactions })

/-- Drops the record of an emoji and gives it. -/
def dropEmoji (m : Message) (e : Emoji) : Option Reaction × Message :=
  (m.reaction? e, { m with reactions := Table.drop e.key m.reactions })

/-- Drops all records and gives their number. -/
def clearReactions (m : Message) : Nat × Message :=
  (m.reactions.length, { m with reactions := [] })

/-- Takes a whole list of records in place of the present ones. Records without users are skipped,
and of two records under one key the later one stays. -/
def withReactions (m : Message) (rs : List Reaction) : Message :=
  let kept := rs.filter fun r => !r.users.isEmpty
  { m with reactions := Table.ofList (kept.map fun r => (r.emoji.key, r)) }

end Message

end Switchboard
