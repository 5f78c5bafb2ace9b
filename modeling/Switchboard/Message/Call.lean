import Switchboard.Entity

/-!
# Calls on the reactions of a message

The operations on a message's reactions as data, with one function that performs a call and gives
its answer. A call whose emoji has an id too long to write fails and changes nothing.
-/

namespace Switchboard

/-- An operation on the reactions of a message. -/
inductive ReactionCall where
  | add (e : Emoji) (user : Snowflake)
  | remove (e : Emoji) (user : Snowflake)
  | dropEmoji (e : Emoji)
  | removeAll
  | get (e : Emoji)
  | replace (rs : List Reaction)
  | contains (e : Emoji) (user : Snowflake)

/-- The answer of a call. -/
inductive ReactionAnswer where
  /-- A record, if there is one. -/
  | record (r : Option Reaction)
  /-- The number of dropped records. -/
  | count (n : Nat)
  /-- Whether the user is in the record, if there is one. -/
  | member (b : Option Bool)
  /-- Nothing to answer. -/
  | done
  deriving DecidableEq

namespace Message

/-- Performs a call; the answer comes with the message after it. -/
def perform (m : Message) : ReactionCall → Except Failure (ReactionAnswer × Message)
  | .add e u => do
    let _ ← e.key?
    let (r, m) := m.react e u
    pure (.record (some r), m)
  | .remove e u => do
    let _ ← e.key?
    let (r, m) := m.unreact e u
    pure (.record r, m)
  | .dropEmoji e => do
    let _ ← e.key?
    let (r, m) := m.dropEmoji e
    pure (.record r, m)
  | .removeAll =>
    let (n, m) := m.clearReactions
    pure (.count n, m)
  | .get e => do
    let _ ← e.key?
    pure (.record (m.reaction? e), m)
  | .replace rs => do
    if rs.all fun r => r.users.isEmpty || r.emoji.hasKey then pure (.done, m.withReactions rs)
    else throw .tooLongToWrite
  | .contains e u => do
    let _ ← e.key?
    pure (.member ((m.reaction? e).map (·.contains u)), m)

end Message

end Switchboard
