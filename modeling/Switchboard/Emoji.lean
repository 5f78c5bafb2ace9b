import Switchboard.Snowflake
import Switchboard.Text.Character

/-!
# Emojis

A custom emoji is identified by its id, a unicode emoji by its name. Names of unicode emojis are
kept in a normal form, without blanks at the ends and without the variation selector that clients
send or leave out; `Emoji.key` is what reaction records are filed under.
-/

namespace Switchboard

/-- An emoji: custom if it has an id. -/
structure Emoji where
  name : Option String
  id : Option Snowflake := none
  deriving DecidableEq, Inhabited

namespace Emoji

/-- The variation selector that asks for the coloured picture. -/
def selector : Char := '\uFE0F'

/-- A name without blanks at the ends and then without variation selectors. -/
def normalizeChars (cs : List Char) : List Char := (trim cs).filter (· != selector)

/-- The normal form of a unicode emoji's name. -/
def normalize (s : String) : String := String.ofList (normalizeChars s.toList)

/-- The emoji has an id. -/
def isCustom (e : Emoji) : Bool := e.id.isSome

/-- What reaction records of this emoji are filed under. -/
def key (e : Emoji) : String :=
  match e.id with
  | some n => toString n
  | none => e.name.getD ""

/-- The id, if there is one, can be written as text. -/
def hasKey (e : Emoji) : Bool := e.id.all isWritable

/-- The key, unless the id is too long to write. -/
def key? (e : Emoji) : Except Failure String :=
  if e.hasKey then .ok e.key else .error .tooLongToWrite

/-- How clients write the emoji in a message. -/
def mention (e : Emoji) : String :=
  match e.id with
  | some n => "<:" ++ e.name.getD "None" ++ ":" ++ toString n ++ ">"
  | none => e.name.getD ""

/-- The emoji in messages about it. -/
def shown (e : Emoji) : String :=
  let name := (e.name.map quoted).getD "None"
  let id := (e.id.map (toString ·)).getD "None"
  "Emoji(name=" ++ name ++ ", id=" ++ id ++ ")"

/-- Decodes an emoji object. The name must be a text if it is given; without an id it must be given
and not empty, and is brought into normal form. -/
def decode (packetType : String) (data : Fields) : Except Failure Emoji := do
  let name ← match data.get "name" with
    | .null => pure none
    | .text s => pure (some s)
    | _ => throw (.decode ⟨packetType, some "emoji.name", .notAName⟩)
  match data.get "id" with
  | .null =>
    match name with
    | some s =>
      if s.isEmpty then throw (.decode ⟨packetType, some "emoji", .noIdentity⟩)
      else pure ⟨some (normalize s), none⟩
    | none => throw (.decode ⟨packetType, some "emoji", .noIdentity⟩)
  | v => do
    let n ← Snowflake.decode packetType "emoji.id" v
    pure ⟨name, some n⟩

end Emoji

end Switchboard
