import Switchboard.Yaml.Cursor

/-!
# YAML tokens

The pieces of a YAML text. Block structure, which the text shows by indentation, is spelled out by
tokens that open and close blocks.
-/

namespace Switchboard.Yaml

/-- What a directive says. -/
inductive Directive where
  /-- The version of the document. -/
  | version (major : Nat)
  /-- What a tag handle stands for. -/
  | handle (handle whole : String)
  /-- A directive that means nothing. -/
  | reserved

/-- A piece of a text. -/
inductive Token where
  | directive (d : Directive)
  | documentStart
  | documentEnd
  | blockListStart
  | blockMapStart
  | blockEnd
  | flowListStart
  | flowListEnd
  | flowMapStart
  | flowMapEnd
  /-- The dash of an entry of a block list. -/
  | entry
  /-- The comma in a flow collection. -/
  | comma
  | key
  | value
  | alias (name : String)
  | anchor (name : String)
  /-- A tag: a handle, unless the tag is written out, and what follows it. -/
  | tag (handle : Option String) (suffix : String)
  /-- A scalar; `plain` if it was written without quotes. -/
  | scalar (text : String) (plain : Bool)
  /-- The text ends, well or with a problem. -/
  | finish (problem : Option Problem)

end Switchboard.Yaml
