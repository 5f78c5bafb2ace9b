import Switchboard.Text.Character
import Switchboard.Text.Octets
import Switchboard.Yaml.Token

/-!
# Directives, anchors and tags

The parts of a text that say something about nodes: directives before a document, and the anchors,
aliases and tags of its nodes.
-/

namespace Switchboard.Yaml.Property

/-- A name, which is not empty. -/
def name (c : Cursor) : Except Problem (String × Cursor) :=
  match c.span isNameChar with
  | ([], _) => .error .malformed
  | (cs, c) => .ok (String.ofList cs, c)

/-- A character that may follow an anchor or an alias. -/
def endsAnchor (c : Char) : Bool := isGap c || "?:,]\x7d%@`".toList.contains c

/-- The name of an anchor or an alias, after its sign. -/
def anchor (c : Cursor) : Except Problem (String × Cursor) := do
  let (n, c) ← name c
  if endsAnchor c.peek then pure (n, c) else throw .malformed

/-! ## Tags -/

/-- A tag handle: one sign, or a name between two signs. -/
def handle (c : Cursor) : Except Problem (String × Cursor) :=
  if c.peek != '!' then .error .malformed
  else if c.peekAt 1 = ' ' then .ok ("!", c.next)
  else
    let (cs, d) := c.next.span isNameChar
    if d.peek = '!' then .ok (String.ofList ('!' :: cs ++ ['!']), d.next) else .error .malformed

/-- A character of the text of a tag that stands for itself. -/
def isTagChar (c : Char) : Bool :=
  isNameChar c || ";/?:@&=+$,.!~*'()[]".toList.contains c

/-- The octets of a run of escapes, each two digits after a percent sign. -/
def escapes : Nat → Cursor → Except Problem (List UInt8 × Cursor)
  | 0, _ => .error .malformed
  | fuel + 1, c =>
    if c.peek = '%' then
      match hexDigit? (c.peekAt 1), hexDigit? (c.peekAt 2) with
      | some a, some b =>
        (escapes fuel (c.forward 3)).map fun (bs, c) => (UInt8.ofNat (16 * a + b) :: bs, c)
      | _, _ => .error .malformed
    else .ok ([], c)

/-- The text of a tag, perhaps empty. -/
def tagText : Nat → Cursor → Except Problem (List Char × Cursor)
  | 0, _ => .error .malformed
  | fuel + 1, c =>
    let (cs, c) := c.span isTagChar
    if c.peek = '%' then do
      let (octets, c) ← escapes (c.rest.length + 1) c
      match Octets.decode? octets with
      | none => throw .malformed
      | some ds => do
        let (more, c) ← tagText fuel c
        pure (cs ++ ds ++ more, c)
    else .ok (cs, c)

/-- The text of a tag. At least one character is written. -/
def tagSuffix (c : Cursor) : Except Problem (String × Cursor) :=
  if isTagChar c.peek || c.peek = '%' then
    (tagText (c.rest.length + 1) c).map fun (cs, c) => (String.ofList cs, c)
  else .error .malformed

/-- A tag with a handle: the sign alone is one, unless a second sign follows in the same word. -/
def shortTag (c : Cursor) : Except Problem (Token × Cursor) := do
  let word := (c.rest.drop 1).takeWhile (!isSpaceOrEnd ·)
  let (h, c) ← if word.contains '!' then handle c else pure ("!", c.next)
  let (suffix, c) ← tagSuffix c
  pure (.tag (some h) suffix, c)

/-- The tag that begins here. -/
def tag (c : Cursor) : Except Problem (Token × Cursor) := do
  let (t, c) ←
    if c.peekAt 1 = '<' then do
      let (suffix, c) ← tagSuffix (c.forward 2)
      if c.peek = '>' then pure (Token.tag none suffix, c.next) else throw .malformed
    else if isGap (c.peekAt 1) then pure (.tag none "!", c.next)
    else shortTag c
  if isSpaceOrEnd c.peek then pure (t, c) else throw .malformed

/-! ## Directives -/

/-- A number of a version. -/
def versionNumber (c : Cursor) : Except Problem (Nat × Cursor) :=
  match c.span fun ch => (asciiDigit? ch).isSome with
  | ([], _) => .error .malformed
  | (cs, c) => .ok (ofDigits 0 (cs.filterMap asciiDigit?), c)

/-- The version that a document asks for. -/
def version (c : Cursor) : Except Problem (Directive × Cursor) := do
  let (major, c) ← versionNumber (c.skip (· = ' '))
  if c.peek != '.' then throw .malformed
  let (_, c) ← versionNumber c.next
  if isSpaceOrEnd c.peek then pure (.version major, c) else throw .malformed

/-- The meaning that a document gives to a tag handle. -/
def handleDirective (c : Cursor) : Except Problem (Directive × Cursor) := do
  let (h, c) ← handle (c.skip (· = ' '))
  if c.peek != ' ' then throw .malformed
  let (whole, c) ← tagSuffix (c.skip (· = ' '))
  if isSpaceOrEnd c.peek then pure (.handle h whole, c) else throw .malformed

/-- The directive that begins here, with its line. -/
def directive (c : Cursor) : Except Problem (Token × Cursor) := do
  let (n, c) ← name c.next
  if !isSpaceOrEnd c.peek then throw .malformed
  let (d, c) ←
    if n = "YAML" then version c
    else if n = "TAG" then handleDirective c
    else pure (.reserved, c.skip (!isLineEnd ·))
  let c := (c.skip (· = ' ')).skipComment
  if isLineEnd c.peek then pure (.directive d, c.lineBreak.2) else throw .malformed

end Switchboard.Yaml.Property
