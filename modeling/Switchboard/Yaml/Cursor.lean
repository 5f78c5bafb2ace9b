import Switchboard.Yaml.Library

/-!
# A place in a YAML text

A cursor is the rest of a text with the index, line and column of its first character. Beyond the
end every character reads as the end mark U+0000, which no text can hold. The classes of characters
that the grammar goes by are here too.
-/

namespace Switchboard.Yaml

/-! ## Characters -/

/-- What is read beyond the end of a text. -/
def endMark : Char := '\x00'

/-- The mark that may open a text and takes no column. -/
def orderMark : Char := '\uFEFF'

/-- A character that ends a line. -/
def isBreak (c : Char) : Bool :=
  c = '\n' || c = '\r' || c = '\x85' || c = '\u2028' || c = '\u2029'

/-- The end of a line or of the text. -/
def isLineEnd (c : Char) : Bool := c = endMark || isBreak c

/-- What may follow an indicator: a blank, or the end of the line. -/
def isGap (c : Char) : Bool := c = ' ' || c = '\t' || isLineEnd c

/-- A space, or the end of the line. -/
def isSpaceOrEnd (c : Char) : Bool := c = ' ' || isLineEnd c

/-- A character of names of anchors, directives and tag handles. -/
def isNameChar (c : Char) : Bool :=
  ('0' ≤ c && c ≤ '9') || ('A' ≤ c && c ≤ 'Z') || ('a' ≤ c && c ≤ 'z') || c = '-' || c = '_'

/-- A character that a text may hold. -/
def isAllowed (c : Char) : Bool :=
  let n := c.toNat
  c = '\t' || c = '\n' || c = '\r' || (0x20 ≤ n && n ≤ 0x7E) || n = 0x85 ||
    (0xA0 ≤ n && n ≤ 0xD7FF) || (0xE000 ≤ n && n ≤ 0xFFFD) || 0x10000 ≤ n

/-! ## Cursors -/

/-- A place in a text. -/
structure Cursor where
  rest : List Char
  index : Nat := 0
  line : Nat := 0
  column : Nat := 0

namespace Cursor

/-- The character at a distance. -/
def peekAt (c : Cursor) (n : Nat) : Char := c.rest.getD n endMark

/-- The next character. -/
def peek (c : Cursor) : Char := c.rest.headD endMark

/-- The place after a character. -/
def step (ch : Char) (rest : List Char) (c : Cursor) : Cursor :=
  if isBreak ch then ⟨rest, c.index + 1, c.line + 1, 0⟩
  else ⟨rest, c.index + 1, c.line, if ch = orderMark then c.column else c.column + 1⟩

/-- The place after the next character. -/
def next (c : Cursor) : Cursor :=
  match c.rest with
  | [] => c
  | ch :: rest => step ch rest c

/-- The place some characters further on. -/
def forward (c : Cursor) : Nat → Cursor
  | 0 => c
  | n + 1 => c.next.forward n

/-- The characters that satisfy a test, and the place after them. -/
def spanAux (p : Char → Bool) : List Char → Cursor → List Char × Cursor
  | [], c => ([], c)
  | ch :: rest, c =>
    if p ch then
      let (taken, c) := spanAux p rest (step ch rest c)
      (ch :: taken, c)
    else ([], c)

/-- The characters that satisfy a test, and the place after them. -/
def span (p : Char → Bool) (c : Cursor) : List Char × Cursor := spanAux p c.rest c

/-- The place after all characters that satisfy a test. -/
def skip (p : Char → Bool) (c : Cursor) : Cursor := (c.span p).2

/-- The place after a comment, if one begins here. -/
def skipComment (c : Cursor) : Cursor := if c.peek = '#' then c.skip (!isLineEnd ·) else c

/-- A line end as it counts in text: the separators of lines and paragraphs as themselves, any other
as a line feed. -/
def lineBreak (c : Cursor) : List Char × Cursor :=
  let ch := c.peek
  if ch = '\u2028' || ch = '\u2029' then ([ch], c.next)
  else if ch = '\r' && c.peekAt 1 = '\n' then (['\n'], c.forward 2)
  else if isBreak ch then (['\n'], c.next)
  else ([], c)

/-- Three characters that separate documents stand here. -/
def atMarker (c : Cursor) (ch : Char) : Bool :=
  c.peek = ch && c.peekAt 1 = ch && c.peekAt 2 = ch && isGap (c.peekAt 3)

/-- A separator of documents stands here. -/
def atSeparator (c : Cursor) : Bool := c.atMarker '-' || c.atMarker '.'

end Cursor

end Switchboard.Yaml
