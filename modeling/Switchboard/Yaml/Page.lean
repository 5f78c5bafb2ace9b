import Switchboard.Value.Text
import Switchboard.Yaml.Style

/-!
# Writing a YAML document

A page is a written text with what the layout of its next piece depends on. Collections are written
as blocks, two columns deeper than what they belong to; the dashes of a list that is the value of a
key stand below the key. Empty collections are pairs of brackets. A scalar that runs past column 80
goes on in the next line where a single space allows it.
-/

namespace Switchboard.Yaml

/-- A text being written. -/
structure Page where
  text : String := ""
  /-- The column of the next character. -/
  column : Nat := 0
  /-- The last thing written separates. -/
  spaced : Bool := true
  /-- Nothing but indentation and signs of blocks is on the line. -/
  indented : Bool := true

namespace Page

/-- The column past which a scalar goes on in the next line. -/
def width : Nat := 80

/-! ## Pieces -/

/-- Writes characters. -/
def write (p : Page) (cs : List Char) : Page :=
  { p with text := p.text ++ String.ofList cs, column := p.column + cs.length }

/-- Writes a sign, after a space if it has to be set off from what stands before it. -/
def sign (p : Page) (s : List Char) (apart opensBlock : Bool) : Page :=
  let p' := p.write (if apart && !p.spaced then ' ' :: s else s)
  { p' with spaced := false, indented := p.indented && opensBlock }

/-- Ends the line with a line end. -/
def newLine (p : Page) (c : Char) : Page := ⟨p.text.push c, 0, true, true⟩

/-- Moves to a column on a line that holds nothing else before it. -/
def indent (p : Page) (column : Nat) : Page :=
  let isTaken := !p.indented || column < p.column || (p.column = column && !p.spaced)
  let p := if isTaken then p.newLine '\n' else p
  if p.column < column then
    { p.write (List.replicate (column - p.column) ' ') with spaced := true }
  else p

/-- Goes on in the next line within a scalar. -/
def fold (p : Page) (column : Nat) : Page :=
  { p.indent column with spaced := false, indented := false }

/-! ## Scalars -/

/-- The kinds of characters that a scalar is made of. -/
def sameKind (c d : Char) : Bool :=
  (c = ' ') == (d = ' ') && Style.isLineFeed c == Style.isLineFeed d

/-- Writes line ends within single quotes: a line feed is written as one more. -/
def lineFeeds (p : Page) (column : Nat) (cs : List Char) : Page :=
  let p := if cs.head? = some '\n' then p.newLine '\n' else p
  (cs.foldl newLine p).indent column

/-- Writes runs of characters of one kind; a quote is doubled if `quoted`. A single space may become
a line end if `split`, within quotes only inside the text. -/
def runs (quoted split : Bool) (column : Nat) (isFirst : Bool) (p : Page) :
    List (List Char) → Page
  | [] => p
  | r :: rs =>
    let inside := !quoted || (!isFirst && !rs.isEmpty)
    let p :=
      if r = [' '] && width < p.column && split && inside then
        if quoted then p.indent column else p.fold column
      else if r.head?.any Style.isLineFeed then p.lineFeeds column r
      else p.write (if quoted then r.flatMap fun c => if c = '\'' then [c, c] else [c] else r)
    runs quoted split column false p rs

/-- Writes a scalar without quotes. -/
def plain (p : Page) (split : Bool) (column : Nat) (cs : List Char) : Page :=
  if cs.isEmpty then p
  else
    let p := if p.spaced then p else p.write [' ']
    let p := { p with spaced := false, indented := false }
    p.runs false split column true (cs.splitBy sameKind)

/-- Writes a scalar in single quotes. -/
def single (p : Page) (split : Bool) (column : Nat) (cs : List Char) : Page :=
  let p := (p.sign ['\''] true false).runs true split column true (cs.splitBy sameKind)
  p.sign ['\''] false false

/-- The letter or sign of a character that has an escape of its own. -/
def namedEscape? (c : Char) : Option Char :=
  if c = '\x00' then some '0'
  else if c = '\x07' then some 'a'
  else if c = '\x08' then some 'b'
  else if c = '\t' then some 't'
  else if c = '\n' then some 'n'
  else if c = '\x0b' then some 'v'
  else if c = '\x0c' then some 'f'
  else if c = '\r' then some 'r'
  else if c = '\x1b' then some 'e'
  else if c = '"' || c = '\\' then some c
  else if c = '\x85' then some 'N'
  else if c = '\u2028' then some 'L'
  else if c = '\u2029' then some 'P'
  else none

/-- The character stands for itself within double quotes. -/
def isLiteral (c : Char) : Bool :=
  let n := c.toNat
  c != '"' && c != '\\' && n != 0x2028 && n != 0x2029 && n != 0xFEFF &&
    ((0x20 ≤ n && n ≤ 0x7E) || (0xA0 ≤ n && n ≤ 0xD7FF) || (0xE000 ≤ n && n ≤ 0xFFFD))

/-- A code point in upper-case hexadecimal digits. -/
def code (digits n : Nat) : List Char := (toHex digits n).map Char.toUpper

/-- The escape of a character. -/
def escape (c : Char) : List Char :=
  let n := c.toNat
  match namedEscape? c with
  | some r => ['\\', r]
  | none =>
    if n ≤ 0xFF then '\\' :: 'x' :: code 2 n
    else if n ≤ 0xFFFF then '\\' :: 'u' :: code 4 n
    else '\\' :: 'U' :: code 8 n

/-- Breaks the line within double quotes; a space at the beginning of the next line is escaped. -/
def hyphenate (p : Page) (column : Nat) (next : Option Char) : Page :=
  let p := (p.write ['\\']).fold column
  if next = some ' ' then p.write ['\\'] else p

/-- Writes the text within double quotes; `pending` is what is not written yet. The line is broken
before a space or after an escape. -/
def escaped (split : Bool) (column : Nat) :
    (isFirst : Bool) → (pending : List Char) → List Char → Page → Page
  | _, pending, [], p => p.write pending
  | isFirst, pending, c :: cs, p =>
    let inside := !isFirst && !cs.isEmpty && split
    if isLiteral c then
      if inside && (c = ' ' || pending.isEmpty) && width < p.column + pending.length then
        escaped split column false [c] cs ((p.write pending).hyphenate column (some c))
      else escaped split column false (pending ++ [c]) cs p
    else
      let p := (p.write pending).write (escape c)
      let p := if inside && width + 1 < p.column then p.hyphenate column cs.head? else p
      escaped split column false [] cs p

/-- Writes a scalar in double quotes. -/
def double (p : Page) (split : Bool) (column : Nat) (cs : List Char) : Page :=
  (escaped split column true [] cs (p.sign ['"'] true false)).sign ['"'] false false

/-- The text of a scalar. -/
def scalarText : Scalar → String
  | .null => "null"
  | .bool b => if b then "true" else "false"
  | .int n => toString n
  | .float x => DecimalLayout.dotted.render x
  | .text s => s

/-- The style of a scalar. -/
def styleOf (asKey : Bool) : Scalar → Style
  | .text s => .choose (decide (Tag.ofPlain s.toList = .text)) asKey s.toList
  | s => .choose true asKey (scalarText s).toList

/-- Writes a scalar; a key stays on its line. -/
def scalar (p : Page) (asKey : Bool) (column : Nat) (s : Scalar) : Page :=
  let cs := (scalarText s).toList
  match styleOf asKey s with
  | .plain => p.plain (!asKey) column cs
  | .single => p.single (!asKey) column cs
  | .double => p.double (!asKey) column cs

/-- The number of characters of the tag of a scalar. -/
def tagLength : Scalar → Nat
  | .null | .bool _ => 6
  | .int _ | .text _ => 5
  | .float _ => 7

/-- The scalar can stand before a colon. -/
def isShortKey (s : Scalar) : Bool :=
  let cs := (scalarText s).toList
  tagLength s + cs.length < 128 && !cs.isEmpty && !(Style.traits cs).multiline

/-! ## Collections -/

/-- The column of what belongs to something at a column. -/
def deeper (column : Option Nat) (ifRoot : Nat) : Nat :=
  match column with
  | none => ifRoot
  | some c => c + 2

mutual

/-- Writes a value that belongs to something at a column; `inMap` if that is a map. -/
def value (p : Page) (column : Option Nat) (inMap : Bool) : Value → Page
  | .scalar s => p.scalar false (deeper column 2) s
  | .list [] => p.sign ['[', ']'] true false
  | .map [] => p.sign ['\x7b', '\x7d'] true false
  | .list (x :: xs) =>
    let inner := if inMap && !p.indented then column.getD 0 else deeper column 0
    items p inner (x :: xs)
  | .map (e :: es) => entries p (deeper column 0) (e :: es)

/-- Writes the items of a list at a column. -/
def items (p : Page) (column : Nat) : List Value → Page
  | [] => p
  | x :: xs =>
    let p := (p.indent column).sign ['-'] true true
    items (p.value (some column) false x) column xs

/-- Writes the entries of a map at a column. -/
def entries (p : Page) (column : Nat) : List (Scalar × Value) → Page
  | [] => p
  | (k, v) :: es =>
    let p := p.indent column
    let p :=
      if isShortKey k then (p.scalar true (column + 2) k).sign [':'] false false
      else
        let p := (p.sign ['?'] true true).scalar false (column + 2) k
        (p.indent column).sign [':'] true true
    entries (p.value (some column) true v) column es

end

end Page

/-- A value as a document. A scalar without quotes is closed by the mark of a document's end. -/
def render (v : Value) : String :=
  let p := (({} : Page).value none false v).indent 0
  match v with
  | .scalar s => if Page.styleOf false s = .plain then p.text ++ "...\n" else p.text
  | _ => p.text

/-- A value as a document, if it can be written. -/
def write (v : Value) : Except Failure String :=
  if v.isWritable then .ok (render v) else .error .tooLongToWrite

end Switchboard.Yaml
