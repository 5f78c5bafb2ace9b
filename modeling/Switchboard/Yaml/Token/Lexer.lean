import Switchboard.Yaml.Token.Bare
import Switchboard.Yaml.Token.Property
import Switchboard.Yaml.Token.Quoted

/-!
# Lexing YAML

`tokens` takes a text apart. Whether a token is a key is known only when the colon after it is met,
so the lexer remembers where a key may have begun, one place for each level of flow collections, and
puts the key token there later. Such a place is good on its own line and for 1024 characters. A
token that stands at the indentation of the block around it has to be a key.
-/

namespace Switchboard.Yaml

/-- A place where a key may have begun. -/
structure PossibleKey where
  /-- The number of tokens before it. -/
  number : Nat
  /-- The block around it goes on only with a key. -/
  required : Bool
  index : Nat
  line : Nat
  column : Nat

/-- The state of lexing. -/
structure Lexer where
  cursor : Cursor
  tokens : Array Token := #[]
  /-- The number of flow collections around the cursor. -/
  flow : Nat := 0
  /-- The indentation of the block around the cursor. -/
  indent : Int := -1
  /-- The indentations of the blocks around that one, innermost first. -/
  outer : List Int := []
  /-- A key may begin here. -/
  allowKey : Bool := true
  /-- Where keys may have begun, by flow level. -/
  keys : List (Nat × PossibleKey) := []

namespace Lexer

/-- Adds a token. -/
def push (l : Lexer) (t : Token) : Lexer := { l with tokens := l.tokens.push t }

/-- Adds the token of a sign of some characters. -/
def pushSign (l : Lexer) (t : Token) (length : Nat) : Lexer :=
  { l.push t with cursor := l.cursor.forward length }

/-! ## Keys -/

/-- Gives up the place of a key that a new line or a long text has made impossible. -/
def dropStaleKeys (l : Lexer) : Except Problem Lexer :=
  let c := l.cursor
  let isStale (k : PossibleKey) : Bool := k.line != c.line || 1024 < c.index - k.index
  if l.keys.any fun e => isStale e.2 && e.2.required then .error .malformed
  else .ok { l with keys := l.keys.filter fun e => !isStale e.2 }

/-- Gives up the place of a key on this level. -/
def dropKey (l : Lexer) : Except Problem Lexer :=
  match Table.find? l.flow l.keys with
  | none => .ok l
  | some k =>
    if k.required then .error .malformed
    else .ok { l with keys := Table.drop l.flow l.keys }

/-- Notes that a key may begin here. -/
def saveKey (l : Lexer) : Except Problem Lexer :=
  if l.allowKey then do
    let c := l.cursor
    let l ← l.dropKey
    let required := l.flow = 0 && l.indent = c.column
    let key : PossibleKey := ⟨l.tokens.size, required, c.index, c.line, c.column⟩
    pure { l with keys := Table.put l.flow key l.keys }
  else .ok l

/-! ## Blocks -/

/-- Closes the blocks that are indented deeper than a column. -/
def closeBlocks (column : Int) : List Int → Lexer → Lexer
  | [], l => l
  | i :: outer, l =>
    if column < l.indent then
      closeBlocks column outer { l.push .blockEnd with indent := i, outer }
    else l

/-- Closes the blocks that are indented deeper than a column, outside flow collections. -/
def unwind (l : Lexer) (column : Int) : Lexer :=
  if l.flow = 0 then closeBlocks column l.outer l else l

/-- Opens a block at a column, unless the block around is there already: its token is put before the
token of the given number. -/
def openBlock (l : Lexer) (column : Nat) (t : Token) (number : Nat) : Lexer :=
  if l.flow = 0 && l.indent < column then
    { l with
      tokens := (l.tokens.toList.take number ++ t :: l.tokens.toList.drop number).toArray
      indent := column
      outer := l.indent :: l.outer }
  else l

/-! ## Tokens -/

/-- The place of the next token. A line end outside flow collections allows a key again. -/
def skipGaps : Nat → Lexer → Lexer
  | 0, l => l
  | fuel + 1, l =>
    let c := (l.cursor.skip (· = ' ')).skipComment
    match c.lineBreak with
    | ([], _) => { l with cursor := c }
    | (_, c) => skipGaps fuel { l with cursor := c, allowKey := l.allowKey || l.flow = 0 }

/-- The text ends. -/
def finish (l : Lexer) : Except Problem Lexer := do
  let l ← (l.unwind (-1)).dropKey
  pure (l.push (.finish none))

/-- A directive or a separator of documents, before which all blocks are closed. -/
def topLevel (l : Lexer) (read : Cursor → Except Problem (Token × Cursor)) :
    Except Problem Lexer := do
  let l ← (l.unwind (-1)).dropKey
  let (t, c) ← read l.cursor
  pure { l.push t with cursor := c, allowKey := false }

/-- The sign that opens a flow collection. -/
def openFlow (l : Lexer) (t : Token) : Except Problem Lexer := do
  let l ← l.saveKey
  pure { l.pushSign t 1 with flow := l.flow + 1, allowKey := true }

/-- The sign that closes a flow collection. -/
def closeFlow (l : Lexer) (t : Token) : Except Problem Lexer := do
  if l.flow = 0 then throw .malformed
  let l ← l.dropKey
  pure { l.pushSign t 1 with flow := l.flow - 1, allowKey := false }

/-- The comma in a flow collection. -/
def comma (l : Lexer) : Except Problem Lexer := do
  let l ← l.dropKey
  pure { l.pushSign .comma 1 with allowKey := true }

/-- The dash of an entry. -/
def entry (l : Lexer) : Except Problem Lexer := do
  if l.flow = 0 && !l.allowKey then throw .malformed
  let l := l.openBlock l.cursor.column .blockListStart l.tokens.size
  let l ← l.dropKey
  pure { l.pushSign .entry 1 with allowKey := true }

/-- The sign of a key that is written out. -/
def key (l : Lexer) : Except Problem Lexer := do
  if l.flow = 0 && !l.allowKey then throw .malformed
  let l := l.openBlock l.cursor.column .blockMapStart l.tokens.size
  let l ← l.dropKey
  pure { l.pushSign .key 1 with allowKey := l.flow = 0 }

/-- The colon before a value. If a key may have begun on this level, that is where it began. -/
def value (l : Lexer) : Except Problem Lexer := do
  match Table.find? l.flow l.keys with
  | some k =>
    let tokens := (l.tokens.toList.take k.number ++ .key :: l.tokens.toList.drop k.number).toArray
    let l := { l with tokens, keys := Table.drop l.flow l.keys }
    let l := l.openBlock k.column .blockMapStart k.number
    pure { l.pushSign .value 1 with allowKey := false }
  | none =>
    if l.flow = 0 && !l.allowKey then throw .malformed
    let l := l.openBlock l.cursor.column .blockMapStart l.tokens.size
    let l ← l.dropKey
    pure { l.pushSign .value 1 with allowKey := l.flow = 0 }

/-- A token that may be a key, after which no key begins. -/
def keyLike (l : Lexer) (read : Cursor → Except Problem (Token × Cursor)) :
    Except Problem Lexer := do
  let l ← l.saveKey
  let (t, c) ← read l.cursor
  pure { l.push t with cursor := c, allowKey := false }

/-- A block scalar, after which a key may begin. -/
def blockScalar (l : Lexer) (folded : Bool) : Except Problem Lexer := do
  let l ← l.dropKey
  let (cs, c) ← Block.read folded l.indent l.cursor.next
  pure { l.push (.scalar (String.ofList cs) false) with cursor := c, allowKey := true }

/-- A plain scalar, after which a key may begin if a line has ended. -/
def plainScalar (l : Lexer) : Except Problem Lexer := do
  let l ← l.saveKey
  let (cs, ended, c) := Plain.read (0 < l.flow) (l.indent + 1) l.cursor
  pure { l.push (.scalar (String.ofList cs) true) with cursor := c, allowKey := ended }

/-- A quoted scalar as a token. -/
def readQuoted (c : Cursor) : Except Problem (Token × Cursor) :=
  (Quoted.read c).map fun (cs, c) => (.scalar (String.ofList cs) false, c)

/-- An anchor or alias as a token. -/
def readAnchor (token : String → Token) (c : Cursor) : Except Problem (Token × Cursor) :=
  (Property.anchor c.next).map fun (n, c) => (token n, c)

/-- A plain scalar may begin here. -/
def atPlain (l : Lexer) : Bool :=
  let ch := l.cursor.peek
  let isIndicator := isGap ch || "-?:,[]\x7b\x7d#&*!|>'\"%@`".toList.contains ch
  !isIndicator ||
    (!isGap (l.cursor.peekAt 1) && (ch = '-' || (l.flow = 0 && (ch = '?' || ch = ':'))))

/-- Adds the token that begins at the cursor. -/
def token (l : Lexer) : Except Problem Lexer :=
  let c := l.cursor
  let ch := c.peek
  let alone := isGap (c.peekAt 1)
  if ch = endMark then l.finish
  else if ch = '%' && c.column = 0 then l.topLevel Property.directive
  else if c.column = 0 && c.atMarker '-' then
    l.topLevel fun c => .ok (.documentStart, c.forward 3)
  else if c.column = 0 && c.atMarker '.' then l.topLevel fun c => .ok (.documentEnd, c.forward 3)
  else if ch = '[' then l.openFlow .flowListStart
  else if ch = '\x7b' then l.openFlow .flowMapStart
  else if ch = ']' then l.closeFlow .flowListEnd
  else if ch = '\x7d' then l.closeFlow .flowMapEnd
  else if ch = ',' then l.comma
  else if ch = '-' && alone then l.entry
  else if ch = '?' && (0 < l.flow || alone) then l.key
  else if ch = ':' && (0 < l.flow || alone) then l.value
  else if ch = '*' then l.keyLike (readAnchor .alias)
  else if ch = '&' then l.keyLike (readAnchor .anchor)
  else if ch = '!' then l.keyLike Property.tag
  else if ch = '|' && l.flow = 0 then l.blockScalar false
  else if ch = '>' && l.flow = 0 then l.blockScalar true
  else if ch = '\'' || ch = '"' then l.keyLike readQuoted
  else if l.atPlain then l.plainScalar
  else .error .malformed

/-- Moves to the next token and adds it. -/
def advance (l : Lexer) : Except Problem Lexer := do
  let l := skipGaps (l.cursor.rest.length + 1) l
  let l ← l.dropStaleKeys
  (l.unwind l.cursor.column).token

/-- The text has been taken apart to its end. -/
def isFinished (l : Lexer) : Bool :=
  match l.tokens.back? with
  | some (.finish _) => true
  | _ => false

/-- Takes the text apart; a problem is the last token. -/
def run : Nat → Lexer → Lexer
  | 0, l => l.push (.finish (some .malformed))
  | fuel + 1, l =>
    if l.isFinished then l
    else
      match l.advance with
      | .ok l => run fuel l
      | .error p => l.push (.finish (some p))

end Lexer

/-- The tokens of a text. An order mark at its beginning is skipped. -/
def tokens (cs : List Char) : List Token :=
  if !cs.all isAllowed then [.finish (some .malformed)]
  else
    let c : Cursor := { rest := cs }
    let c := if c.peek = orderMark then c.next else c
    (Lexer.run (cs.length + 2) { cursor := c }).tokens.toList

end Switchboard.Yaml
