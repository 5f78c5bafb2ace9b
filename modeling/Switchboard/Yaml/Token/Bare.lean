import Switchboard.Yaml.Token

/-!
# Scalars without quotes

A plain scalar runs to a colon before a blank, to a comment, to an indicator of the flow collection
around it, or to a line that is indented too little; its line ends are folded. A block scalar is the
indented lines below its indicator, kept as they are or folded.
-/

namespace Switchboard.Yaml

namespace Plain

/-- A character of the indicators that end a plain scalar within a flow collection. -/
def isFlowIndicator (c : Char) : Bool :=
  c = ',' || c = '?' || c = '[' || c = ']' || c = '\x7b' || c = '\x7d'

/-- A colon before this character ends a plain scalar. -/
def endsAfterColon (flow : Bool) (c : Char) : Bool :=
  isGap c || (flow && c != '?' && isFlowIndicator c)

/-- The characters of a plain scalar up to a blank or its end. -/
def word (flow : Bool) : List Char → List Char
  | [] => []
  | ch :: rest =>
    if isGap ch || (ch = ':' && endsAfterColon flow (rest.headD endMark)) ||
        (flow && isFlowIndicator ch) then []
    else ch :: word flow rest

/-- The line ends and spaces after a first line end, as the line ends that they stand for; `none`
before a separator of documents. -/
def breaks : Nat → Cursor → Option (List Char) × Cursor
  | 0, c => (none, c)
  | fuel + 1, c =>
    if c.atSeparator then (none, c)
    else
      let c := c.skip (· = ' ')
      match c.lineBreak with
      | ([], _) => (some [], c)
      | (b, c) =>
        let (bs, c) := breaks fuel c
        (bs.map (b ++ ·), c)

/-- What stands between two words: the text it stands for, which is empty when the scalar ends here,
and whether a line was ended. -/
def spaces (c : Cursor) : List Char × Bool × Cursor :=
  let (blanks, c) := c.span (· = ' ')
  match c.lineBreak with
  | ([], _) => (blanks, false, c)
  | (b, c) =>
    match breaks (c.rest.length + 1) c with
    | (none, c) => ([], true, c)
    | (some bs, c) =>
      if b != ['\n'] then (b ++ bs, true, c)
      else if bs.isEmpty then ([' '], true, c)
      else (bs, true, c)

/-- A plain scalar from a word on: its text, whether a line was ended after it, and the place. `gap`
is what stands between the text so far and the word. The indentation counts outside flow
collections. -/
def words (flow : Bool) (indent : Int) : Nat → List Char → List Char → Bool → Cursor →
    List Char × Bool × Cursor
  | 0, text, _, ended, c => (text, ended, c)
  | fuel + 1, text, gap, ended, c =>
    let w := word flow c.rest
    if c.peek = '#' || w.isEmpty then (text, ended, c)
    else
      let text := text ++ gap ++ w
      let (gap, ended, c) := spaces (c.forward w.length)
      if gap.isEmpty || c.peek = '#' || (!flow && (c.column : Int) < indent) then (text, ended, c)
      else words flow indent fuel text gap ended c

/-- The plain scalar that begins here. -/
def read (flow : Bool) (indent : Int) (c : Cursor) : List Char × Bool × Cursor :=
  words flow indent (c.rest.length + 1) [] [] false c

end Plain

namespace Block

/-- What happens to the line ends at the end of a block scalar. -/
inductive Chomp where
  /-- None is kept. -/
  | strip
  /-- One is kept. -/
  | clip
  /-- All are kept. -/
  | keep
  deriving DecidableEq

/-- The chomping that a sign asks for. -/
def chomp? : Char → Option Chomp
  | '+' => some .keep
  | '-' => some .strip
  | _ => none

/-- The increment that a digit asks for; zero is an error. -/
def increment? (c : Char) : Except Problem (Option Nat) :=
  if c = '0' then .error .malformed
  else if '1' ≤ c && c ≤ '9' then .ok (some (c.toNat - 0x30))
  else .ok none

/-- The header of a block scalar: chomping and increment, in either order. -/
def header (c : Cursor) : Except Problem (Chomp × Option Nat × Cursor) := do
  let (chomp, inc, c) ←
    match chomp? c.peek with
    | some chomp => do
      let c := c.next
      let inc ← increment? c.peek
      pure (chomp, inc, if inc.isSome then c.next else c)
    | none => do
      match ← increment? c.peek with
      | none => pure (Chomp.clip, none, c)
      | some n =>
        let c := c.next
        match chomp? c.peek with
        | some chomp => pure (chomp, some n, c.next)
        | none => pure (.clip, some n, c)
  if isSpaceOrEnd c.peek then pure (chomp, inc, c) else throw .malformed

/-- The place after the spaces, the comment and the end of a line that holds nothing else. -/
def endOfLine (c : Cursor) : Except Problem Cursor :=
  let c := (c.skip (· = ' ')).skipComment
  if isLineEnd c.peek then .ok c.lineBreak.2 else .error .malformed

/-- The blank lines before the first line of text, and the greatest indentation found there. -/
def leading : Nat → Nat → Cursor → List Char × Nat × Cursor
  | 0, most, c => ([], most, c)
  | fuel + 1, most, c =>
    let c := c.skip (· = ' ')
    let most := max most c.column
    match c.lineBreak with
    | ([], _) => ([], most, c)
    | (b, c) =>
      let (bs, most, c) := leading fuel most c
      (b ++ bs, most, c)

/-- The place after at most as many spaces as lead to a column. -/
def indentTo (indent : Nat) (c : Cursor) : Cursor :=
  c.forward ((c.rest.take (indent - c.column)).takeWhile (· = ' ')).length

/-- The blank lines here, up to the indentation of the next line. -/
def breaks (indent : Nat) : Nat → Cursor → List Char × Cursor
  | 0, c => ([], c)
  | fuel + 1, c =>
    let c := indentTo indent c
    match c.lineBreak with
    | ([], _) => ([], c)
    | (b, c) =>
      let (bs, c) := breaks indent fuel c
      (b ++ bs, c)

/-- The lines of a block scalar from blank lines on: the text, the last line end, the blank lines at
the end, and the place. -/
def lines (folded : Bool) (indent : Nat) : Nat → List Char → List Char → List Char → Cursor →
    List Char × List Char × List Char × Cursor
  | 0, text, ending, blank, c => (text, ending, blank, c)
  | fuel + 1, text, ending, blank, c =>
    if c.column = indent && c.peek != endMark then
      let isWord (ch : Char) : Bool := ch != ' ' && ch != '\t'
      let begins := isWord c.peek
      let (line, c) := c.span (!isLineEnd ·)
      let text := text ++ blank ++ line
      let (ending, c) := c.lineBreak
      let (blank, c) := breaks indent (c.rest.length + 1) c
      if c.column = indent && c.peek != endMark then
        let joint :=
          if folded && ending = ['\n'] && begins && isWord c.peek then
            if blank.isEmpty then [' '] else []
          else ending
        lines folded indent fuel (text ++ joint) ending blank c
      else (text, ending, blank, c)
    else (text, ending, blank, c)

/-- The block scalar after its indicator, within blocks of the given indentation. -/
def read (folded : Bool) (outer : Int) (c : Cursor) : Except Problem (List Char × Cursor) := do
  let (chomp, inc, c) ← header c
  let c ← endOfLine c
  let least := (outer + 1).toNat.max 1
  let fuel := c.rest.length + 1
  let (indent, blank, c) :=
    match inc with
    | some n =>
      let indent := least + n - 1
      let (blank, c) := breaks indent fuel c
      (indent, blank, c)
    | none =>
      let (blank, most, c) := leading fuel 0 c
      (max least most, blank, c)
  let (text, ending, blank, c) := lines folded indent fuel [] [] blank c
  let tail := match chomp with
    | .strip => []
    | .clip => ending
    | .keep => ending ++ blank
  pure (text ++ tail, c)

end Block

end Switchboard.Yaml
