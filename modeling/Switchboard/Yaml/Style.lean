import Switchboard.Yaml.Tag

/-!
# The style of a scalar

How a scalar is to be written: without quotes if it then reads as what it is and holds nothing that
the grammar would take for something else, in single quotes if its line ends and spaces survive
there, and in double quotes otherwise.
-/

namespace Switchboard.Yaml

/-- A way to write a scalar. -/
inductive Style where
  | plain
  | single
  | double
  deriving DecidableEq

namespace Style

/-- What matters of a text for the choice of its style. -/
structure Traits where
  /-- A character that would be taken for an indicator. -/
  indicator : Bool := false
  /-- A line end. -/
  multiline : Bool := false
  /-- A character that has to be escaped. -/
  special : Bool := false
  /-- A space after a line end. -/
  breakSpace : Bool := false
  /-- A line end after a space. -/
  spaceBreak : Bool := false

/-- A line end, as a written text has them. -/
def isLineFeed (c : Char) : Bool := c = '\n' || c = '\x85' || c = '\u2028' || c = '\u2029'

/-- A character that can stand outside double quotes. -/
def isOrdinary (c : Char) : Bool :=
  let n := c.toNat
  c = '\n' || (0x20 ≤ n && n ≤ 0x7E) || n = 0x85 || (0xA0 ≤ n && n ≤ 0xD7FF) ||
    (0xE000 ≤ n && n ≤ 0xFFFD && n != 0xFEFF) || (0x10000 ≤ n && n < 0x10FFFF)

/-- A first character before the given one would be taken for an indicator. -/
def isLeadingIndicator (c next : Char) : Bool :=
  "#,[]\x7b\x7d&*!|>'\"%@`".toList.contains c || ((c = '?' || c = ':' || c = '-') && isGap next)

/-- A character between the given ones would be taken for an indicator. -/
def isInnerIndicator (previous c next : Char) : Bool :=
  (c = ':' && isGap next) || (c = '#' && isGap previous)

/-- The traits of a text after its first character, and those already found. -/
def traitsFrom (previous : Char) (t : Traits) : List Char → Traits
  | [] => t
  | c :: cs =>
    let next := cs.headD endMark
    traitsFrom c
      { indicator := t.indicator || isInnerIndicator previous c next
        multiline := t.multiline || isLineFeed c
        special := t.special || !isOrdinary c
        breakSpace := t.breakSpace || (isLineFeed previous && c = ' ')
        spaceBreak := t.spaceBreak || (previous = ' ' && isLineFeed c) } cs

/-- The traits of a text. -/
def traits : List Char → Traits
  | [] => {}
  | c :: cs =>
    let marker := (c :: cs).take 3
    traitsFrom c
      { indicator := isLeadingIndicator c (cs.headD endMark) || marker = ['-', '-', '-'] ||
          marker = ['.', '.', '.']
        multiline := isLineFeed c
        special := !isOrdinary c } cs

/-- A space or a line end. -/
def isLoose (c : Char) : Bool := c = ' ' || isLineFeed c

/-- A space or line end stands at an end of the text. -/
def isLooseAtEnds (cs : List Char) : Bool := cs.head?.any isLoose || cs.getLast?.any isLoose

/-- The text can stand without quotes. -/
def allowsPlain (cs : List Char) : Bool :=
  let t := traits cs
  !(t.indicator || t.multiline || t.special || t.breakSpace || t.spaceBreak || isLooseAtEnds cs)

/-- The text can stand in single quotes. -/
def allowsSingle (cs : List Char) : Bool :=
  let t := traits cs
  !(t.special || t.breakSpace || t.spaceBreak)

/-- The style of a text, as a key on a line of its own or elsewhere. `readsBack` says that it reads
as what it is without quotes. -/
def choose (readsBack asKey : Bool) (cs : List Char) : Style :=
  let multiline := (traits cs).multiline
  if readsBack && !(asKey && (cs.isEmpty || multiline)) && allowsPlain cs then .plain
  else if allowsSingle cs && !(asKey && multiline) then .single
  else .double

end Style

end Switchboard.Yaml
