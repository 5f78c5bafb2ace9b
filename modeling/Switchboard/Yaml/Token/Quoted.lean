import Switchboard.Yaml.Token
import Switchboard.Text.Character

/-!
# Quoted scalars

Scalars between single or double quotes. Line ends inside are folded: one line end is a space, more
of them are one less. In single quotes a quote is written twice; in double quotes a backslash begins
an escape, and at the end of a line it joins the line with the next one.
-/

namespace Switchboard.Yaml.Quoted

/-- The characters that are escaped by a letter or sign of their own. -/
def namedEscape? : Char → Option Char
  | '0' => some '\x00'
  | 'a' => some '\x07'
  | 'b' => some '\x08'
  | 't' => some '\t'
  | '\t' => some '\t'
  | 'n' => some '\n'
  | 'v' => some '\x0b'
  | 'f' => some '\x0c'
  | 'r' => some '\r'
  | 'e' => some '\x1b'
  | ' ' => some ' '
  | '"' => some '"'
  | '\\' => some '\\'
  | '/' => some '/'
  | 'N' => some '\x85'
  | '_' => some '\u00a0'
  | 'L' => some '\u2028'
  | 'P' => some '\u2029'
  | _ => none

/-- The number of hexadecimal digits that follow the letter of an escape. -/
def codeLength? : Char → Option Nat
  | 'x' => some 2
  | 'u' => some 4
  | 'U' => some 8
  | _ => none

/-- The character of a code point that was written in digits. -/
def ofCode (n : Nat) : Except Problem Char :=
  if 0x7FFFFFFF < n then .error (.failed .outOfRange)
  else if 0x10FFFF < n then .error (.failed .notANumber)
  else .ok (Char.ofNat n)

/-- The line ends and blanks here, as the line ends that they stand for. A separator of documents at
the beginning of a line is an error. -/
def breaks : Nat → Cursor → Except Problem (List Char × Cursor)
  | 0, _ => .error .malformed
  | fuel + 1, c =>
    if c.atSeparator then .error .malformed
    else
      let c := c.skip fun ch => ch = ' ' || ch = '\t'
      match c.lineBreak with
      | ([], _) => .ok ([], c)
      | (b, c) => (breaks fuel c).map fun (bs, c) => (b ++ bs, c)

/-- The escape after a backslash. -/
def escape (c : Cursor) : Except Problem (List Char × Cursor) :=
  let ch := c.peek
  match namedEscape? ch, codeLength? ch with
  | some r, _ => .ok ([r], c.next)
  | none, some n =>
    let c := c.next
    match (c.rest.take n).mapM hexDigit? with
    | some ds =>
      if ds.length = n then
        (ofCode (ds.foldl (fun k d => 16 * k + d) 0)).map fun r => ([r], c.forward n)
      else .error .malformed
    | none => .error .malformed
  | none, none =>
    if isBreak ch then
      let c := c.lineBreak.2
      breaks (c.rest.length + 1) c
    else .error .malformed

/-- Blanks or line ends inside the scalar. -/
def spaces (c : Cursor) : Except Problem (List Char × Cursor) :=
  let (blanks, c) := c.span fun ch => ch = ' ' || ch = '\t'
  if c.peek = endMark then .error .malformed
  else
    match c.lineBreak with
    | ([], _) => .ok (blanks, c)
    | (b, c) => do
      let (bs, c) ← breaks (c.rest.length + 1) c
      if b != ['\n'] then pure (b ++ bs, c)
      else if bs.isEmpty then pure ([' '], c)
      else pure (bs, c)

/-- The scalar after its opening quote, up to and with the closing one. -/
def body (quote : Char) : Nat → List Char → Cursor → Except Problem (List Char × Cursor)
  | 0, _, _ => .error .malformed
  | fuel + 1, acc, c =>
    let ch := c.peek
    if ch = quote then
      if quote = '\'' && c.peekAt 1 = '\'' then body quote fuel ('\'' :: acc) (c.forward 2)
      else .ok (acc.reverse, c.next)
    else if ch = '\\' && quote = '"' then do
      let (r, c) ← escape c.next
      body quote fuel (r.reverse ++ acc) c
    else if isGap ch then do
      let (r, c) ← spaces c
      body quote fuel (r.reverse ++ acc) c
    else body quote fuel (ch :: acc) c.next

/-- The scalar that begins with the quote here. -/
def read (c : Cursor) : Except Problem (List Char × Cursor) :=
  body c.peek (c.rest.length + 1) [] c.next

end Switchboard.Yaml.Quoted
