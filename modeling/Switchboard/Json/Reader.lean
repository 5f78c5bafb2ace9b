import Switchboard.Failure
import Switchboard.Text.Character

/-!
# Reading JSON

`Json.read` reads a text as one JSON value, with blanks around it. Besides the grammar of the
standard it accepts `NaN`, `Infinity` and `-Infinity`; a number with a fraction or an exponent is a
double, any other an integer. A key given twice keeps its place and takes the later value. Integers
may be limited in their number of digits.

Texts are made of characters, and half of a surrogate pair is none. Where such a half is escaped
alone, U+FFFD is read in its place, so two keys that differ in nothing else are taken for one, and a
frame may go to another worker. No result rests on that: what is shown of frames and packets is
shown of every value, whichever text it came from, and of captures that a line gives a frame just
when it is read, and which frames and workers go together whatever their ids are.
-/

namespace Switchboard.Json

/-- Why a text is no JSON value. -/
inductive Problem where
  /-- The text does not follow the grammar. -/
  | malformed
  /-- An integer has more digits than allowed. -/
  | tooManyDigits (count : Nat)
  deriving DecidableEq

/-- The blanks between tokens. -/
def isSpace (c : Char) : Bool := c = ' ' || c = '\t' || c = '\n' || c = '\r'

/-- The characters from the next token on. -/
def skip (cs : List Char) : List Char := cs.dropWhile isSpace

/-- The characters after a fixed word. -/
def afterWord? : List Char → List Char → Option (List Char)
  | [], cs => some cs
  | w :: ws, c :: cs => if w = c then afterWord? ws cs else none
  | _ :: _, [] => none

/-- The ASCII digits at the front and the rest. -/
def spanDigits : List Char → List Nat × List Char
  | [] => ([], [])
  | c :: cs =>
    match asciiDigit? c with
    | some d => let (ds, rest) := spanDigits cs; (d :: ds, rest)
    | none => ([], c :: cs)

/-- The fraction after a whole part: a point with at least one digit. -/
def spanFraction (cs : List Char) : List Nat × List Char :=
  match cs with
  | '.' :: rest =>
    match spanDigits rest with
    | ([], _) => ([], cs)
    | (ds, rest) => (ds, rest)
  | _ => ([], cs)

/-- The exponent after a mantissa: `e`, perhaps a sign, and at least one digit. -/
def spanExponent (cs : List Char) : Option Int × List Char :=
  match cs with
  | c :: rest =>
    if c = 'e' || c = 'E' then
      let (neg, body) := match rest with
        | '-' :: r => (true, r)
        | '+' :: r => (false, r)
        | r => (false, r)
      match spanDigits body with
      | ([], _) => (none, cs)
      | (ds, rest) =>
        let n : Int := ofDigits 0 ds
        (some (if neg then -n else n), rest)
    else (none, cs)
  | [] => (none, [])

/-- The whole part of a number and the rest. A zero is not followed by further digits. -/
def spanWhole : List Char → List Nat × List Char
  | '0' :: rest => ([0], rest)
  | cs => spanDigits cs

/-- A number after its sign. -/
def readNumber (limit : Option Nat) (neg : Bool) (cs : List Char) :
    Except Problem (Value × List Char) :=
  let (whole, rest) := spanWhole cs
  if whole.isEmpty then .error .malformed
  else
    let (part, rest) := spanFraction rest
    let (exponent, rest) := spanExponent rest
    if part.isEmpty && exponent.isNone then
      if limit.any (· < whole.length) then .error (.tooManyDigits whole.length)
      else
        let n : Int := ofDigits 0 whole
        .ok (.int (if neg then -n else n), rest)
    else
      let e := exponent.getD 0 - part.length
      .ok (.float (.ofDecimal neg (ofDigits 0 (whole ++ part)) e), rest)

/-- Four hexadecimal digits. -/
def readUnit : List Char → Except Problem (Nat × List Char)
  | a :: b :: c :: d :: rest =>
    match hexDigit? a, hexDigit? b, hexDigit? c, hexDigit? d with
    | some a, some b, some c, some d => .ok (((a * 16 + b) * 16 + c) * 16 + d, rest)
    | _, _, _, _ => .error .malformed
  | _ => .error .malformed

/-- The character of an escaped unit. A high surrogate joins with a low one that is escaped right
after it; U+FFFD stands for a surrogate alone, as nothing depends on which it was. -/
def readEscapedUnit (cs : List Char) : Except Problem (Char × List Char) := do
  let (u, rest) ← readUnit cs
  if 0xD800 ≤ u && u < 0xDC00 then
    match rest with
    | '\\' :: 'u' :: more =>
      let (v, rest') ← readUnit more
      if 0xDC00 ≤ v && v < 0xE000 then
        pure (Char.ofNat (0x10000 + (u - 0xD800) * 0x400 + (v - 0xDC00)), rest')
      else pure ('\uFFFD', rest)
    | _ => pure ('\uFFFD', rest)
  else if 0xDC00 ≤ u && u < 0xE000 then pure ('\uFFFD', rest)
  else pure (Char.ofNat u, rest)

/-- The character after a backslash. -/
def readEscape : List Char → Except Problem (Char × List Char)
  | '"' :: cs => .ok ('"', cs)
  | '\\' :: cs => .ok ('\\', cs)
  | '/' :: cs => .ok ('/', cs)
  | 'b' :: cs => .ok ('\x08', cs)
  | 'f' :: cs => .ok ('\x0c', cs)
  | 'n' :: cs => .ok ('\n', cs)
  | 'r' :: cs => .ok ('\r', cs)
  | 't' :: cs => .ok ('\t', cs)
  | 'u' :: cs => readEscapedUnit cs
  | _ => .error .malformed

/-- The rest of a text after its opening quote; `acc` holds the characters so far, last first. -/
def readText : Nat → List Char → List Char → Except Problem (String × List Char)
  | 0, _, _ => .error .malformed
  | fuel + 1, acc, cs =>
    match cs with
    | [] => .error .malformed
    | '"' :: rest => .ok (String.ofList acc.reverse, rest)
    | '\\' :: rest => do
      let (c, rest) ← readEscape rest
      readText fuel (c :: acc) rest
    | c :: rest => if c.toNat < 0x20 then .error .malformed else readText fuel (c :: acc) rest

mutual

/-- A value at the front of the characters. -/
def readValue (limit : Option Nat) : Nat → List Char → Except Problem (Value × List Char)
  | 0, _ => .error .malformed
  | fuel + 1, cs =>
    match cs with
    | '"' :: rest => do
      let (s, rest) ← readText fuel [] rest
      pure (.text s, rest)
    | '\x7b' :: rest =>
      match skip rest with
      | '\x7d' :: rest => .ok (.map [], rest)
      | rest => readEntries limit fuel [] rest
    | '[' :: rest =>
      match skip rest with
      | ']' :: rest => .ok (.list [], rest)
      | rest => readItems limit fuel [] rest
    | 'n' :: _ => ((afterWord? "null".toList cs).map (.null, ·)).elim (.error .malformed) .ok
    | 't' :: _ => ((afterWord? "true".toList cs).map (.bool true, ·)).elim (.error .malformed) .ok
    | 'f' :: _ => ((afterWord? "false".toList cs).map (.bool false, ·)).elim (.error .malformed) .ok
    | 'N' :: _ => ((afterWord? "NaN".toList cs).map (.float .nan, ·)).elim (.error .malformed) .ok
    | 'I' :: _ =>
      ((afterWord? "Infinity".toList cs).map (.float (.infinity false), ·)).elim
        (.error .malformed) .ok
    | '-' :: rest =>
      match afterWord? "Infinity".toList rest with
      | some rest => .ok (.float (.infinity true), rest)
      | none => readNumber limit true rest
    | cs => readNumber limit false cs

/-- The items of an array from a value on; `acc` holds the items so far, last first. -/
def readItems (limit : Option Nat) :
    Nat → List Value → List Char → Except Problem (Value × List Char)
  | 0, _, _ => .error .malformed
  | fuel + 1, acc, cs => do
    let (v, rest) ← readValue limit fuel cs
    match skip rest with
    | ',' :: rest => readItems limit fuel (v :: acc) (skip rest)
    | ']' :: rest => pure (.list (v :: acc).reverse, rest)
    | _ => throw .malformed

/-- The entries of an object from a key on, laid over the entries so far. -/
def readEntries (limit : Option Nat) :
    Nat → Fields → List Char → Except Problem (Value × List Char)
  | 0, _, _ => .error .malformed
  | fuel + 1, acc, cs =>
    match cs with
    | '"' :: rest => do
      let (k, rest) ← readText fuel [] rest
      match skip rest with
      | ':' :: rest =>
        let (v, rest) ← readValue limit fuel (skip rest)
        let acc := Table.put (.text k) v acc
        match skip rest with
        | ',' :: rest => readEntries limit fuel acc (skip rest)
        | '\x7d' :: rest => pure (.map acc, rest)
        | _ => throw .malformed
      | _ => throw .malformed
    | _ => .error .malformed

end

/-- Reads a text as one JSON value. Each character takes at most two steps. -/
def read (limit : Option Nat) (cs : List Char) : Except Problem Value := do
  let (v, rest) ← readValue limit (2 * cs.length + 2) (skip cs)
  if (skip rest).isEmpty then pure v else throw .malformed

end Switchboard.Json
