import Switchboard.Failure
import Switchboard.Text.Character

/-!
# Numbers in settings

How a setting is read as an integer or as a double. Numbers and truth values convert, a text is read
as a decimal with blanks at its ends and underscores between its digits, other values do not
convert.
-/

namespace Switchboard

/-- A sign at the front, and what follows it. -/
def takeSign : List Char → Bool × List Char
  | '-' :: cs => (true, cs)
  | '+' :: cs => (false, cs)
  | cs => (false, cs)

/-- Reads a text as an integer. -/
def readInteger (cs : List Char) : Except Failure Int :=
  let (neg, body) := takeSign (trim cs)
  match readDigits false body with
  | none => .error .notANumber
  | some ds =>
    if digitLimit < ds.length then .error (.tooManyDigits ds.length)
    else
      let n : Int := ofDigits 0 ds
      .ok (if neg then -n else n)

/-- The exponent after the mantissa of a decimal; none is zero. -/
def readExponent? : List Char → Option Int
  | [] => some 0
  | c :: cs =>
    if c = 'e' || c = 'E' then
      let (neg, body) := takeSign cs
      (readDigits false body).map fun ds => if neg then -(ofDigits 0 ds : Int) else ofDigits 0 ds
    else none

/-- The digits of a part of a decimal, which may be empty. -/
def readPart? (cs : List Char) : Option (List Nat) :=
  if cs.isEmpty then some [] else readDigits false cs

/-- The words for numbers that have no digits. -/
def specialNumber? (neg : Bool) (cs : List Char) : Option Binary64 :=
  let word := String.ofList (cs.map Char.toLower)
  if word = "inf" || word = "infinity" then some (.infinity neg)
  else if word = "nan" then some .nan
  else none

/-- Reads the characters after the sign as a decimal with optional point and exponent. -/
def readDecimal? (neg : Bool) (cs : List Char) : Option Binary64 := do
  let stop (c : Char) : Bool := c = 'e' || c = 'E'
  let mantissa := cs.takeWhile (!stop ·)
  let e ← readExponent? (cs.dropWhile (!stop ·))
  let whole ← readPart? (mantissa.takeWhile (· != '.'))
  let part ← readPart? ((mantissa.dropWhile (· != '.')).drop 1)
  if whole.isEmpty && part.isEmpty then none
  else some (.ofDecimal neg (ofDigits 0 (whole ++ part)) (e - part.length))

/-- Reads a text as a double. -/
def readDouble (cs : List Char) : Except Failure Binary64 :=
  let (neg, body) := takeSign (trim cs)
  match specialNumber? neg body <|> readDecimal? neg body with
  | some x => .ok x
  | none => .error .notANumber

namespace Value

/-- The value as an integer: a double loses its fraction. -/
def toInteger : Value → Except Failure Int
  | bool b => .ok (if b then 1 else 0)
  | int n => .ok n
  | float x =>
    if x.isNaN then .error .notANumber
    else if x.isInfinite then .error .outOfRange
    else .ok x.truncate
  | text s => readInteger s.toList
  | _ => .error .wrongKind

/-- The value as a double. -/
def toDouble : Value → Except Failure Binary64
  | bool b => .ok (.ofDecimal false (if b then 1 else 0) 0)
  | int n =>
    match Binary64.ofInt? n with
    | some x => .ok x
    | none => .error .outOfRange
  | float x => .ok x
  | text s => readDouble s.toList
  | _ => .error .wrongKind

end Value

end Switchboard
