import Switchboard.Value.Number
import Switchboard.Yaml.Cursor

/-!
# What plain scalars stand for

The type of a scalar that is written without quotes shows in its characters. `Tag.ofPlain` finds it,
by the rules of version 1.1: words for null and for truth values, integers in four bases and in
parts of sixty, decimals with a point, and dates. `Tag.read` gives the value of a scalar of a type.
-/

namespace Switchboard.Yaml

/-- The type of a node. -/
inductive Tag where
  | null
  | bool
  | int
  | float
  | text
  | timestamp
  /-- The key of entries that are taken from other maps. -/
  | merge
  /-- The key of a default value. -/
  | default
  | list
  | map
  /-- Any other. -/
  | unknown
  deriving DecidableEq

/-! ## Shapes of plain scalars -/

namespace Shape

/-- An ASCII digit. -/
def isDigit (c : Char) : Bool := '0' ≤ c && c ≤ '9'

/-- An ASCII digit or an underscore. -/
def isDigitOrGap (c : Char) : Bool := isDigit c || c = '_'

/-- What follows a sign, if there is one. -/
def unsigned (cs : List Char) : List Char := (takeSign cs).2

/-- A digit, then digits and underscores. -/
def isDigits (cs : List Char) : Bool := cs.head?.any isDigit && cs.all isDigitOrGap

/-- The parts of a text between colons. -/
def parts (cs : List Char) : List (List Char) := cs.splitOnP (· = ':')

/-- A part of sixty after the first one: at most two digits, below sixty. -/
def isSixtieth : List Char → Bool
  | [a] => isDigit a
  | [a, b] => '0' ≤ a && a ≤ '5' && isDigit b
  | _ => false

/-- An exponent: `e`, a sign and digits. -/
def isExponent : List Char → Bool
  | e :: s :: ds => (e = 'e' || e = 'E') && (s = '-' || s = '+') && !ds.isEmpty && ds.all isDigit
  | _ => false

/-- What follows the point of a decimal: digits and underscores, perhaps an exponent. -/
def isFraction (cs : List Char) : Bool :=
  let rest := cs.dropWhile isDigitOrGap
  rest.isEmpty || isExponent rest

/-- A truth value. -/
def isBool (cs : List Char) : Bool :=
  ["yes", "Yes", "YES", "no", "No", "NO", "true", "True", "TRUE", "false", "False", "FALSE", "on",
    "On", "ON", "off", "Off", "OFF"].contains (String.ofList cs)

/-- Null. -/
def isNull (cs : List Char) : Bool := ["~", "null", "Null", "NULL", ""].contains (String.ofList cs)

/-- An integer without its sign. -/
def isUnsignedInt : List Char → Bool
  | ['0'] => true
  | '0' :: 'b' :: ds => !ds.isEmpty && ds.all fun c => c = '0' || c = '1' || c = '_'
  | '0' :: 'x' :: ds => !ds.isEmpty && ds.all fun c => (hexDigit? c).isSome || c = '_'
  | '0' :: ds => ds.all fun c => ('0' ≤ c && c ≤ '7') || c = '_'
  | cs =>
    match parts cs with
    | whole :: sixtieths => isDigits whole && sixtieths.all isSixtieth
    | [] => false

/-- An integer. -/
def isInt (cs : List Char) : Bool := isUnsignedInt (unsigned cs)

/-- A decimal in parts of sixty, whose last part has a point. -/
def isSixtyfold (cs : List Char) : Bool :=
  let head := cs.takeWhile (· != '.')
  let tail := cs.dropWhile (· != '.')
  match parts head with
  | whole :: s :: sixtieths =>
    isDigits whole && (s :: sixtieths).all isSixtieth && !tail.isEmpty &&
      (tail.drop 1).all isDigitOrGap
  | _ => false

/-- A decimal without its sign. -/
def isUnsignedFloat (cs : List Char) : Bool :=
  let whole := cs.takeWhile (· != '.')
  let tail := cs.dropWhile (· != '.')
  (isDigits whole && !tail.isEmpty && isFraction (tail.drop 1)) || isSixtyfold cs ||
    [".inf", ".Inf", ".INF"].contains (String.ofList cs)

/-- A decimal that begins with its point. -/
def isPointed : List Char → Bool
  | '.' :: c :: cs => isDigit c && isFraction cs
  | _ => false

/-- A decimal. -/
def isFloat (cs : List Char) : Bool :=
  isUnsignedFloat (unsigned cs) || isPointed cs ||
    [".nan", ".NaN", ".NAN"].contains (String.ofList cs)

/-! ## Dates -/

/-- The digits at the front, at least `least` and at most `most` of them, as a number. -/
def number? (least most : Nat) (cs : List Char) : Option (Nat × List Char) :=
  let ds := (cs.take most).takeWhile isDigit
  if ds.length < least then none
  else some (ofDigits 0 (ds.filterMap asciiDigit?), cs.drop ds.length)

/-- What follows a fixed character. -/
def after? (c : Char) : List Char → Option (List Char)
  | d :: cs => if d = c then some cs else none
  | [] => none

/-- Year, month and day at the front. -/
def date? (least : Nat) (cs : List Char) : Option ((Nat × Nat × Nat) × List Char) := do
  let (year, cs) ← number? 4 4 cs
  let (month, cs) ← number? least 2 (← after? '-' cs)
  let (day, cs) ← number? least 2 (← after? '-' cs)
  pure ((year, month, day), cs)

/-- What follows the letter or the blanks between a date and a time. -/
def afterDate? : List Char → Option (List Char)
  | c :: cs =>
    if c = 'T' || c = 't' then some cs
    else if c = ' ' || c = '\t' then some (cs.dropWhile fun c => c = ' ' || c = '\t')
    else none
  | [] => none

/-- The minutes of a time zone that ends a time; none is zero. -/
def zone? (cs : List Char) : Option Nat :=
  match cs.dropWhile fun c => c = ' ' || c = '\t' with
  | [] => if cs.isEmpty then some 0 else none
  | ['Z'] => some 0
  | s :: rest =>
    if s = '-' || s = '+' then do
      let (hours, rest) ← number? 1 2 rest
      if rest.isEmpty then pure (60 * hours)
      else do
        let (minutes, rest) ← number? 2 2 (← after? ':' rest)
        if rest.isEmpty then pure (60 * hours + minutes) else none
    else none

/-- Hour, minute, second and minutes of the time zone. -/
def time? (cs : List Char) : Option (Nat × Nat × Nat × Nat) := do
  let (hour, cs) ← number? 1 2 cs
  let (minute, cs) ← number? 2 2 (← after? ':' cs)
  let (sec, cs) ← number? 2 2 (← after? ':' cs)
  let cs := match cs with
    | '.' :: cs => cs.dropWhile isDigit
    | cs => cs
  let zone ← zone? cs
  pure (hour, minute, sec, zone)

/-- A date, or a date with a time. -/
def timestamp? (cs : List Char) : Option ((Nat × Nat × Nat) × Option (Nat × Nat × Nat × Nat)) :=
  match date? 2 cs with
  | some (d, []) => some (d, none)
  | _ => do
    let (d, cs) ← date? 1 cs
    let t ← time? (← afterDate? cs)
    pure (d, some t)

/-- The days of a month. -/
def daysOf (year month : Nat) : Nat :=
  if month = 2 then
    if year % 4 = 0 && (year % 100 != 0 || year % 400 = 0) then 29 else 28
  else if month = 4 || month = 6 || month = 9 || month = 11 then 30 else 31

/-- There is such a date and such a time. -/
def isMoment : (Nat × Nat × Nat) × Option (Nat × Nat × Nat × Nat) → Bool
  | ((year, month, day), time) =>
    1 ≤ year && 1 ≤ month && month ≤ 12 && 1 ≤ day && day ≤ daysOf year month &&
      time.all fun (hour, minute, sec, zone) =>
        hour < 24 && minute < 60 && sec < 60 && zone < 1440

end Shape

namespace Tag

/-- The type that a plain scalar shows. -/
def ofPlain (cs : List Char) : Tag :=
  if Shape.isNull cs then .null
  else if Shape.isBool cs then .bool
  else if Shape.isFloat cs then .float
  else if Shape.isInt cs then .int
  else if (Shape.timestamp? cs).isSome then .timestamp
  else if cs = ['<', '<'] then .merge
  else if cs = ['='] then .default
  else if cs = ['!'] || cs = ['&'] || cs = ['*'] then .unknown
  else .text

/-! ## Values -/

/-- A number in a base, written with at least one digit. -/
def inBase (base : Nat) (cs : List Char) : Except Failure Nat :=
  match cs.mapM hexDigit? with
  | some (d :: ds) =>
    if (d :: ds).all (· < base) then .ok ((d :: ds).foldl (fun n d => base * n + d) 0)
    else .error .notANumber
  | _ => .error .notANumber

/-- An integer from its parts of sixty, the greatest first. -/
def sixties (parts : List (List Char)) : Except Failure Int :=
  parts.foldlM (fun n part => (readInteger part).map (60 * n + ·)) 0

/-- An integer without sign and underscores. -/
def readUnsigned (cs : List Char) : Except Failure Int :=
  match cs with
  | ['0'] => .ok 0
  | '0' :: 'b' :: ds => (inBase 2 ds).map Int.ofNat
  | '0' :: 'x' :: ds => (inBase 16 ds).map Int.ofNat
  | '0' :: _ => (inBase 8 cs).map Int.ofNat
  | cs => if cs.contains ':' then sixties (Shape.parts cs) else readInteger cs

/-- An integer. -/
def readInt (cs : List Char) : Except Failure Int :=
  let (neg, body) := takeSign (cs.filter (· != '_'))
  (readUnsigned body).map fun n => if neg then -n else n

/-- A decimal from its parts of sixty, the last one first, each weighing sixty times the one
before. -/
def sixtyfold (weight : Int) (sum : Binary64) : List (List Char) → Except Failure Binary64
  | [] => .ok sum
  | part :: parts => do
    let x ← readDouble part
    match Binary64.ofInt? weight with
    | some w => sixtyfold (weight * 60) (sum.add (x.mul w)) parts
    | none => throw .outOfRange

/-- A decimal. -/
def readFloat (cs : List Char) : Except Failure Binary64 := do
  let (neg, body) := takeSign ((cs.filter (· != '_')).map Char.toLower)
  let x ←
    if body = ".inf".toList then pure (.infinity false)
    else if body = ".nan".toList then pure .nan
    else if body.contains ':' then sixtyfold 1 (.zero false) (Shape.parts body).reverse
    else readDouble body
  pure (if neg && !x.isNaN then x.neg else x)

/-- The truth value of a word. -/
def truth (cs : List Char) : Bool :=
  ["yes", "true", "on"].contains (String.ofList (cs.map Char.toLower))

/-- The value of a scalar of a type. A date keeps its text. -/
def read (t : Tag) (s : String) : Except Problem Scalar :=
  match t with
  | .null => .ok .null
  | .bool => .ok (.bool (truth s.toList))
  | .int => ((readInt s.toList).map Scalar.int).mapError .failed
  | .float => ((readFloat s.toList).map Scalar.float).mapError .failed
  | .text => .ok (.text s)
  | .timestamp =>
    match Shape.timestamp? s.toList with
    | some m => if Shape.isMoment m then .ok (.text s) else .error (.failed .notANumber)
    | none => .error (.failed .notANumber)
  | .merge | .default | .list | .map | .unknown => .error .malformed

end Tag

end Switchboard.Yaml
