import Switchboard.Number.Binary64

/-!
# The shortest decimal of a double

`Binary64.shortest` gives the fewest decimal digits that read back as the same double, and of those
the nearest; `DecimalLayout` says how digits and exponent are laid out as text. The search runs over
the decimal grids of 1, 2, … 17 digits and tests the two grid points beside the value; a grid that
has a point in the interval of reals that round to the double has one of these two.
-/

namespace Switchboard

namespace Binary64

/-- The reals that round to a double lie between `low` and `high`, in quarter steps, ends included
exactly when `closed`. -/
structure Interval where
  low : Nat
  high : Nat
  closed : Bool

/-- The interval of a finite positive double. Below a power of two the spacing is half as wide. -/
def interval (x : Binary64) : Interval :=
  let w := Nat.pow 2 x.unit
  let v := 4 * x.magnitude
  let below := if x.significand = Nat.pow 2 52 && 0 < x.unit then w else 2 * w
  ⟨v - below, v + 2 * w, x.significand % 2 == 0⟩

/-- The point `d · 10^e` lies in the interval. Both sides are multiplied out to integers. -/
def Interval.contains (i : Interval) (d : Nat) (e : Int) : Bool :=
  let scale := 4 * Nat.pow 2 1074
  let point := d * scale * Nat.pow 10 e.toNat
  let low := i.low * Nat.pow 10 (-e).toNat
  let high := i.high * Nat.pow 10 (-e).toNat
  if i.closed then low ≤ point && point ≤ high else low < point && point < high

/-- The exponent `p` of a positive finite double `x` with `10^(p-1) ≤ x < 10^p`. -/
def decimalPoint (x : Binary64) : Int :=
  (decimalLength (x.magnitude * Nat.pow 10 330 / Nat.pow 2 1074) : Int) - 330

/-- The point of the grid `10^e` nearest `x` among those that read back as `x`. -/
def gridPoint? (x : Binary64) (e : Int) : Option Nat :=
  let num := x.magnitude * Nat.pow 10 (-e).toNat
  let den := Nat.pow 2 1074 * Nat.pow 10 e.toNat
  let d := num / den
  let i := x.interval
  match i.contains d e, i.contains (d + 1) e with
  | false, false => none
  | true, false => some d
  | false, true => some (d + 1)
  | true, true => some (nearestEven num den)

/-- Drops the zeros at the end of `d` and raises the exponent by their number, up to `fuel` many. -/
def dropZeros : Nat → Nat → Int → Nat × Int
  | 0, d, e => (d, e)
  | fuel + 1, d, e => if d % 10 = 0 && d ≠ 0 then dropZeros fuel (d / 10) (e + 1) else (d, e)

/-- The first grid from `n` digits on with a point for `x`; seventeen digits always have one. -/
def firstGrid (x : Binary64) (p : Int) : Nat → Nat → Nat × Int
  | 0, _ => (0, 0)
  | fuel + 1, n =>
    match x.gridPoint? (p - n) with
    | some d => dropZeros 20 d (p - n)
    | none => firstGrid x p fuel (n + 1)

/-- Digits and exponent of the shortest decimal that reads back as the finite double `x`. -/
def shortest (x : Binary64) : Nat × Int :=
  if x.magnitude = 0 then (0, 0) else firstGrid x x.decimalPoint 17 1

end Binary64

/-- How a decimal is written. A number whose first digit stands at `10^k` is written with a point
and no exponent when `least ≤ k < greatest`. -/
structure DecimalLayout where
  /-- The least power of ten of the first digit that is written without exponent. -/
  least : Int
  /-- The first power of ten that is written with exponent. -/
  greatest : Int
  /-- Whether a lone digit before an exponent gets `.0`. -/
  pointBeforeExponent : Bool
  /-- The text of positive infinity. -/
  infinity : String
  /-- The text of the number that is none. -/
  nan : String

namespace DecimalLayout

/-- Digits with a point after the first `k` of them, padded with zeros on either side. -/
def positional (digits : List Char) (k : Int) : List Char :=
  if k ≤ 0 then
    '0' :: '.' :: List.replicate (-k).toNat '0' ++ digits
  else
    let n := k.toNat
    if n < digits.length then digits.take n ++ '.' :: digits.drop n
    else digits ++ List.replicate (n - digits.length) '0' ++ ['.', '0']

/-- One digit, the others after a point, and a signed exponent of at least two digits. -/
def exponential (l : DecimalLayout) (digits : List Char) (k : Int) : List Char :=
  let mantissa := match digits with
    | [d] => if l.pointBeforeExponent then [d, '.', '0'] else [d]
    | d :: ds => d :: '.' :: ds
    | [] => []
  let power := Nat.toDigits 10 k.natAbs
  let power := if power.length < 2 then '0' :: power else power
  mantissa ++ 'e' :: (if k < 0 then '-' else '+') :: power

/-- The text of a double. -/
def render (l : DecimalLayout) (x : Binary64) : String :=
  let sign := if x.negative then "-" else ""
  if x.isNaN then l.nan
  else if x.isInfinite then sign ++ l.infinity
  else
    let (d, e) := x.shortest
    let digits := Nat.toDigits 10 d
    let k : Int := digits.length + e - 1
    let body :=
      if d = 0 then ['0', '.', '0']
      else if l.least ≤ k && k < l.greatest then positional digits (k + 1)
      else l.exponential digits k
    sign ++ String.ofList body

/-- Numbers in messages: positional from `0.0001` to below `10^16`, always with a point or an
exponent. -/
def plain : DecimalLayout := ⟨-4, 16, false, "inf", "nan"⟩

/-- Numbers in settings files: as in messages, but a lone digit before an exponent gets `.0`, and
the special values are words that start with a point. -/
def dotted : DecimalLayout := ⟨-4, 16, true, ".inf", ".nan"⟩

end DecimalLayout

end Switchboard
