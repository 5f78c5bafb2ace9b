/-!
# Binary64 numbers

A double as its 64 bits, read as sign, significand and unit: a finite double is
`± significand · 2^unit`, counted in steps of `2^-1074`. `scaled` is that count as an integer, so
order, equality and truncation are statements about integers. `ofRatio` rounds a fraction to the
nearest double, a tie to the even significand; decimal reading and the two arithmetic operations are
`ofRatio` of the exact result.
-/

namespace Switchboard

/-- A double, given by its 64 bits. -/
structure Binary64 where
  bits : UInt64
  deriving DecidableEq, Inhabited

namespace Binary64

/-! ## Fields -/

/-- The bits as a natural number. -/
def word (x : Binary64) : Nat := x.bits.toNat

/-- The sign bit. -/
def negative (x : Binary64) : Bool := decide (Nat.pow 2 63 ≤ x.word)

/-- The eleven bits of the exponent. -/
def exponentField (x : Binary64) : Nat := x.word / Nat.pow 2 52 % 2048

/-- The low 52 bits. -/
def fraction (x : Binary64) : Nat := x.word % Nat.pow 2 52

/-- Not a number. -/
def isNaN (x : Binary64) : Bool := x.exponentField == 2047 && x.fraction != 0

/-- One of the two infinities. -/
def isInfinite (x : Binary64) : Bool := x.exponentField == 2047 && x.fraction == 0

/-- A number. -/
def isFinite (x : Binary64) : Bool := x.exponentField != 2047

/-- The significand, with the leading one of a normal number. -/
def significand (x : Binary64) : Nat :=
  if x.exponentField = 0 then x.fraction else Nat.pow 2 52 + x.fraction

/-- The weight of the significand's last bit is `2^unit` steps. -/
def unit (x : Binary64) : Nat := x.exponentField - 1

/-- The absolute value of a finite double in steps of `2^-1074`. -/
def magnitude (x : Binary64) : Nat := x.significand * Nat.pow 2 x.unit

/-- The value of a finite double in steps of `2^-1074`. -/
def scaled (x : Binary64) : Int := if x.negative then -(x.magnitude : Int) else x.magnitude

/-- The double `± m · 2^u` steps, for `m < 2^53` with its leading one unless `u = 0`. -/
def make (neg : Bool) (m u : Nat) : Binary64 :=
  let sign := if neg then Nat.pow 2 63 else 0
  let hidden := Nat.pow 2 52
  ⟨UInt64.ofNat (sign + if m < hidden then m else (u + 1) * hidden + (m - hidden))⟩

/-- The infinity of the given sign. -/
def infinity (neg : Bool) : Binary64 := make neg (Nat.pow 2 52) 2046

/-- The quiet number that is none. -/
def nan : Binary64 := ⟨0x7FF8000000000000⟩

/-- The zero of the given sign. -/
def zero (neg : Bool) : Binary64 := make neg 0 0

/-! ## Rounding -/

/-- The integer nearest `a / d`, a half going to the even neighbour. -/
def nearestEven (a d : Nat) : Nat :=
  let q := a / d
  let r := a % d
  if 2 * r < d then q else if d < 2 * r then q + 1 else q + q % 2

/-- The double nearest `± num / den`; what is too large is infinite. -/
def ofRatio (neg : Bool) (num den : Nat) : Binary64 :=
  let steps := num * Nat.pow 2 1074
  let q := steps / den
  let u := if q < Nat.pow 2 53 then 0 else q.log2 - 52
  let m := nearestEven steps (den * Nat.pow 2 u)
  let (m, u) := if m = Nat.pow 2 53 then (Nat.pow 2 52, u + 1) else (m, u)
  if 2045 < u then infinity neg else make neg m u

/-- The number of decimal digits of a natural number. -/
def decimalLength (n : Nat) : Nat := (Nat.toDigits 10 n).length

/-- The double nearest `± digits · 10^exponent`. Magnitudes beyond the range are settled by their
number of digits, so no power larger than the range is formed. -/
def ofDecimal (neg : Bool) (digits : Nat) (exponent : Int) : Binary64 :=
  if digits = 0 then zero neg
  else
    let top := (decimalLength digits : Int) + exponent
    if 310 < top then infinity neg
    else if top < -330 then zero neg
    else if 0 ≤ exponent then ofRatio neg (digits * Nat.pow 10 exponent.toNat) 1
    else ofRatio neg digits (Nat.pow 10 (-exponent).toNat)

/-- The double nearest an integer, unless the integer is out of range. -/
def ofInt? (n : Int) : Option Binary64 :=
  let x := ofRatio (decide (n < 0)) n.natAbs 1
  if x.isInfinite then none else some x

/-! ## Arithmetic and order -/

/-- The double nearest `k` steps. -/
def ofSteps (k : Int) : Binary64 := ofRatio (decide (k < 0)) k.natAbs (Nat.pow 2 1074)

/-- The rounded sum; an infinite operand stays infinite. -/
def add (x y : Binary64) : Binary64 :=
  if !x.isFinite then x else if !y.isFinite then y
  else if x.scaled = 0 && y.scaled = 0 then zero (x.negative && y.negative)
  else ofSteps (x.scaled + y.scaled)

/-- The rounded product; an infinite operand stays infinite, with the sign of the product. -/
def mul (x y : Binary64) : Binary64 :=
  let neg := x.negative != y.negative
  if x.isNaN || y.isNaN then nan
  else if x.isInfinite || y.isInfinite then infinity neg
  else ofRatio neg (x.magnitude * y.magnitude) (Nat.pow 2 2148)

/-- The other sign. -/
def neg (x : Binary64) : Binary64 := ⟨x.bits ^^^ 0x8000000000000000⟩

/-- The integer part, toward zero, of a finite double. -/
def truncate (x : Binary64) : Int := Int.tdiv x.scaled (Nat.pow 2 1074)

/-- What is left of a finite double besides its integer part. -/
def fractionalPart (x : Binary64) : Binary64 := ofSteps (Int.tmod x.scaled (Nat.pow 2 1074))

/-- Greater than zero. -/
def isPositive (x : Binary64) : Bool := !x.isNaN && !x.negative && x.bits != 0

/-- Either zero. -/
def isZero (x : Binary64) : Bool := x.isFinite && x.scaled == 0

/-- Numerically equal: the zeros agree, and a number that is none agrees with itself, since all of
them are one value here. -/
def same (x y : Binary64) : Bool :=
  if x.isFinite && y.isFinite then x.scaled == y.scaled
  else (x.isNaN && y.isNaN) || (x.isInfinite && y.isInfinite && x.negative == y.negative)

/-- Numerically equal to an integer. -/
def sameInt (x : Binary64) (n : Int) : Bool := x.isFinite && x.scaled == n * Nat.pow 2 1074

end Binary64

end Switchboard
