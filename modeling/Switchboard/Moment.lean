import Switchboard.Failure

/-!
# Instants and durations

Time is counted in microseconds. An instant is counted from the epoch 2024-01-01T00:00:00Z and lies
in the years 1 to 9999; a duration has at most 999999999 days.
-/

namespace Switchboard

/-- Microseconds since the epoch. -/
abbrev Instant := Int

/-- A number of microseconds. -/
abbrev Duration := Int

/-- The microseconds of a second. -/
def second : Duration := 1000000

/-- The microseconds of a day. -/
def day : Duration := 86400 * second

namespace Instant

/-- The first instant of year 1. -/
def first : Instant := -738885 * day

/-- The last instant of year 9999. -/
def last : Instant := 2913174 * day - 1

/-- The instant a duration before another one, if there is such an instant. -/
def before? (t : Instant) (d : Duration) : Except Failure Instant :=
  let r := t - d
  if first ≤ r ∧ r ≤ last then .ok r else .error .outOfRange

end Instant

namespace Duration

/-- A number of microseconds, if it is no longer than a duration can be. -/
def ofMicroseconds? (n : Int) : Except Failure Duration :=
  if -999999999 * day ≤ n ∧ n < 1000000000 * day then .ok n else .error .outOfRange

/-- The integer nearest `a / d`, a half going to the even neighbour. -/
def roundEven (a : Int) (d : Nat) : Int :=
  let q := Int.fdiv a d
  let r := Int.fmod a d
  if 2 * r < d then q else if d < 2 * r then q + 1 else q + q % 2

/-- The duration of a number of seconds. The fraction of a second is scaled to microseconds in
double precision, and the sum with the whole seconds is rounded, a half going to the even neighbour.
-/
def ofSeconds? (x : Binary64) : Except Failure Duration :=
  if x.isNaN then .error .notANumber
  else if x.isInfinite then .error .outOfRange
  else
    let part := x.fractionalPart.mul (Binary64.ofDecimal false 1000000 0)
    ofMicroseconds? (roundEven (x.truncate * second * Nat.pow 2 1074 + part.scaled)
      (Nat.pow 2 1074))

/-- The duration of a value that is a number of seconds; an integer is exact. -/
def ofValue? : Value → Except Failure Duration
  | .bool b => .ok (if b then second else 0)
  | .int n => ofMicroseconds? (n * second)
  | .float x => ofSeconds? x
  | _ => .error .wrongKind

end Duration

/-- The instant a number of seconds after the epoch. -/
def Instant.ofValue? (v : Value) : Except Failure Instant := do
  Instant.before? 0 (-(← Duration.ofValue? v))

end Switchboard
