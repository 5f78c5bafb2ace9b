import Switchboard.Value

/-!
# When two scalars are the same key

Keys are told apart by what they stand for, their `Sense`: a number by its value, whatever kind of
scalar it is, and anything else by what it is. So `==` on scalars is an equivalence
(`Scalar.same_iff`), though not equality: `1`, `1.0` and `true` are one key.
-/

namespace Switchboard

/-- What a scalar stands for. A number is counted in steps of `2^-1074`. -/
inductive Sense where
  | null
  | number (steps : Int)
  | infinite (negative : Bool)
  | noNumber
  | text (s : String)

/-- What an integer stands for. -/
def Sense.integer (n : Int) : Sense := .number (n * Nat.pow 2 1074)

/-- Integers stand for different numbers. -/
theorem Sense.integer_inj {m n : Int} : integer m = integer n ↔ m = n := by
  have hsteps : (Nat.pow 2 1074 : Int) ≠ 0 := by decide +kernel
  rw [integer, integer, Sense.number.injEq]
  exact Int.mul_eq_mul_right_iff hsteps

/-- An integer stands for no text and is not null. -/
theorem Sense.integer_ne (n : Int) : integer n ≠ .null ∧ ∀ s, integer n ≠ .text s :=
  ⟨nofun, nofun⟩

namespace Binary64

/-- What a double stands for. -/
def sense (x : Binary64) : Sense :=
  if x.isFinite then .number x.scaled else if x.isNaN then .noNumber else .infinite x.negative

/-- A double is finite, no number or infinite, and stands for something accordingly. -/
theorem sense_cases (x : Binary64) :
    (x.isFinite = true ∧ x.isNaN = false ∧ x.isInfinite = false ∧ x.sense = .number x.scaled) ∨
    (x.isFinite = false ∧ x.isNaN = true ∧ x.isInfinite = false ∧ x.sense = .noNumber) ∨
    (x.isFinite = false ∧ x.isNaN = false ∧ x.isInfinite = true ∧
      x.sense = .infinite x.negative) := by
  unfold sense isFinite isNaN isInfinite
  -- The exponent tells the finite ones, and the fraction the others.
  cases hfield : x.exponentField == 2047 with
  | false => exact .inl (by simp [bne, hfield])
  | true =>
    cases hfraction : x.fraction == 0 with
    | false => exact .inr (.inl (by simp [bne, hfield, hfraction]))
    | true => exact .inr (.inr (by simp [bne, hfield, hfraction]))

/-- A double stands for no text and is not null. -/
theorem sense_ne (x : Binary64) : x.sense ≠ .null ∧ ∀ s, x.sense ≠ .text s := by
  obtain ⟨-, -, -, hxs⟩ | ⟨-, -, -, hxs⟩ | ⟨-, -, -, hxs⟩ := x.sense_cases
  all_goals simp [hxs]

/-- Doubles are the same when they stand for the same. -/
theorem same_iff {x y : Binary64} : x.same y = true ↔ x.sense = y.sense := by
  unfold same
  obtain ⟨hx, hx', hx'', hxs⟩ | ⟨hx, hx', hx'', hxs⟩ | ⟨hx, hx', hx'', hxs⟩ := x.sense_cases
  all_goals
    obtain ⟨hy, hy', hy'', hys⟩ | ⟨hy, hy', hy'', hys⟩ | ⟨hy, hy', hy'', hys⟩ := y.sense_cases
    all_goals simp [hx, hx', hx'', hxs, hy, hy', hy'', hys]

/-- A double is the same as an integer when it stands for this integer. -/
theorem sameInt_iff {x : Binary64} {n : Int} : x.sameInt n = true ↔ x.sense = .integer n := by
  unfold sameInt Sense.integer
  generalize (n * Nat.pow 2 1074 : Int) = steps
  obtain ⟨hx, -, -, hxs⟩ | ⟨hx, -, -, hxs⟩ | ⟨hx, -, -, hxs⟩ := x.sense_cases
  all_goals simp [hx, hxs]

end Binary64

namespace Scalar

/-- What a scalar stands for. -/
def sense : Scalar → Sense
  | .null => .null
  | .bool b => .integer (if b then 1 else 0)
  | .int n => .integer n
  | .float x => x.sense
  | .text s => .text s

/-- Scalars are the same key when they stand for the same. -/
theorem same_iff {a b : Scalar} : (a == b) = true ↔ a.sense = b.sense := by
  show a.same b = true ↔ a.sense = b.sense
  -- A double stands for an integer if it is one; everything else stands for itself.
  cases a with
  | null =>
    cases b with
    | float y => simp [same, integer?, sense, y.sense_ne.1.symm]
    | _ => simp [same, integer?, sense, (Sense.integer_ne _).1.symm]
  | text s =>
    cases b with
    | float y => simp [same, integer?, sense, (y.sense_ne.2 s).symm]
    | _ => simp [same, integer?, sense, ((Sense.integer_ne _).2 s).symm]
  | float x =>
    cases b with
    | null => simp [same, integer?, sense, x.sense_ne.1]
    | text t => simp [same, integer?, sense, x.sense_ne.2 t]
    | float y => exact Binary64.same_iff
    | bool _ | int _ => exact Binary64.sameInt_iff
  | bool _ | int _ =>
    cases b with
    | null | text _ => simp [same, integer?, sense, Sense.integer_ne]
    | float y => exact Binary64.sameInt_iff.trans eq_comm
    | bool _ | int _ => exact beq_iff_eq.trans Sense.integer_inj.symm

instance : EquivBEq Scalar where
  rfl := same_iff.mpr rfl
  symm h := same_iff.mpr (same_iff.mp h).symm
  trans h h' := same_iff.mpr ((same_iff.mp h).trans (same_iff.mp h'))

end Scalar

end Switchboard
