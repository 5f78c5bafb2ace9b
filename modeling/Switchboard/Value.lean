import Switchboard.Number.Binary64
import Switchboard.Table

/-!
# Values

What a frame, a payload or a settings file is made of: scalars, lists, and maps whose keys are
scalars, in insertion order. Keys are told apart numerically: `1`, `1.0` and `true` are one key.
-/

namespace Switchboard

/-- A value without parts. -/
inductive Scalar where
  | null
  | bool (b : Bool)
  | int (n : Int)
  | float (x : Binary64)
  | text (s : String)
  deriving Inhabited

/-- The integer that a truth value or an integer stands for. -/
def Scalar.integer? : Scalar → Option Int
  | .bool b => some (if b then 1 else 0)
  | .int n => some n
  | _ => none

/-- Numerically equal, or equal texts, or both null. -/
def Scalar.same (a b : Scalar) : Bool :=
  match a, b with
  | .null, .null => true
  | .text s, .text t => s == t
  | .float x, .float y => x.same y
  | .float x, b => (b.integer?.map x.sameInt).getD false
  | a, .float y => (a.integer?.map y.sameInt).getD false
  | a, b =>
    match a.integer?, b.integer? with
    | some m, some n => m == n
    | _, _ => false

instance : BEq Scalar := ⟨Scalar.same⟩

/-- A scalar, a list, or a map in insertion order. -/
inductive Value where
  | scalar (s : Scalar)
  | list (items : List Value)
  | map (entries : List (Scalar × Value))
  deriving Inhabited

/-- The entries of a map. -/
abbrev Fields := List (Scalar × Value)

namespace Value

@[match_pattern] abbrev null : Value := .scalar .null
@[match_pattern] abbrev bool (b : Bool) : Value := .scalar (.bool b)
@[match_pattern] abbrev int (n : Int) : Value := .scalar (.int n)
@[match_pattern] abbrev float (x : Binary64) : Value := .scalar (.float x)
@[match_pattern] abbrev text (s : String) : Value := .scalar (.text s)

/-- The value is null. -/
def isNull : Value → Bool
  | null => true
  | _ => false

/-- The value counts as given: not null, not false, not zero, not empty. -/
def isGiven : Value → Bool
  | null => false
  | bool b => b
  | int n => n != 0
  | float x => !x.isZero
  | text s => !s.isEmpty
  | list xs => !xs.isEmpty
  | map es => !es.isEmpty

/-- The entries of a map, none for another value. -/
def fields? : Value → Option Fields
  | map es => some es
  | _ => none

end Value

namespace Fields

/-- The value of a named field, null when it is missing. -/
def get (es : Fields) (name : String) : Value := (Table.find? (Scalar.text name) es).getD .null

/-- A map from pairs of a name and a value. -/
def ofList (es : List (String × Value)) : Fields := es.map fun e => (.text e.1, e.2)

end Fields

end Switchboard
