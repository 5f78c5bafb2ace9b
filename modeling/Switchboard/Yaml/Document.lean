import Switchboard.Yaml.Node
import Switchboard.Yaml.Token.Lexer

/-!
# Reading a YAML document

From a text to the value it stands for. The entries that a merge key takes from other maps are put
first (`flatten`); a tree then has a value if no node in it is at fault. Of several faults the one
nearest the root counts, and of these the first one.
-/

namespace Switchboard.Yaml

namespace Node

/-! ## Merge keys -/

/-- A node at fault. -/
def fault : Node := .scalar .unknown ""

/-- The node is the key of entries to be taken from other maps. -/
def isMergeKey : Node → Bool
  | .scalar .merge _ => true
  | _ => false

/-- The entries of a map; anything else is at fault. -/
def entriesOf : Node → List (Node × Node)
  | .map _ es => es
  | _ => [(fault, empty)]

/-- The entries that the value of a merge key gives: those of a map, or those of a list of maps, the
last one first. -/
def mergedEntries : Node → List (Node × Node)
  | .map _ es => es
  | .list _ ns => ns.reverse.flatMap entriesOf
  | .scalar .. => [(fault, empty)]

/-- The key of a default value is a text in a map. -/
def plainKey : Node → Node
  | .scalar .default s => .scalar .text s
  | n => n

/-- The entries with what merge keys give put first. -/
def mergeEntries (es : List (Node × Node)) : List (Node × Node) :=
  (es.filter fun e => isMergeKey e.1).flatMap (fun e => mergedEntries e.2) ++
    (es.filter fun e => !isMergeKey e.1).map fun e => (plainKey e.1, e.2)

mutual

/-- The tree without merge keys. -/
def flatten : Node → Node
  | .scalar t s => .scalar t s
  | .list t ns => .list t (flattenItems ns)
  | .map t es => .map t (mergeEntries (flattenEntries es))

/-- The items without merge keys. -/
def flattenItems : List Node → List Node
  | [] => []
  | n :: ns => flatten n :: flattenItems ns

/-- The entries without merge keys in their keys and values. -/
def flattenEntries : List (Node × Node) → List (Node × Node)
  | [] => []
  | (k, v) :: es => (flatten k, flatten v) :: flattenEntries es

end

/-! ## Faults -/

/-- The fault of a scalar. -/
def scalarFaults (depth : Nat) (t : Tag) (s : String) : List (Nat × Problem) :=
  match t.read s with
  | .ok _ => []
  | .error p => [(depth, p)]

mutual

/-- The faults of a tree, each with its depth, in the order of the text. -/
def faults (depth : Nat) : Node → List (Nat × Problem)
  | .scalar t s => scalarFaults depth t s
  | .list t ns => if t = .list then itemFaults (depth + 1) ns else [(depth, .malformed)]
  | .map t es => if t = .map then entryFaults (depth + 1) es else [(depth, .malformed)]

/-- The faults of items. -/
def itemFaults (depth : Nat) : List Node → List (Nat × Problem)
  | [] => []
  | n :: ns => faults depth n ++ itemFaults depth ns

/-- The faults of entries. A collection is no key. -/
def entryFaults (depth : Nat) : List (Node × Node) → List (Nat × Problem)
  | [] => []
  | (.scalar t s, v) :: es => scalarFaults depth t s ++ faults depth v ++ entryFaults depth es
  | (_, v) :: es => (depth, .malformed) :: faults depth v ++ entryFaults depth es

end

/-- The first of the faults nearest the root. -/
def worst? : List (Nat × Problem) → Option (Nat × Problem)
  | [] => none
  | f :: fs =>
    match worst? fs with
    | some g => some (if f.1 ≤ g.1 then f else g)
    | none => some f

/-! ## Values -/

/-- The value of a scalar that is not at fault. -/
def scalarValue (t : Tag) (s : String) : Scalar := (t.read s).toOption.getD .null

mutual

/-- The value of a tree without faults. -/
def value : Node → Value
  | .scalar t s => .scalar (scalarValue t s)
  | .list _ ns => .list (itemValues ns)
  | .map _ es => .map (Table.ofList (entryValues es))

/-- The values of items. -/
def itemValues : List Node → List Value
  | [] => []
  | n :: ns => value n :: itemValues ns

/-- The entries of a map. -/
def entryValues : List (Node × Node) → Fields
  | [] => []
  | (.scalar t s, v) :: es => (scalarValue t s, value v) :: entryValues es
  | (_, v) :: es => (.null, value v) :: entryValues es

end

/-- The value of a tree, or the fault that counts. -/
def value? (n : Node) : Except Problem Value :=
  let n := n.flatten
  match worst? (n.faults 0) with
  | some (_, p) => .error p
  | none => .ok n.value

end Node

/-- The value of a text whose line ends are `\n`. A text without document is null. -/
def read (cs : List Char) : Except Problem Value := do
  match ← Node.ofTokens (tokens cs) with
  | some n => n.value?
  | none => pure .null

end Switchboard.Yaml
