/-!
# Tables in insertion order

A table is a list of pairs, oldest first. `put` gives a known key its new value in place and appends
an unknown one, so the order is that of first insertion; `putLast` moves the key to the end. Keys
are told apart by `==`, and a known key keeps the spelling it was first given.
-/

namespace Switchboard.Table

variable {κ α : Type} [BEq κ]

/-- The value at a key. -/
def find? (k : κ) : List (κ × α) → Option α
  | [] => none
  | (k', a) :: t => if k' == k then some a else find? k t

/-- The key is present. -/
def has (k : κ) (t : List (κ × α)) : Bool := (find? k t).isSome

/-- Gives a key a value: in place if the key is present, at the end otherwise. -/
def put (k : κ) (a : α) : List (κ × α) → List (κ × α)
  | [] => [(k, a)]
  | (k', a') :: t => if k' == k then (k', a) :: t else (k', a') :: put k a t

/-- Removes a key. -/
def drop (k : κ) (t : List (κ × α)) : List (κ × α) := t.filter fun e => !(e.1 == k)

/-- Gives a key a value and the last place. -/
def putLast (k : κ) (a : α) (t : List (κ × α)) : List (κ × α) := drop k t ++ [(k, a)]

/-- The keys, oldest first. -/
def keys (t : List (κ × α)) : List κ := t.map Prod.fst

/-- The values, oldest first. -/
def values (t : List (κ × α)) : List α := t.map Prod.snd

/-- Puts all entries of a second table, oldest first. -/
def putAll (t u : List (κ × α)) : List (κ × α) := u.foldl (fun t e => put e.1 e.2 t) t

/-- The table of a list of pairs, later values at a key taking the place of earlier ones. -/
def ofList (es : List (κ × α)) : List (κ × α) := putAll [] es

end Switchboard.Table
