import Switchboard.Proofs.Settings

/-!
# The laws of laying settings over others

What is at a key when settings are laid over others follows from the two values there alone, and not
from what is at other keys (`Laid`); the keys of the settings below come first, in their order. So
it changes nothing to lay the same settings over again, and settings that have no key in common may
be laid over in either order (`overlay_laws`).
-/

namespace Switchboard.Settings

open Table

/-! ## Sections -/

/-- The entries of a section with given ones put over them: its own keys come first, and at each key
there is what is given, or else what was there. -/
structure Updated (es given m : Fields) : Prop where
  keys_eq : keys m = keys es ++ (keys given).filter fun k => !has k es
  find?_eq : ∀ k, find? k m = (find? k given).or (find? k es)

/-- To put all entries of a table is to update. -/
theorem updated_putAll (es : Fields) {given : Fields} (h : Distinct given) :
    Updated es given (putAll es given) where
  keys_eq := keys_merge (fun _ v => v) es h
  find?_eq k := by
    rw [putAll_eq_merge, find?_merge k _ es h]
    cases find? k given <;> rfl

/-- To put the same entries twice is to put them once. -/
theorem putAll_putAll {es given : Fields} (hes : Distinct es) (h : Distinct given) :
    putAll (putAll es given) given = putAll es given :=
  merge_merge (f := fun _ v => v) hes h fun _ _ _ => rfl

/-! ## Values at a key -/

/-- What is at a key when one value is laid over another. -/
inductive Laid : Option Value → Option Value → Option Value → Prop where
  /-- Nothing is given. -/
  | kept (old : Option Value) : Laid old none old
  /-- The entries of a map are put over those of a map, whatever values they have. -/
  | updated {es given m : Fields} (h : Updated es given m) :
    Laid (some (.map es)) (some (.map given)) (some (.map m))
  /-- One of the two is no map. -/
  | taken {old : Option Value} {v : Value} (h : ∀ es given, old = some (.map es) → v ≠ .map given) :
    Laid old (some v) (some v)

/-- What is found after one value is laid over another. -/
theorem laid_overlayValue (old : Option Value) {v : Value}
    (hv : ∀ given, v = .map given → Distinct given) :
    Laid old (some v) (some (overlayValue old v)) := by
  obtain ⟨es, given, rfl, rfl, hput⟩ | ⟨hnot, hgiven⟩ := overlayValue_cases old v
  · rw [hput]
    exact .updated (updated_putAll es (hv given rfl))
  · rw [hgiven]
    exact .taken hnot

/-- To lay the same value over again changes nothing. -/
theorem overlayValue_overlayValue {old : Option Value} {v : Value}
    (hold : ∀ es, old = some (.map es) → Distinct es)
    (hv : ∀ given, v = .map given → Distinct given) :
    overlayValue (some (overlayValue old v)) v = overlayValue old v := by
  obtain ⟨es, given, rfl, rfl, hput⟩ | ⟨-, hgiven⟩ := overlayValue_cases old v
  · rw [hput]
    exact congrArg Value.map (putAll_putAll (hold es rfl) (hv given rfl))
  · rw [hgiven]
    cases v with
    | map given =>
      -- The entries of the map are put over themselves.
      exact congrArg Value.map
        (putAll_of_begins (hv given rfl) List.prefix_rfl fun k _ => BEq.rfl)
    | _ => rfl

/-! ## Laws -/

/-- The settings that come of laying settings over others have the keys of those below, in their
order, and then the new keys of those above, in theirs; at each key there is what comes of laying
the one value there over the other. Laying the same settings over again changes nothing, laying none
over changes nothing, and settings without a common key may be laid over one after the other in
either order, but for the order of the keys. -/
theorem overlay_laws {b o : Fields} (hb : Regular b) (ho : Regular o) :
    keys (overlay b o) = keys b ++ (keys o).filter (fun k => !has k b) ∧
      (∀ k, Laid (find? k b) (find? k o) (find? k (overlay b o))) ∧
      overlay (overlay b o) o = overlay b o ∧
      overlay b [] = b ∧
      ∀ o', Distinct o' → Apart o o' →
        (overlay (overlay b o) o').Perm (overlay (overlay b o') o) := by
  refine ⟨keys_merge overlayValue b ho.distinct, fun k => ?_,
    merge_merge hb.distinct ho.distinct fun k v hv => ?_, rfl,
    fun o' ho' h => h.merge_perm hb.distinct ho.distinct ho'⟩
  · -- A value that is laid over another one is found at its key.
    rw [find?_overlay k b ho.distinct]
    cases hv : find? k o with
    | none => exact .kept _
    | some v => exact laid_overlayValue _ fun given hmap => ho.distinct_of_find? (hmap ▸ hv)
  · -- What was laid over once is laid over with itself.
    exact overlayValue_overlayValue (fun es hes => hb.distinct_of_find? hes)
      fun given hmap => ho.distinct_of_find? (hmap ▸ hv)

/-- Settings with a section that has a map in it. -/
def nested : Fields := Fields.ofList [
  ("cache", .map (Fields.ofList [
    ("capacity", .int 10), ("ages", .map (Fields.ofList [("soft", .int 5)]))])),
  ("level", .text "INFO")]

/-- Settings with another map there, and with a section in the place of a text. -/
def nestedAgain : Fields := Fields.ofList [
  ("level", .map (Fields.ofList [("console", .text "DEBUG")])),
  ("cache", .map (Fields.ofList [
    ("ages", .map (Fields.ofList [("hard", .int 9)])), ("sweep", .bool true)]))]

/-- Settings that have no key in common with those. -/
def notes : Fields := Fields.ofList [("owner", .null), ("trace", .bool true)]

/-- The map within the section gives way as a whole, and so does the text; the order is that of the
settings below. -/
theorem overlay_laws_nested :
    Regular nested ∧ Regular nestedAgain ∧ Distinct notes ∧ Apart nestedAgain notes ∧
      overlay nested nestedAgain = Fields.ofList [
        ("cache", .map (Fields.ofList [("capacity", .int 10),
          ("ages", .map (Fields.ofList [("hard", .int 9)])), ("sweep", .bool true)])),
        ("level", .map (Fields.ofList [("console", .text "DEBUG")]))] ∧
      overlay (overlay nested nestedAgain) nestedAgain = overlay nested nestedAgain ∧
      (overlay (overlay nested nestedAgain) notes).Perm
        (overlay (overlay nested notes) nestedAgain) := by
  -- The three settings, and the laws for them.
  have hb : Regular nested := by decide
  have ho : Regular nestedAgain := by decide
  have ho' : Distinct notes := by decide
  have hapart : Apart nestedAgain notes := by decide
  obtain ⟨-, -, htwice, -, hswap⟩ := overlay_laws hb ho
  exact ⟨hb, ho, ho', hapart, rfl, htwice, hswap notes ho' hapart⟩

end Switchboard.Settings
