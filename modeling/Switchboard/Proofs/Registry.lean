import Mathlib.Data.List.Basic
import Switchboard.Proofs.Table
import Switchboard.Registry

/-!
# What is left at a scope

`registrationsAt` is the view of a registry: dropping scopes empties them and leaves every other
scope as it is (`registrationsAt_dropScopes`). So do the listeners that are found at a scope
(`listenersAt_dropScopes`).
-/

namespace Switchboard.Registry

/-- Dropping a scope empties it and leaves the others as they are. -/
theorem registrationsAt_dropScope (r : Registry) (scope scope' : Scope) :
    (r.dropScope scope).2.registrationsAt scope' =
      if scope' = scope then [] else r.registrationsAt scope' := by
  have hfiles : (r.dropScope scope).2.registrationsAt scope' =
      (r.files.filter fun f => f.1.1 == scope' && !f.1.1 == scope).flatMap Prod.snd := by
    simp only [registrationsAt, dropScope, List.filter_filter]
  rw [hfiles]
  by_cases h : scope' = scope
  · -- None of the files at the scope are left.
    have hnone : (r.files.filter fun f => f.1.1 == scope' && !f.1.1 == scope) = [] := by
      rw [List.filter_eq_nil_iff]
      intro f _
      simp [h]
    rw [hnone, if_pos h]
    rfl
  · rw [if_neg h]
    -- The files at another scope are not looked at.
    have hsame : (r.files.filter fun f => f.1.1 == scope' && !f.1.1 == scope) =
        r.files.filter fun f => f.1.1 == scope' := by
      refine List.filter_congr fun f _ => ?_
      by_cases hf : f.1.1 = scope'
      · simp [hf, h]
      · simp [hf]
    rw [hsame, registrationsAt]

/-- Dropping scopes empties them and leaves the others as they are. -/
theorem registrationsAt_dropScopes (r : Registry) (scopes : List Scope) (scope : Scope) :
    (r.dropScopes scopes).registrationsAt scope =
      if scope ∈ scopes then [] else r.registrationsAt scope := by
  induction scopes generalizing r with
  | nil => rfl
  | cons s scopes ih =>
    have hcons : r.dropScopes (s :: scopes) = (r.dropScope s).2.dropScopes scopes := rfl
    rw [hcons, ih, registrationsAt_dropScope]
    by_cases hs : scope = s
    · simp [hs]
    · simp [hs]

/-- Scopes are dropped one list after another. -/
theorem dropScopes_append (r : Registry) (scopes scopes' : List Scope) :
    r.dropScopes (scopes ++ scopes') = (r.dropScopes scopes).dropScopes scopes' :=
  List.foldl_append

/-- Dropping scopes takes away their files and leaves the others. -/
theorem find?_dropScopes (r : Registry) (scopes : List Scope) (scope : Scope) (kind : EventKind) :
    Table.find? (scope, kind) (r.dropScopes scopes).files =
      if scope ∈ scopes then none else Table.find? (scope, kind) r.files := by
  induction scopes generalizing r with
  | nil => rfl
  | cons s scopes ih =>
    have hcons : r.dropScopes (s :: scopes) = (r.dropScope s).2.dropScopes scopes := rfl
    have hfirst := Table.find?_filter_keys (fun k : Scope × EventKind => !k.1 == s) (scope, kind)
      r.files
    rw [hcons, ih, dropScope, hfirst]
    by_cases hs : scope = s
    · simp [hs]
    · simp [hs]

/-- The listeners at a scope that is none of those dropped are found as before. -/
theorem listenersAt_dropScopes {r : Registry} {scopes : List Scope} {scope : Scope}
    (h : scope ∉ scopes) (kind : EventKind) :
    (r.dropScopes scopes).listenersAt scope kind = r.listenersAt scope kind := by
  simp only [listenersAt, file, find?_dropScopes, if_neg h]

end Switchboard.Registry
