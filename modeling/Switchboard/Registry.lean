import Switchboard.Event
import Switchboard.Table

/-!
# Listener registrations

A scope is the whole session or one entity in it. Registrations are filed by scope and event kind;
within one file they stand in the order in which they were made, and a file without registrations is
not kept. Every registration has an id of its own, and ids are never used again.
-/

namespace Switchboard

/-- Where a listener is attached. -/
inductive Scope where
  | global
  | server (id : Snowflake)
  | channel (id : Snowflake)
  | message (id : Snowflake)
  | user (id : Snowflake)
  deriving DecidableEq, Inhabited

/-- The name by which a listener is known; equal names are one listener. -/
abbrev Listener := String

/-- One registration of a listener. -/
structure Registration where
  id : Nat
  scope : Scope
  kind : EventKind
  listener : Listener
  deriving DecidableEq, Inhabited

/-- Registrations filed by scope and kind, and the id that the next one gets. -/
structure Registry where
  files : List ((Scope × EventKind) × List Registration) := []
  nextId : Nat := 1
  deriving Inhabited

namespace Registry

/-- The registrations at a scope for a kind, oldest first. -/
def file (r : Registry) (scope : Scope) (kind : EventKind) : List Registration :=
  (Table.find? (scope, kind) r.files).getD []

/-- Attaches a listener. If it is attached at this scope for this kind already, the registration
stays as it is and is given again. -/
def attach (r : Registry) (scope : Scope) (kind : EventKind) (listener : Listener) :
    Registration × Registry :=
  match (r.file scope kind).find? (·.listener == listener) with
  | some known => (known, r)
  | none =>
    let fresh : Registration := ⟨r.nextId, scope, kind, listener⟩
    (fresh, ⟨Table.put (scope, kind) (r.file scope kind ++ [fresh]) r.files, r.nextId + 1⟩)

/-- Takes back a registration; one that is gone already changes nothing. -/
def detach (r : Registry) (known : Registration) : Registry :=
  let place := (known.scope, known.kind)
  match Table.find? place r.files with
  | none => r
  | some regs =>
    let rest := regs.filter (·.id != known.id)
    if rest.isEmpty then { r with files := Table.drop place r.files }
    else { r with files := Table.put place rest r.files }

/-- The listeners at a scope for a kind, in the order in which they were attached. -/
def listenersAt (r : Registry) (scope : Scope) (kind : EventKind) : List Listener :=
  (r.file scope kind).map Registration.listener

/-- All registrations at a scope. -/
def registrationsAt (r : Registry) (scope : Scope) : List Registration :=
  (r.files.filter (·.1.1 == scope)).flatMap Prod.snd

/-- Drops everything that is attached at a scope and gives the number of registrations dropped. -/
def dropScope (r : Registry) (scope : Scope) : Nat × Registry :=
  ((r.registrationsAt scope).length, { r with files := r.files.filter (!·.1.1 == scope) })

/-- Drops everything that is attached at any of the scopes. -/
def dropScopes (r : Registry) (scopes : List Scope) : Registry :=
  scopes.foldl (fun r s => (r.dropScope s).2) r

/-- Drops all registrations. Ids go on counting. -/
def clear (r : Registry) : Registry := { r with files := [] }

/-- All registrations. -/
def all (r : Registry) : List Registration := r.files.flatMap Prod.snd

/-- The number of registrations. -/
def size (r : Registry) : Nat := r.all.length

end Registry

end Switchboard
