import Switchboard.Log
import Switchboard.Settings
import Switchboard.Yaml.Library

/-!
# Keepers of settings

A store is one YAML document at a path. A new document is first written to a scratch file, which
then takes the place of the old one. A keeper holds the settings in effect and keeps them in a
store: it loads them, with the defaults where the file says nothing, and lays changes over them.
Both work with any library for YAML.
-/

namespace Switchboard.Settings

/-- What is at a path. -/
inductive Place where
  | missing
  | file (octets : List UInt8)
  | directory

/-- A document at a path. -/
structure Store where
  path : String
  place : Place := .missing
  /-- The scratch file, if it is there. -/
  scratch : Option (List UInt8) := none

variable [Yaml.Library]

namespace Store

/-- There is a file at the path. -/
def isFile (s : Store) : Bool :=
  match s.place with
  | .file _ => true
  | _ => false

/-- The document in the octets of a file. What is no document reads as null. -/
def documentOf (path : String) (octets : List UInt8) : Except Failure (Value × List LogRecord) :=
  match Yaml.documentIn octets with
  | .ok v => .ok (v, [])
  | .error .malformed => .ok (.null, [.documentInvalid path])
  | .error (.failed f) => .error f

/-- The document; one that is missing or malformed is null. -/
def read (s : Store) : Except Failure (Value × List LogRecord) :=
  match s.place with
  | .missing => .ok (.null, [])
  | .directory => .error .isADirectory
  | .file octets => documentOf s.path octets

/-- Replaces the document. If that fails, the scratch file is left behind as far as it was
written. -/
def write (s : Store) (v : Value) : Store × Option Failure :=
  let (text, failure) := Yaml.Library.dump v
  let octets := Octets.encode text.toList
  match failure with
  | some f => ({ s with scratch := some octets }, some f)
  | none =>
    match s.place with
    | .directory => ({ s with scratch := some octets }, some .isADirectory)
    | _ => ({ s with place := .file octets, scratch := none }, none)

end Store

/-- The settings in effect and the store that keeps them. -/
structure Keeper where
  store : Store
  /-- The settings in effect, none before the first use. -/
  current : Fields := []

namespace Keeper

/-- The defaults come into effect and are written. -/
def reset (k : Keeper) : Keeper × Option Failure :=
  let (store, failure) := k.store.write (.map defaults)
  (⟨store, defaults⟩, failure)

/-- What a keeper does: itself afterwards, what is logged, and the answer. -/
structure Outcome (α : Type) where
  keeper : Keeper
  logs : List LogRecord
  answer : Except Failure α

/-- The outcome of a reset, which answers with the settings in effect. -/
def resetWith (k : Keeper) (logs : List LogRecord) : Outcome Fields :=
  let (k, failure) := k.reset
  ⟨k, logs, match failure with
    | some f => .error f
    | none => .ok k.current⟩

/-- Loads the settings from the file. The defaults are written if there is no file, or if it does
not hold a map; an empty document is an empty map. -/
def load (k : Keeper) : Outcome Fields :=
  if !k.store.isFile then k.resetWith [.settingsMissing k.store.path]
  else
    match k.store.read with
    | .error f => ⟨k, [], .error f⟩
    | .ok (.null, logs) => ⟨{ k with current := defaults }, logs, .ok defaults⟩
    | .ok (.map es, logs) =>
      let merged := overlay defaults es
      ⟨{ k with current := merged }, logs, .ok merged⟩
    | .ok (_, logs) => k.resetWith (logs ++ [.settingsMalformed k.store.path])

/-- A section of the settings in effect, that of the defaults if it counts as not given. -/
def section? (k : Keeper) (name : String) : Value :=
  let v := k.current.get name
  if v.isGiven then v
  else
    match defaults.get name with
    | .null => .map []
    | v => v

/-- Lays changes over the settings in effect and writes them. -/
def change (k : Keeper) (changes : Value) : Outcome Unit :=
  let base := if k.current.isEmpty then defaults else k.current
  match changes with
  | .map es =>
    let merged := overlay base es
    match k.store.write (.map merged) with
    | (store, some f) => ⟨⟨store, merged⟩, [], .error f⟩
    | (store, none) => ⟨⟨store, merged⟩, [.settingsSaved k.store.path], .ok ()⟩
  | _ => ⟨k, [], .error .notAMap⟩

end Keeper

end Switchboard.Settings
