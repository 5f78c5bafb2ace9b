import Switchboard.Settings.Keeper
import Switchboard.Yaml.Document
import Switchboard.Yaml.Page

/-!
# Settings files

How settings files are read and written in the end: by the reader of `Yaml.Document` and the writer
of `Yaml.Page`. They know documents of scalars, lists and maps, as settings are; a set, entries in
order, octets or what holds itself are no document to them, and a date is its text.
-/

namespace Switchboard

/-- The library that reads and writes settings files. A file with octets that are no text is given
up at once. -/
instance Yaml.library : Yaml.Library where
  parse := Yaml.read
  stumble _ := .failed .notWellFormed
  dump v :=
    match Yaml.write v with
    | .ok text => (text, none)
    | .error f => ("", some f)

namespace Settings

/-- What is at a path. -/
def placeAt (path : String) : IO Place := do
  try
    let octets ← IO.FS.readBinFile path
    pure (.file octets.toList)
  catch
    | .noFileOrDirectory .. => pure .missing
    | .inappropriateType .. => pure .directory
    | e => throw e

/-- Writes a document by way of a scratch file. -/
def replaceFile (path : String) (octets : List UInt8) : IO Unit := do
  IO.FS.writeBinFile (path ++ ".tmp") ⟨octets.toArray⟩
  IO.FS.rename (path ++ ".tmp") path

/-- Writes the settings file if it is not what it was. -/
def Store.keep (after : Store) (before : Place) : IO Unit :=
  match before, after.place with
  | .file old, .file new => if old = new then pure () else replaceFile after.path new
  | _, .file new => replaceFile after.path new
  | _, _ => pure ()

end Settings

end Switchboard
