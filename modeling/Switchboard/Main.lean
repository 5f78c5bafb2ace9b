import Switchboard.Replay
import Switchboard.Settings.File

/-!
# The command line

Replays the capture that the first argument names, or else the environment. The log goes to the
standard error, and a settings file that was missing or malformed is written anew.
-/

namespace Switchboard.CommandLine

/-- The text of the file at a path, none if it is missing. -/
def textAt? (path : String) : IO (Option (List Char)) := do
  match ← Settings.placeAt path with
  | .file octets => pure (some (Octets.decodeLossy octets))
  | _ => pure none

/-- Tells how a replay ended, and gives the exit code. -/
def conclude : Replay.Ending → IO UInt32
  | .done => pure 0
  | .failed f => do
    IO.eprintln f.message
    pure 1
  | .usage => do
    IO.eprintln Replay.usage
    pure 1

/-- Replays the capture that the arguments or the environment name. -/
def replay (args : List String) : IO UInt32 := do
  let path := Replay.chosenPath args (← IO.getEnv "GATEWAY_CORE_REPLAY")
  let config := (← IO.getEnv "GATEWAY_CORE_CONFIG").getD "config.yaml"
  let place ← Settings.placeAt config
  let capture ← match path with
    | some p => textAt? p
    | none => pure none
  let report := Replay.run { path, capture, settings := { path := config, place } }
  for r in report.logs do
    IO.eprintln ("[" ++ r.level.tag ++ "] " ++ r.text)
  report.settings.keep place
  conclude report.ending

end Switchboard.CommandLine

/-- Replays a capture. -/
def main (args : List String) : IO UInt32 := Switchboard.CommandLine.replay args
