import Switchboard.Failure

/-!
# Settings

Settings are a map of sections. `overlay` lays given settings over others one section deep: sections
that are maps on both sides are joined key by key, anything else is taken as given. `defaults` are
the settings of a session for which nothing is given.
-/

namespace Switchboard.Settings

/-- What a session is run with when nothing is given. The maximum age of a message is twelve hours.
-/
def defaults : Fields := Fields.ofList [
  ("gateway", .map (Fields.ofList [
    ("workers", .int 4), ("queue_size", .int 256), ("log_unknown_packets", .bool false)])),
  ("cache", .map (Fields.ofList [
    ("message_capacity", .int 1000), ("message_max_age_seconds", .int 43200),
    ("sweep_interval_seconds", .int 60)])),
  ("logging", .map (Fields.ofList [("level", .text "INFO")]))]

/-- The value at a key once a given value is laid over it. -/
def overlayValue : Option Value → Value → Value
  | some (.map es), .map given => .map (Table.putAll es given)
  | _, given => given

/-- Lays given settings over others, one section deep. -/
def overlay (base given : Fields) : Fields :=
  given.foldl
    (fun merged e => Table.put e.1 (overlayValue (Table.find? e.1 merged) e.2) merged) base

/-- Lays one value over another. Only a map can be laid over something, and only over a map, unless
it is empty. -/
def overlay? (base given : Value) : Except Failure Value :=
  match given with
  | .map given =>
    match base with
    | .map base => .ok (.map (overlay base given))
    | base =>
      match given with
      | [] => .ok base
      | (_, .map _) :: _ => .error .notAMap
      | _ :: _ => .error .wrongKind
  | _ => .error .notAMap

/-- A section that must be a map. -/
def sectionOf (settings : Fields) (name : String) : Except Failure Fields :=
  match settings.get name with
  | .map es => .ok es
  | _ => .error .wrongKind

end Switchboard.Settings
