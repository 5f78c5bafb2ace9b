import Switchboard.Json.Reader
import Switchboard.Scenario
import Switchboard.Settings.Keeper

/-!
# Replaying a capture

A capture is a text with one frame to a line, as JSON. Blank lines are passed over, and a line that
is not JSON is skipped with a log record that names its number.

A replay loads the settings, opens a session with a listener that logs every event and an observer
that logs every failure, and pumps the frames of a capture through it. What is logged below the
level that the settings ask for is left out; until that level is known, it is that of warnings.
-/

namespace Switchboard.Capture

/-- What a line gives, if it is not blank. An integer with too many digits is a failure. -/
def lineFeed? (path : String) (number : Nat) (line : List Char) : Option Feed :=
  let body := trim line
  if body.isEmpty then none
  else
    match Json.read (some digitLimit) body with
    | .ok v => some (.frame v)
    | .error .malformed => some (.skipped (.lineSkipped number path))
    | .error (.tooManyDigits n) => some (.failed (.tooManyDigits n))

/-- What lines give, the first of them having the given number. -/
def feedFrom (path : String) (number : Nat) : List (List Char) → List Feed
  | [] => []
  | line :: rest => (lineFeed? path number line).toList ++ feedFrom path (number + 1) rest

/-- What a capture gives. -/
def feed (path : String) (cs : List Char) : List Feed := feedFrom path 1 (lines cs)

end Switchboard.Capture

namespace Switchboard.Replay

/-- How a replay ends. -/
inductive Ending where
  | done
  | failed (f : Failure)
  /-- There is nothing to replay. -/
  | usage

/-- What a replay is given. -/
structure Job where
  /-- Where the capture is said to be. -/
  path : Option String
  /-- The text of the capture, if it is there. -/
  capture : Option (List Char)
  settings : Settings.Store

/-- What a replay leaves behind. -/
structure Report where
  ending : Ending
  logs : List LogRecord
  settings : Settings.Store

/-- The path of the capture: the first argument, or else what the environment says. -/
def chosenPath (args : List String) (environment : Option String) : Option String :=
  match args with
  | a :: _ => some a
  | [] => environment

/-- What is said when there is nothing to replay. -/
def usage : String := "usage: gateway_main.py CAPTURE.jsonl (or set GATEWAY_CORE_REPLAY)"

/-! ## The level of the log -/

/-- The ranks of the names of levels. -/
def rankOf? (name : String) : Option Int :=
  Table.find? name [("CRITICAL", 50), ("FATAL", 50), ("ERROR", 40), ("WARN", 30), ("WARNING", 30),
    ("INFO", 20), ("DEBUG", 10), ("NOTSET", 0)]

/-- The least rank that is logged, by a setting; null asks for nothing. -/
def threshold : Value → Except Failure Int
  | .null => .ok Level.warning.rank
  | .bool b => .ok (if b then 1 else 0)
  | .int n => .ok n
  | .text name =>
    match rankOf? name with
    | some n => .ok n
    | none => .error .unknownLevel
  | _ => .error .wrongKind

/-- The threshold that settings ask for. -/
def thresholdOf (settings : Fields) : Except Failure Int :=
  match settings.get "logging" with
  | .map es => threshold ((Table.find? (Scalar.text "level") es).getD (.text "INFO"))
  | _ => .error .notAMap

/-- The records of at least a rank. -/
def loud (rank : Int) (rs : List LogRecord) : List LogRecord :=
  rs.filter fun r => rank ≤ r.level.rank

/-! ## The run -/

/-- The name of the listener that logs events. -/
def logger : Listener := "log"

/-- What the replay does in its session. -/
def code (feed : List Feed) : List Scenario.Instr :=
  .perform .observeLogging .verdict ::
    EventKind.all.map (fun kind => .perform (.listen kind logger .global) .verdict) ++
    [.perform (.consume feed true) .verdict, .settle, .close]

/-- Runs a feed through a session with the given settings. -/
def runFeed (settings : Fields) (feed : List Feed) : Except Failure Scenario.Machine := do
  let session ← Session.create (.map settings) none
  let m ← Scenario.served session
  pure ({ m with scripts := [(logger, [.log])] }.runMain (code feed))

/-- The ending and the log of a feed with the given settings. -/
def replayFeed (settings : Fields) (feed : List Feed) : Ending × List LogRecord :=
  match runFeed settings feed with
  | .error f => (.failed f, [])
  | .ok m =>
    match m.failure with
    | some f => (.failed f, m.logs.reverse)
    | none => (.done, m.logs.reverse)

section

variable [Yaml.Library]

/-- Replays the capture at a path. -/
def replayAt (path : String) (capture : Option (List Char)) (store : Settings.Store) : Report :=
  let loaded := Settings.Keeper.load ⟨store, []⟩
  let store := loaded.keeper.store
  let early := loud Level.warning.rank loaded.logs
  let begun := loaded.answer.bind fun settings =>
    (thresholdOf settings).map fun rank => (settings, rank)
  match begun with
  | .error f => ⟨.failed f, early, store⟩
  | .ok (settings, rank) =>
    let feed := match capture with
      | some cs => Capture.feed path cs
      | none => [.failed .noSuchFile]
    let (ending, logs) := replayFeed settings feed
    ⟨ending, early ++ loud rank (.replayBegun path :: logs), store⟩

/-- Replays a capture, if one is named. -/
def run (job : Job) : Report :=
  match job.path with
  | none | some "" => ⟨.usage, [], job.settings⟩
  | some path => replayAt path job.capture job.settings

end

end Switchboard.Replay
