import Switchboard.Scenario.Run

/-!
# Scenarios

A scenario is a session's settings, the scripts of its listeners, and steps. Its transcript has an
entry for every step, and one more for the closing of a live session, which happens once all lanes
are idle.
-/

namespace Switchboard

/-- A scripted run of a session. -/
structure Scenario where
  /-- The settings that the session is given. -/
  settings : Value := .null
  /-- The session's lanes and its sweeper are served. -/
  live : Bool := true
  /-- The handlers of the session, if not the standard ones. -/
  handlers : Option Handlers := none
  /-- An entry is made only once the lanes are idle. -/
  settles : Bool := true
  scripts : List (Listener × List Scenario.Action) := []
  steps : List Scenario.Step

namespace Scenario

/-- Runs code as the main thread of a machine until its end. Other threads first run when it
waits. -/
def Machine.runMain (m : Machine) (code : List Instr) : Machine :=
  let m := { m with threads := Table.put .main code m.threads }
  let (fuel, m) := m.round Machine.patience [.main]
  m.run Machine.patience fuel

/-- A machine for a session without sweeper. -/
def still (session : Session) : Machine := { session }

/-- A machine for a session whose lanes and sweeper are served. -/
def served (session : Session) : Except Failure Machine := do
  let w ← Sweeper.ofSettings session.settings
  pure ((still session.start).spawn .sweeper [.sweeper w])

/-- The instructions of a scenario's steps. -/
def code (s : Scenario) : List Instr := s.steps.map fun step => .perform step .entry

/-- The transcript of a scenario, unless its session cannot be opened. -/
def transcript (s : Scenario) : Except Failure (List Entry) := do
  let session ← Session.create s.settings s.handlers
  let (m, ending) ←
    if s.live then do
      let m ← served session
      pure (m, [.settle, .close, .record .closed])
    else pure (still session, [])
  let m := { m with scripts := s.scripts, settles := s.settles }
  pure (m.runMain (s.code ++ ending)).entries.reverse

end Scenario

end Switchboard
