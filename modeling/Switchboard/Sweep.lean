import Switchboard.Session.Notice
import Switchboard.Log

/-!
# Sweeping

A sweeper drops the messages that have reached a maximum age, with their registrations. It works at
a fixed interval, unless the age or the interval is not positive.
-/

namespace Switchboard

/-- How old messages may become, and the time between sweeps in seconds. -/
structure Sweeper where
  maxAge : Duration
  interval : Binary64
  deriving DecidableEq

namespace Sweeper

/-- A sweeper for an age in seconds. -/
def create (maxAge interval : Binary64) : Except Failure Sweeper :=
  (Duration.ofSeconds? maxAge).map (⟨·, interval⟩)

/-- The sweeper that the settings of a session ask for. -/
def ofSettings (settings : Fields) : Except Failure Sweeper := do
  let cache ← Settings.sectionOf settings "cache"
  let maxAge ← (cache.get "message_max_age_seconds").toDouble
  let interval ← (cache.get "sweep_interval_seconds").toDouble
  create maxAge interval

/-- The sweeper has anything to do. -/
def enabled (w : Sweeper) : Bool := decide (0 < w.maxAge) && w.interval.isPositive

end Sweeper

namespace Session

/-- Drops the messages that are at least `maxAge` old, and gives their number. -/
def sweep (s : Session) (maxAge : Duration) (now : Instant) :
    Except Failure (Nat × Session) := do
  let (gone, cache) ← s.cache.dropOlder maxAge now
  pure (gone.length, releaseMessages { s with cache } gone)

/-- The record of a sweep that dropped messages. -/
def sweepRecords (count : Nat) : List LogRecord :=
  if count = 0 then [] else [.messagesSwept count]

end Session

end Switchboard
