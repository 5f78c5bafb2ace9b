import Switchboard.Proofs.Scenario.Quiet
import Switchboard.Proofs.Session.Refusal
import Switchboard.Scenario

/-!
# All or nothing

A frame that is refused leaves a machine as it was, but for what is logged and for what the error
observers do. So does a frame that says nothing to the session, and of that no observer is told
(`perform_frame_whole`). The one frame that is refused halfway, a message with an emoji whose id has
more digits than can be written, does not come from any JSON text.
-/

namespace Switchboard.Scenario.Machine

/-- The frame of a new message with a payload. -/
def posted (data : Fields) : Value :=
  .map [(.text "t", .text "MESSAGE_CREATE"), (.text "d", .map data)]

end Switchboard.Scenario.Machine
