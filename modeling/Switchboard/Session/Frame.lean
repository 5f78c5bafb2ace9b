import Switchboard.Log
import Switchboard.Session.Notice

/-!
# Frames and packets in a session

One frame, from the raw value to the changed session. No failure leaves the handling of a frame: it
is logged and given as a `Refusal`, which the error observers are told of.
-/

namespace Switchboard

/-- What a failure is about. -/
inductive Subject where
  | frame (v : Value)
  | packet (p : Packet)
  | signal (s : Signal)

/-- A failure and what it is about. -/
structure Refusal where
  cause : Failure
  subject : Subject

/-- What came of a frame or a packet. -/
structure Handled where
  session : Session
  logs : List LogRecord := []
  /-- The handler of the embedding program that was called with the packet. -/
  called : Option (String × Packet) := none
  refusal : Option Refusal := none

namespace Handled

/-- The frame was accepted. -/
def accepted (h : Handled) : Bool := h.refusal.isNone

end Handled

namespace Session

/-- The record of a failure to handle a packet. -/
def failureRecord (p : Packet) : Failure → LogRecord
  | .decode e => .packetDropped p.sequence (.decode e)
  | _ => .packetFailed p.type p.sequence

/-- Closes the handling of a packet with the failure there was, if any. -/
def conclude (s : Session) (p : Packet) (logs : List LogRecord) : Option Failure → Handled
  | none => { session := s, logs }
  | some f =>
    { session := s, logs := logs ++ [failureRecord p f], refusal := some ⟨f, .packet p⟩ }

/-- The record of a notice that was taken. -/
def noticeRecords : Notice → List LogRecord
  | .ready user channels => [.sessionReady user.id channels.length]
  | _ => []

/-- Handles a packet of a topic. -/
def acceptTopic (now : Instant) (s : Session) (p : Packet) (t : Topic) : Handled :=
  match Notice.decode p t with
  | .error f => s.conclude p [] (some f)
  | .ok n =>
    let (s', failure) := s.take now n
    s'.conclude p (if failure.isNone then noticeRecords n else []) failure

/-- Handles a packet. -/
def acceptPacket (now : Instant) (s : Session) (p : Packet) : Handled :=
  match s.handlers.find? p.type with
  | none =>
    s.conclude p (if s.handlers.logUnknown then [.packetIgnored p.type p.sequence] else []) none
  | some (.topic t) => s.acceptTopic now p t
  | some (.custom name answer) => { s.conclude p [] (answer p) with called := some (name, p) }

/-- Handles a frame. One that is no dispatch frame is accepted and does nothing. -/
def acceptFrame (now : Instant) (s : Session) (frame : Value) : Handled :=
  match Packet.ofFrame frame with
  | .error e =>
    { session := s, logs := [.frameDropped e], refusal := some ⟨.decode e, .frame frame⟩ }
  | .ok none => { session := s }
  | .ok (some p) => s.acceptPacket now p

end Session

end Switchboard
