import Switchboard.Proofs.Session.Filed
import Switchboard.Proofs.Session.Refusal

/-!
# Sessions with the standard handlers

With the standard handlers it is settled by a frame alone which notice it carries
(`Notice.ofFrame?`), and the notice is all that the frame does to the session
(`acceptFrame_standard`). New sessions have these handlers unless they are given others
(`handlers_create`), and frames leave the handlers and the serving of the lanes as they are.
-/

namespace Switchboard

/-- The topic whose packets have a type tag. -/
def Topic.ofTag? (tag : String) : Option Topic := Topic.all.find? (·.tag == tag)

/-- Every topic has a tag of its own. -/
@[simp] theorem Topic.ofTag?_tag (t : Topic) : ofTag? t.tag = some t := by
  cases t <;> rfl

/-- A topic is found by no other tag than its own. -/
theorem Topic.tag_of_ofTag? {tag : String} {t : Topic} (h : ofTag? tag = some t) : t.tag = tag := by
  simpa using List.find?_some h

/-- The notice that a frame carries, if it is a packet of a topic and decodes. -/
def Notice.ofFrame? (v : Value) : Option Notice :=
  match Packet.ofFrame v with
  | .ok (some p) => (Topic.ofTag? p.type).bind fun t => (decode p t).toOption
  | _ => none

/-- The standard handler of a packet type is that of the topic with this tag. -/
theorem Handlers.find?_standard_eq (logUnknown : Bool) (type : String) :
    (standard logUnknown).find? type = (Topic.ofTag? type).map .topic := by
  unfold find? standard Topic.ofTag?
  generalize Topic.all = topics
  induction topics with
  | nil => rfl
  | cons t topics ih =>
    by_cases ht : t.tag = type
    · simp [Table.find?, ht]
    · simpa [Table.find?, ht] using ih

namespace Session

variable {s : Session} {now : Instant}

/-- A session that is given no handlers has the standard ones. -/
theorem handlers_create {given : Value} (h : create given none = .ok s) :
    ∃ logUnknown, s.handlers = .standard logUnknown := by
  obtain ⟨settings, -, h⟩ := bind_eq_ok.mp h
  obtain ⟨cache, -, h⟩ := bind_eq_ok.mp h
  obtain ⟨capacity, -, h⟩ := bind_eq_ok.mp h
  obtain ⟨gateway, -, h⟩ := bind_eq_ok.mp h
  cases h
  exact ⟨_, rfl⟩

/-- A packet is handled by the topic with its tag, and ignored if there is none. -/
theorem acceptPacket_standard {b : Bool} (hh : s.handlers = .standard b) (p : Packet) :
    s.acceptPacket now p = match Topic.ofTag? p.type with
      | some t => s.acceptTopic now p t
      | none => s.conclude p (if b then [.packetIgnored p.type p.sequence] else []) none := by
  unfold acceptPacket
  rw [hh, Handlers.find?_standard_eq]
  cases Topic.ofTag? p.type <;> rfl

/-- A packet that decodes takes its notice, and is accepted when that does not fail. -/
theorem acceptPacket_taken {b : Bool} (now : Instant) (hh : s.handlers = .standard b) {p : Packet}
    {t : Topic} {n : Notice} (htag : t.tag = p.type) (hn : Notice.decode p t = .ok n) :
    (s.acceptPacket now p).session = (s.take now n).1 ∧
      (s.acceptPacket now p).accepted = (s.take now n).2.isNone := by
  rw [acceptPacket_topic hh htag]
  exact s.acceptTopic_taken now hn

/-- A frame takes the notice that it carries, and without one it changes nothing. -/
theorem acceptFrame_standard {b : Bool} (hh : s.handlers = .standard b) (v : Value) :
    (s.acceptFrame now v).session = match Notice.ofFrame? v with
      | some n => (s.take now n).1
      | none => s := by
  unfold acceptFrame Notice.ofFrame?
  -- Only a packet of a topic carries a notice.
  cases Packet.ofFrame v with
  | error e => rfl
  | ok found =>
    cases found with
    | none => rfl
    | some p =>
      dsimp only
      rw [acceptPacket_standard hh p]
      cases Topic.ofTag? p.type with
      | none => exact conclude_session ..
      | some t =>
        simp only [acceptTopic, Option.bind_some]
        cases Notice.decode p t with
        | error f => simp [Except.toOption]
        | ok n => simp [Except.toOption]

/-- Whether a frame is one that can be accepted: a dispatch frame has to decode, if a topic has its
tag. -/
def admits (v : Value) : Bool :=
  match Packet.ofFrame v with
  | .error _ => false
  | .ok none => true
  | .ok (some p) => (Topic.ofTag? p.type).all fun t => (Notice.decode p t).isOk

/-- A frame that carries a notice is accepted when the notice is taken without failure. It depends
on nothing but the frame whether any other is accepted. -/
theorem acceptFrame_accepted {b : Bool} (hh : s.handlers = .standard b) (v : Value) :
    (s.acceptFrame now v).accepted = match Notice.ofFrame? v with
      | some n => (s.take now n).2.isNone
      | none => admits v := by
  unfold acceptFrame Notice.ofFrame? admits
  -- What is no packet of a topic is admitted for what it is; a packet depends on its notice.
  cases Packet.ofFrame v with
  | error e => rfl
  | ok found =>
    cases found with
    | none => rfl
    | some p =>
      dsimp only
      rw [acceptPacket_standard hh p]
      cases Topic.ofTag? p.type with
      | none => rfl
      | some t =>
        simp only [Option.bind_some, Option.all_some]
        cases hn : Notice.decode p t with
        | error f =>
          unfold acceptTopic
          rw [hn]
          rfl
        | ok n => exact (s.acceptTopic_taken now hn).2

/-! ## What frames leave as it is -/

/-- What a notice brings leaves the handlers alone. -/
@[simp] theorem enter_handlers (now : Instant) (s : Session) (n : Notice) :
    (s.enter now n).1.handlers = s.handlers := by
  have hcall (id : Snowflake) (call : ReactionCall) :
      (s.applyCall id call).1.handlers = s.handlers := by
    rcases s.applyCall_cases id call with h | ⟨m, answer, m', -, -, h⟩
    · rw [h]
    · rw [h]
  cases n with
  | messageCreate c m author content reactions =>
    simp only [enter, receive]
    split <;> rfl
  | _ => simp [enter, hcall]

/-- Releasing registrations leaves the handlers alone. -/
@[simp] theorem releaseChannels_handlers (s : Session) (ids : List Snowflake) :
    (s.releaseChannels ids).handlers = s.handlers := by
  unfold releaseChannels
  induction ids generalizing s with
  | nil => rfl
  | cons id ids ih => exact ih _

/-- What a notice takes away leaves the handlers alone. -/
@[simp] theorem leave_handlers (s : Session) (n : Notice) : (s.leave n).handlers = s.handlers := by
  cases n <;> simp [leave]

/-- A frame leaves the handlers alone. -/
@[simp] theorem acceptFrame_handlers (now : Instant) (s : Session) (v : Value) :
    (s.acceptFrame now v).session.handlers = s.handlers := by
  rcases acceptFrame_session now s v with h | ⟨n, h⟩
  · rw [h]
  · rw [h]
    exact take_keeps (P := fun s' => s'.handlers = s.handlers) now s n (fun _ _ h => h)
      (fun _ => enter_handlers now s n) (fun s' h => (leave_handlers s' n).trans h) rfl

/-- Lanes that are served stay so when a frame is handled. -/
@[simp] theorem acceptFrame_running (now : Instant) (s : Session) (v : Value) :
    (s.acceptFrame now v).session.lanes.running = s.lanes.running := by
  obtain ⟨js, h⟩ := acceptFrame_accepts now s v
  exact h.running_eq

end Session

end Switchboard
