import Switchboard.Proofs.Notice.Failure
import Switchboard.Proofs.Session.Standard

/-!
# Why a packet is refused

A packet of a topic is refused because it does not decode, or because an emoji in it has no key
(`Session.take_failure`), and then an integer in its payload is too long to write. So a refusal
always lies in the payload (`Session.acceptTopic_dueTo`), and it is a decode error unless there is
something too long in it.
-/

namespace Switchboard

open Failure (Malformed TooLong DueTo)

namespace Session

variable {s : Session} {now : Instant} {n : Notice} {p : Packet} {f : Failure}

/-- With lanes that are served a notice fails at most because an emoji in it has no key. -/
theorem take_failure (hr : s.lanes.running = true) (h : (s.take now n).2 = some f) :
    f = .tooLongToWrite ∧ ¬ n.Keyed := by
  refine ⟨?_, fun hn => by simp [take_succeeds hr hn] at h⟩
  rw [(take_failed hr h).2] at h
  exact (enter_failed h).1

/-- A failure to handle a packet is logged as what it is: a malformed packet or another failure. -/
theorem logged_of_dueTo {v : Value} (h : f.DueTo p.type v) :
    f.Malformed p.type ∧ failureRecord p f = .packetDropped p.sequence f ∨
      f.TooLong v ∧ failureRecord p f = .packetFailed p.type p.sequence := by
  refine h.imp (fun hmalformed => ⟨hmalformed, ?_⟩) fun hlong => ⟨hlong, ?_⟩
  · cases f with
    | decode e => rfl
    | _ => exact hmalformed.elim
  · cases f with
    | tooManyDigits n => rfl
    | tooLongToWrite => rfl
    | _ => exact hlong.elim

/-- A refusal of a packet of a topic is about the packet and lies in its payload, and nothing but
the failure is logged. -/
theorem acceptTopic_dueTo (hr : s.lanes.running = true) {t : Topic} {r : Refusal}
    (h : (s.acceptTopic now p t).refusal = some r) :
    r.subject = .packet p ∧ r.cause.DueTo p.type (.map p.data) ∧
      (s.acceptTopic now p t).logs = [failureRecord p r.cause] := by
  unfold acceptTopic at h ⊢
  cases hn : Notice.decode p t with
  | error f =>
    rw [hn] at h
    cases h
    exact ⟨rfl, Notice.failsAs_decode p t f hn, rfl⟩
  | ok n =>
    rw [hn] at h
    dsimp only at h ⊢
    cases htake : (s.take now n).2 with
    | none =>
      rw [htake] at h
      cases h
    | some f =>
      rw [htake] at h
      cases h
      -- A notice is keyed if the payload can be written.
      obtain ⟨rfl, hkeyless⟩ := take_failure hr htake
      have hlong : TooLong (.map p.data) .tooLongToWrite :=
        Bool.eq_false_iff.mpr fun hw => hkeyless (Notice.keyed_of_decode hw hn)
      exact ⟨rfl, .inr hlong, rfl⟩

/-- With the standard handlers and lanes that are served, the refusal of a packet of a topic is
about this packet. It is a decode error with its type, and logged as that of a malformed packet,
unless something in the payload is too long to be read or written as a number; then it is logged as
another failure. The typed readers of any packet, of ids and of emojis fail in the same two ways,
and those of texts, objects and arrays in the first one only. -/
theorem acceptPacket_dueTo {b : Bool} (hh : s.handlers = .standard b)
    (hr : s.lanes.running = true) (now : Instant) {t : Topic} (htag : t.tag = p.type) :
    (∀ r, (s.acceptPacket now p).refusal = some r → r.subject = .packet p ∧
      (r.cause.Malformed p.type ∧
          (s.acceptPacket now p).logs = [.packetDropped p.sequence r.cause] ∨
        r.cause.TooLong (.map p.data) ∧
          (s.acceptPacket now p).logs = [.packetFailed p.type p.sequence])) ∧
      (∀ (q : Packet) (name : String), q.Readable name) ∧
      ∀ type, (∀ field v, FailsAs (DueTo type v) (Snowflake.decode type field v)) ∧
        ∀ data, FailsAs (DueTo type (.map data)) (Emoji.decode type data) := by
  refine ⟨fun r hrefused => ?_, fun q name => q.readable name,
    fun type => ⟨Snowflake.failsAs_decode type, Emoji.failsAs_decode type⟩⟩
  -- The type of the packet is that of a topic, whose notice fails to decode or to be taken.
  rw [acceptPacket_standard hh, ← htag, Topic.ofTag?_tag] at hrefused ⊢
  obtain ⟨hsubject, hdue, hlogs⟩ := acceptTopic_dueTo hr hrefused
  rw [htag, hlogs]
  refine ⟨hsubject, (logged_of_dueTo hdue).imp ?_ ?_⟩
  · exact fun ⟨hmalformed, hrecord⟩ => ⟨hmalformed, by rw [hrecord]⟩
  · exact fun ⟨hlong, hrecord⟩ => ⟨hlong, by rw [hrecord]⟩

/-- A truth value in the place of an id is malformed. -/
theorem acceptPacket_dueTo_bool : ∃ (s : Session) (p : Packet) (e : DecodeError),
    s.handlers = .standard false ∧ s.lanes.running = true ∧ p.type = "MESSAGE_DELETE" ∧
      Fields.get p.data "channel_id" = .bool true ∧
      (∃ r, (s.acceptPacket 7 p).refusal = some r ∧ r.cause = .decode e) ∧
      e.packetType = "MESSAGE_DELETE" ∧
      (s.acceptPacket 7 p).logs = [.packetDropped (some 3) (.decode e)] := by
  let s : Session :=
    { settings := [], handlers := .standard false, registry := { files := [], nextId := 1 },
      cache := { capacity := 4 }, lanes := { running := true } }
  let p : Packet :=
    { type := "MESSAGE_DELETE", sequence := some 3
      data := [(.text "id", .text "5"), (.text "channel_id", .bool true)] }
  let e : DecodeError := ⟨"MESSAGE_DELETE", some "channel_id", .notASnowflake "bool"⟩
  -- The packet is refused for its second field.
  have hrefused : (s.acceptPacket 7 p).refusal = some ⟨.decode e, .packet p⟩ := by rfl
  obtain ⟨-, ⟨htype, hlogs⟩ | ⟨hlong, -⟩⟩ :=
    (acceptPacket_dueTo (b := false) rfl rfl 7 (t := .messageDelete) rfl).1 _ hrefused
  · exact ⟨s, p, e, rfl, rfl, rfl, rfl, ⟨_, hrefused, rfl⟩, htype, hlogs⟩
  · -- A decode error says of nothing that it is too long.
    exact hlong.elim

/-- A text of a digit more than is read makes the handling of a packet fail, which is no decode
error and is not logged as that of a malformed packet. -/
theorem acceptPacket_tooManyDigits : ∃ (s : Session) (p : Packet) (r : Refusal),
    s.handlers = .standard false ∧ s.lanes.running = true ∧ p.type = "MESSAGE_DELETE" ∧
      Fields.get p.data "id" = .text (String.ofList (List.replicate 4301 '0')) ∧
      p.snowflake "id" = .error (.tooManyDigits 4301) ∧
      (s.acceptPacket 7 p).refusal = some r ∧ r.cause = .tooManyDigits 4301 ∧
      ¬ r.cause.Malformed p.type ∧
      (s.acceptPacket 7 p).logs = [.packetFailed "MESSAGE_DELETE" none] := by
  let s : Session :=
    { settings := [], handlers := .standard false, registry := { files := [], nextId := 1 },
      cache := { capacity := 4 }, lanes := { running := true } }
  let p : Packet :=
    { type := "MESSAGE_DELETE", sequence := none
      data := [(.text "id", .text (String.ofList (List.replicate 4301 '0'))),
        (.text "channel_id", .text "2")] }
  -- The digits are refused before anything is decoded from them.
  have hrequired : p.required "id" = .ok (.text (String.ofList (List.replicate 4301 '0'))) := rfl
  have hid : p.snowflake "id" = .error (.tooManyDigits 4301) := by
    rw [Packet.snowflake_of_required hrequired]
    exact Snowflake.decode_zeros _ _ (by decide)
  have hn : Notice.decode p .messageDelete = .error (.tooManyDigits 4301) := by
    rw [Notice.decode, hid]
    rfl
  -- So the packet fails before it says anything to the session.
  have haccept : s.acceptPacket 7 p = s.conclude p [] (some (.tooManyDigits 4301)) := by
    rw [acceptPacket_standard (b := false) rfl]
    show s.acceptTopic 7 p .messageDelete = _
    rw [acceptTopic, hn]
  refine ⟨s, p, ⟨.tooManyDigits 4301, .packet p⟩, rfl, rfl, rfl, rfl, hid, ?_, rfl, id, ?_⟩
  · rw [haccept]
    rfl
  · rw [haccept]
    rfl

end Session

end Switchboard
