import Switchboard.Proofs.Scenario.Effect
import Switchboard.Proofs.Scenario.Quiet
import Switchboard.Proofs.Session.Redelivery
import Switchboard.Scenario

/-!
# Redelivery is harmless

A frame that a machine is given a second time, at the same instant, has the same answer again and
leaves everything that the session knows as the first one did (`perform_frame_twice`). The error
observers, who are told a second time of what is refused, have to leave the session alone, and so
have those whom they add: such a machine is `Calm`, and stays so.
-/

namespace Switchboard.Scenario.Machine

/-- All observers leave the session alone, and so do those that they add. -/
abbrev Calm (m : Machine) : Prop := m.Only (!·.touches)

/-- A step that leaves the session alone puts no message into the cache. -/
theorem putsMessage_of_not_touches {s : Step} (h : (!s.touches) = true) :
    s.putsMessage = false := by
  cases s with
  | put i => cases h
  | _ => rfl

/-- Calm observers are quiet. -/
theorem Calm.quiet {m : Machine} (h : m.Calm) : m.Quiet := by
  intro o ho
  cases o with
  | logging => rfl
  | scripted name fails steps =>
    refine List.all_eq_true.mpr fun s hs => ?_
    exact (Step.allOnly_iff.mp (h _ ho) s hs).1

/-- With calm observers, lanes that are served and the standard handlers, a frame that is given
twice at one instant leaves the cache, the registrations and the connected user as one does, and is
answered as it was the first time. -/
theorem perform_frame_twice {m : Machine} (hreach : m.session.Reachable)
    (hr : m.session.lanes.running = true) {b : Bool} (hh : m.session.handlers = .standard b)
    (hc : m.Calm) (v : Value) :
    let once := m.perform (.frame v)
    let twice := once.1.perform (.frame v)
    twice.1.session.cache = once.1.session.cache ∧
      twice.1.session.registry = once.1.session.registry ∧
      twice.1.session.self = once.1.session.self ∧ twice.2 = once.2 := by
  intro once twice
  -- The observers are calm, so each frame does to the session what it does without them.
  have hgoes : Onward (!·.touches) m once.1 :=
    (effects_perform (fun _ => putsMessage_of_not_touches) hc (s := .frame v) rfl rfl).onward
  have honce : once.1.session = (m.session.acceptFrame m.clock v).session :=
    perform_frame_session hc.quiet v
  have htwice : twice.1.session = (once.1.session.acceptFrame once.1.clock v).session :=
    perform_frame_session (Calm.quiet (hgoes.only hc)) v
  -- The second time the session finds everything as it would leave it.
  obtain ⟨lanes, hsession, hrefusal⟩ := Session.acceptFrame_twice hreach.filed hr hh m.clock v
  rw [hgoes.clock, honce, hsession] at htwice
  have hanswer : twice.2 = .flag (once.1.session.acceptFrame once.1.clock v).accepted := rfl
  refine ⟨?_, ?_, ?_, ?_⟩
  · rw [htwice, honce]
  · rw [htwice, honce]
  · rw [htwice, honce]
  · -- The answer is that of the first time, at the same instant.
    rw [hanswer, hgoes.clock, honce, Handled.accepted, hrefusal]
    rfl

/-- A message with a reaction comes twice, and there is room for one message only. The one before it
goes with its registration, and the second time nothing goes. -/
theorem perform_frame_twice_message : ∃ (m : Machine) (v : Value),
    m.session.registry.registrationsAt (.message 5) ≠ [] ∧
      Table.keys m.session.cache.messages = [5] ∧
      let once := m.perform (.frame v)
      let twice := once.1.perform (.frame v)
      once.1.session.registry.registrationsAt (.message 5) = [] ∧
      Table.keys once.1.session.cache.messages = [6] ∧
      twice.1.session.cache = once.1.session.cache ∧
      twice.1.session.registry = once.1.session.registry ∧ twice.2 = .flag true := by
  -- The session is reached by calls anybody can make: a channel, room for one message, the message,
  -- a listener.
  let s₀ : Session :=
    { settings := Settings.defaults, cache := { capacity := 1000 }, handlers := .standard false }
  let s₁ : Session := { s₀.start with cache := s₀.cache.keepChannel ⟨1, "lobby", none⟩ }
  let s₂ : Session := { s₁ with cache := { s₁.cache with capacity := 1 } }
  let s₃ : Session := { s₂ with cache := (s₂.cache.keepMessage { id := 5, channel := 1 }).2 }
  let s₄ : Session :=
    { s₃ with registry := (s₃.registry.attach (.message 5) .reactionAdd "listener").2 }
  have hcreate : Session.create .null none = .ok s₀ := rfl
  have hchannel : Session.Reaches s₀ s₁ := .tail (.single (.start s₀)) (.keepChannel s₀.start _)
  have hcapacity : Session.Reaches s₀ s₂ := .tail hchannel (.capacity s₁ 1)
  have hmessage : Session.Reaches s₀ s₃ := .tail hcapacity (.keepMessage s₂ _)
  have hlistener : Session.Reaches s₀ s₄ := .tail hmessage (.attach s₃ _ _ _)
  have hreach : s₄.Reachable := ⟨_, _, s₀, hcreate, hlistener⟩
  -- A message that takes the place of the one that is cached.
  let v : Value := .map [(.text "t", .text "MESSAGE_CREATE"), (.text "d", .map
    [(.text "id", .int 6), (.text "channel_id", .int 1),
      (.text "author", .map [(.text "id", .int 9)]),
      (.text "reactions", .list [.map [(.text "emoji", .map [(.text "id", .int 3)]),
        (.text "user_ids", .list [.int 7, .int 7])]])])]
  have hcalm : (still s₄).Calm := fun o ho => by cases ho
  obtain ⟨hcache, hregistry, -, hanswer⟩ :=
    perform_frame_twice (m := still s₄) hreach rfl rfl hcalm v
  exact ⟨still s₄, v, by decide, by decide, by decide +kernel, by decide +kernel, hcache, hregistry,
    hanswer.trans (congrArg Answer.flag (by decide +kernel))⟩

end Switchboard.Scenario.Machine
