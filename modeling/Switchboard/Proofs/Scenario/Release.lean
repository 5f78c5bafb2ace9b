import Switchboard.Proofs.Scenario.Quiet
import Switchboard.Proofs.Session.Filed
import Switchboard.Proofs.Session.Release
import Switchboard.Scenario

/-!
# Listeners live as long as their entities

A step that takes in a frame or sweeps drops the registrations of exactly the entities that leave
the cache (`perform_release`), whatever makes them leave: a deletion, the deletion of their channel
or their server, a message that needs their room, or their age.
-/

namespace Switchboard.Scenario.Machine

/-- After a frame or a sweep nothing is left at the scope of an entity that has left the cache,
registrations are lost only at scopes of entities that are not cached, and those at the global scope
and at the scopes of users stay as they are. -/
theorem perform_release {m : Machine} (hr : m.session.Reachable) (hq : m.Quiet) {step : Step}
    (hstep : (∃ v, step = .frame v) ∨ ∃ maxAge now, step = .sweep maxAge now) :
    (∀ scope : Scope, scope.Stands m.session.cache →
      ¬ scope.Stands (m.perform step).1.session.cache →
        (m.perform step).1.session.registry.registrationsAt scope = []) ∧
    (∀ (scope : Scope) (reg : Registration), reg ∈ m.session.registry.registrationsAt scope →
      reg ∉ (m.perform step).1.session.registry.registrationsAt scope →
        ¬ scope.Stands (m.perform step).1.session.cache) ∧
    ∀ scope : Scope, (scope = .global ∨ ∃ id, scope = .user id) →
      (m.perform step).1.session.registry.registrationsAt scope =
        m.session.registry.registrationsAt scope := by
  -- The frame or the sweep drops the scopes of what leaves the cache.
  have hreleases : ∃ scopes, Session.Releases m.session (m.perform step).1.session scopes := by
    rcases hstep with ⟨v, rfl⟩ | ⟨maxAge, now, rfl⟩
    · rw [perform_frame_session hq]
      exact Session.releases_acceptFrame _ _ hr.filed v
    · -- A sweep that is refused drops nothing.
      rcases perform_sweep_session m maxAge now with h | ⟨a, n, s', -, hs, h⟩
      · rw [h]
        exact ⟨[], .of_same rfl rfl⟩
      · rw [h]
        exact Session.releases_sweep hr.filed hs
  obtain ⟨scopes, h⟩ := hreleases
  refine ⟨fun scope hs hn => h.registrationsAt_fallen hs hn, fun scope reg hreg hlost hs => ?_,
    fun scope hscope => ?_⟩
  · -- Scopes that stand keep their registrations.
    rw [h.registrationsAt_standing hs] at hlost
    exact hlost hreg
  · -- The global scope and those of users stand in every cache.
    refine h.registrationsAt_standing ?_
    rcases hscope with rfl | ⟨id, rfl⟩
    · exact trivial
    · exact trivial

/-- A message with a listener is deleted by a frame: its registration goes with it. -/
theorem perform_release_deleted : ∃ (m : Machine) (v : Value),
    m.session.registry.registrationsAt (.message 5) ≠ [] ∧
      (Scope.message 5).Stands m.session.cache ∧
      ¬ (Scope.message 5).Stands (m.perform (.frame v)).1.session.cache ∧
      (m.perform (.frame v)).1.session.registry.registrationsAt (.message 5) = [] := by
  -- The session is reached by calls anybody can make: a channel, a message in it, a listener.
  let s₀ : Session :=
    { settings := Settings.defaults, cache := { capacity := 1000 }, handlers := .standard false }
  let s₁ : Session := { s₀.start with cache := s₀.cache.keepChannel ⟨1, "lobby", none⟩ }
  let s₂ : Session := { s₁ with cache := (s₁.cache.keepMessage { id := 5, channel := 1 }).2 }
  let s₃ : Session :=
    { s₂ with registry := (s₂.registry.attach (.message 5) .reactionAdd "listener").2 }
  have hcreate : Session.create .null none = .ok s₀ := rfl
  have hchannel : Session.Reaches s₀ s₁ := .tail (.single (.start s₀)) (.keepChannel s₀.start _)
  have hmessage : Session.Reaches s₀ s₂ := .tail hchannel (.keepMessage s₁ _)
  have hlistener : Session.Reaches s₀ s₃ := .tail hmessage (.attach s₂ _ _ _)
  have hr : s₃.Reachable := ⟨_, _, s₀, hcreate, hlistener⟩
  let v : Value := .map [(.text "t", .text "MESSAGE_DELETE"),
    (.text "d", .map [(.text "id", .int 5), (.text "channel_id", .int 1)])]
  -- The message is there before, and is not after.
  have hstands : (Scope.message 5).Stands s₃.cache := by
    show (s₃.cache.message? 5).isSome = true
    decide
  have hfallen : ¬ (Scope.message 5).Stands ((still s₃).perform (.frame v)).1.session.cache := by
    show ¬ (((still s₃).perform (.frame v)).1.session.cache.message? 5).isSome = true
    decide
  have hq : (still s₃).Quiet := fun o ho => by cases ho
  have hrelease := (perform_release (m := still s₃) hr hq (.inl ⟨v, rfl⟩)).1
  exact ⟨still s₃, v, by decide, hstands, hfallen, hrelease (.message 5) hstands hfallen⟩

end Switchboard.Scenario.Machine
