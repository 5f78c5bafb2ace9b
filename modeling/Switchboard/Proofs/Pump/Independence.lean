import Mathlib.Algebra.Order.BigOperators.Group.List
import Mathlib.Algebra.Order.Group.Nat
import Switchboard.Proofs.Pump.Delivery
import Switchboard.Proofs.Registry.Attached
import Switchboard.Proofs.Session.Independence

/-!
# Workers that have nothing in common

`Serves` runs a session behind a pump: the parties of the pump take their turns in any order, the
session handles the frame of a turn at once, and the drains of its lanes take steps in between. If
frames that go to different workers have nothing in common, the order of the turns does not matter
in the end (`serves_independent`): the session knows the same entities, has the same registrations
and has posted the same jobs for every server as if it had handled the frames in the order of the
source.
-/

namespace Switchboard.Course

open Session (AgreeAt Parted Ready)

variable {now : Instant} {workers room : Nat} {frames : List Value} {s₀ s : Session} {c : Course}
  {log : List (Root × Job)}

/-- A session handles the frames of a pump by a standing clock: the course of the pump, the jobs
that were posted so far, and the session. The jobs are those that the session submits to its lanes
(`Session.acceptFrames_posts`), and the listeners that drains call leave the session alone. -/
inductive Serves (now : Instant) (workers room : Nat) (frames : List Value) (s₀ : Session) :
    Course → List (Root × Job) → Session → Prop
  | start : Serves now workers room frames s₀ (start workers room frames) [] s₀
  /-- A party takes its turn, and the session handles the frame that it has, if any. -/
  | turn {c : Course} {log : List (Root × Job)} {s : Session} {who : Party}
      (h : Serves now workers room frames s₀ c log s) (hw : who ∈ c.awake) :
      Serves now workers room frames s₀ (c.after who)
        (log ++ s.postsAll now (((c.pump.turn who).entries who).map Prod.snd))
        (s.acceptFrames now (((c.pump.turn who).entries who).map Prod.snd))
  /-- A drain takes a step. -/
  | drain {c : Course} {log : List (Root × Job)} {s : Session} {root : Root} {move : Move}
      {lanes : Lanes} (h : Serves now workers room frames s₀ c log s)
      (ha : s.lanes.advance root = some (move, lanes)) :
      Serves now workers room frames s₀ c log { s with lanes }

namespace Serves

/-- The pump goes its course. -/
theorem reachable (h : Serves now workers room frames s₀ c log s) :
    Reachable workers room frames c := by
  induction h with
  | start => exact .start
  | turn _ hw ih => exact ih.turn hw
  | drain _ _ ih => exact ih

/-- Turns that can be taken are taken by the pump of a session. -/
theorem run (h : Serves now workers room frames s₀ c log s) {turns : List Party}
    (ht : c.allows turns = true) :
    ∃ log' s', Serves now workers room frames s₀ (c.run turns) log' s' := by
  induction turns generalizing c log s with
  | nil => exact ⟨log, s, h⟩
  | cons who turns ih =>
    simp only [allows, Bool.and_eq_true, List.contains_iff_mem] at ht
    exact ih (h.turn ht.1) ht.2

end Serves

/-- No more frames are handled than there are. -/
theorem Holds.length_handled_le (hworkers : 0 < workers)
    (hkeys : ∀ v ∈ frames, ∃ key, Shard.keyOf v = .ok key)
    (h : Holds workers room frames c) : c.handled.length ≤ frames.length := by
  -- Each worker has handled some of the frames that go to it.
  have hworker (i : Nat) (hi : i ∈ List.range workers) :
      (handledBy c.handled i).length ≤ (frames.filter (Shard.goesTo workers i)).length := by
    have horder := congrArg List.length (h.order i (List.mem_range.mp hi))
    have htaken := ((List.take_sublist c.pump.received frames).filter
      (Shard.goesTo workers i)).length_le
    rw [List.length_append] at horder
    omega
  -- The frames are those of all workers together.
  calc c.handled.length
      = ((List.range workers).flatMap (handledBy c.handled)).length := by
        rw [(perm_handledBy h.range).length_eq, List.length_map]
    _ = ((List.range workers).map fun i => (handledBy c.handled i).length).sum :=
        List.length_flatMap
    _ ≤ ((List.range workers).map fun i =>
          (frames.filter (Shard.goesTo workers i)).length).sum := List.sum_le_sum hworker
    _ = ((List.range workers).flatMap fun i => frames.filter (Shard.goesTo workers i)).length :=
        List.length_flatMap.symm
    _ = frames.length := (perm_goesTo hworkers hkeys).length_eq

/-- A session behind a pump is like one that handles the same frames in the order in which they were
handled; what its drains do makes no difference. -/
theorem Serves.served (hworkers : 0 < workers)
    (hkeys : ∀ v ∈ frames, ∃ key, Shard.keyOf v = .ok key) (hs : s₀.Ready frames.length)
    (h : Serves now workers room frames s₀ c log s) :
    s.Ready (frames.length - c.handled.length) ∧
      (∀ x, AgreeAt s (s₀.acceptFrames now (c.handled.map Prod.snd)) x) ∧
      log = s₀.postsAll now (c.handled.map Prod.snd) ∧
      ∃ scopes, s.registry = s₀.registry.dropScopes scopes := by
  induction h with
  | start => exact ⟨hs, .refl s₀, rfl, [], rfl⟩
  | @turn c log s who h hw ih =>
    obtain ⟨hready, hagree, hlog, scopes, hregistry⟩ := ih
    have hle := ((h.reachable.turn hw).holds hworkers hkeys).length_handled_le hworkers hkeys
    have hhandled : (c.after who).handled.map Prod.snd =
        c.handled.map Prod.snd ++ ((c.pump.turn who).entries who).map Prod.snd := List.map_append
    generalize ((c.pump.turn who).entries who).map Prod.snd = vs at hhandled ⊢
    have hlength := congrArg List.length hhandled
    simp only [List.length_append, List.length_map] at hlength
    -- There is room for the frame of this turn and for those that come after it.
    have hroom : s.Ready (frames.length - (c.after who).handled.length + vs.length) :=
      hready.mono (by omega)
    have hroom₀ : (s₀.acceptFrames now (c.handled.map Prod.snd)).Ready (0 + vs.length) :=
      Ready.acceptFrames (hs.mono (by rw [List.length_map]; omega))
    obtain ⟨hposts, hstate⟩ := Session.acceptFrames_agree now hroom hroom₀ hagree
    obtain ⟨scopes', hdropped⟩ := Session.acceptFrames_registry now hready.filed vs
    refine ⟨hroom.acceptFrames, ?_, ?_, scopes ++ scopes', ?_⟩
    · rw [hhandled, Session.acceptFrames_append]
      exact hstate
    · rw [hhandled, Session.postsAll_append, hlog, ← hposts]
    · rw [hdropped, hregistry, Registry.dropScopes_append]
  | @drain c log s root move lanes h ha ih =>
    obtain ⟨hready, hagree, hlog, hregistry⟩ := ih
    refine ⟨⟨hready.filed, (Lanes.running_advance ha).trans hready.running, hready.handlers,
      hready.room⟩, fun x => ?_, hlog, hregistry⟩
    exact ⟨(hagree x).server, (hagree x).channel, (hagree x).message, (hagree x).files⟩

/-- What the frames that go to a worker have to do with. -/
def territory (workers : Nat) (frames : List Value) (s : Session) (i : Nat) : Set Scope :=
  {x | ∃ v ∈ frames, Shard.workerOf workers v = .ok i ∧ x ∈ s.footprint v}

/-- Every worker has a territory of its own if frames that go to different workers have nothing in
common. -/
theorem parted_territory (hapart : ∀ v ∈ frames, ∀ w ∈ frames,
      Shard.workerOf workers v ≠ Shard.workerOf workers w → ∀ x ∈ s.footprint v, x ∉ s.footprint w)
    {es : List (Nat × Value)}
    (hes : ∀ e ∈ es, e.2 ∈ frames ∧ Shard.workerOf workers e.2 = .ok e.1) :
    s.Parted (territory workers frames s) es where
  apart := by
    -- Two workers meet only if frames that go to different ones do.
    rintro i j x ⟨v, hv, hi, hx⟩ ⟨w, hw, hj, hx'⟩
    by_contra hij
    have hne : Shard.workerOf workers v ≠ Shard.workerOf workers w := fun he =>
      hij (Except.ok.inj (hi.symm.trans (he.trans hj)))
    exact hapart v hv w hw hne x hx hx'
  entities := by
    rintro i x ⟨v, -, -, n, -, ht⟩
    exact ht.isEntity
  within e he x hx := ⟨e.2, (hes e he).1, (hes e he).2, hx⟩

/-- When the reader is done every worker has handled what would be its share if the frames were
handled in the order of the source. -/
theorem Holds.handledBy_eq_routed (hworkers : 0 < workers) {es : List (Nat × Value)}
    (hes : ∀ e ∈ es, Shard.workerOf workers e.2 = .ok e.1)
    (h : Holds workers room (es.map Prod.snd) c) (hend : c.pump.reader = .finished) (i : Nat) :
    handledBy c.handled i = handledBy es i := by
  rw [handledBy_routed hes]
  by_cases hi : i < workers
  · exact h.handledBy_eq hend hi
  · -- No frame goes to a worker whose number is too high.
    have hnone (vs : List Value) : vs.filter (Shard.goesTo workers i) = [] :=
      List.filter_eq_nil_iff.mpr fun v _ hgoes =>
        hi (Shard.workerOf_lt hworkers (Shard.goesTo_iff.mp hgoes))
    rw [handledBy_routed (fun e he => (h.routed e he).2), hnone, hnone]

/-- A session handles the frames of a pump by a standing clock, with room for a message of each, and
frames that go to different workers have disjoint footprints. Then at the end, in whatever order the
parties took their turns and the drains their steps, it knows the same servers, channels and
messages, has the same registrations, and has posted for every server the same events to the same
listeners in the same order as if it had handled the frames one after another in the order of the
source. -/
theorem serves_independent (hworkers : 0 < workers)
    (hkeys : ∀ v ∈ frames, ∃ key, Shard.keyOf v = .ok key) (hs : s₀.Ready frames.length)
    (hapart : ∀ v ∈ frames, ∀ w ∈ frames, Shard.workerOf workers v ≠ Shard.workerOf workers w →
      ∀ x ∈ s₀.footprint v, x ∉ s₀.footprint w)
    (h : Serves now workers room frames s₀ c log s) (hend : c.pump.reader = .finished) :
    (∀ id, s.cache.server? id = (s₀.acceptFrames now frames).cache.server? id) ∧
      (∀ id, s.cache.channel? id = (s₀.acceptFrames now frames).cache.channel? id) ∧
      (∀ id, s.cache.message? id = (s₀.acceptFrames now frames).cache.message? id) ∧
      s.registry = (s₀.acceptFrames now frames).registry ∧
      ∀ g, log.filter (·.1 == some g) = (s₀.postsAll now frames).filter (·.1 == some g) := by
  have hholds := h.reachable.holds hworkers hkeys
  obtain ⟨-, hserved, rfl, scopes, hregistry⟩ := h.served hworkers hkeys hs
  obtain ⟨es, rfl, hes⟩ := exists_routed workers hkeys
  have hsame := hholds.handledBy_eq_routed hworkers (fun e he => (hes e he).2) hend
  have hle := hholds.length_handled_le hworkers hkeys
  rw [List.length_map] at hs hle
  obtain ⟨hstate, hposts⟩ := (parted_territory hapart hholds.routed).mixed now
    (parted_territory hapart hes) hsame (hs.mono hle) hs
  have hall (x : Scope) : AgreeAt s (s₀.acceptFrames now (es.map Prod.snd)) x :=
    (hserved x).trans (hstate x)
  -- Both sessions have lost registrations only by scopes, so what is found tells them apart.
  obtain ⟨scopes', hregistry'⟩ := Session.acceptFrames_registry now hs.filed (es.map Prod.snd)
  refine ⟨fun id => (hall (.server id)).server id rfl,
    fun id => (hall (.channel id)).channel id rfl,
    fun id => (hall (.message id)).message id rfl, ?_, hposts⟩
  rw [hregistry, hregistry']
  refine Registry.dropScopes_ext fun x kind => ?_
  rw [← hregistry, ← hregistry']
  exact (hall x).files kind

/-- Two messages for two servers, whose workers have no buffers: the first message has to wait for
its worker, and the second one is posted before it. -/
theorem serves_independent_crossed : ∃ (s₀ s : Session) (frames : List Value) (c : Course)
    (log : List (Root × Job)),
    s₀.Ready frames.length ∧ Serves 7 2 0 frames s₀ c log s ∧ c.pump.reader = .finished ∧
      log.map Prod.fst = [some 4, some 1] ∧
      (s₀.postsAll 7 frames).map Prod.fst = [some 1, some 4] ∧
      s.cache.message? 10 = (s₀.acceptFrames 7 frames).cache.message? 10 ∧
      s.registry = (s₀.acceptFrames 7 frames).registry ∧
      ∀ g, log.filter (·.1 == some g) = (s₀.postsAll 7 frames).filter (·.1 == some g) := by
  let server (id channel : Int) : Value := .map [(.text "t", .text "GUILD_CREATE"), (.text "d", .map
    [(.text "id", .int id), (.text "channels", .list [.map [(.text "id", .int channel)]])])]
  let message (id channel : Int) (server : String) : Value := .map
    [(.text "t", .text "MESSAGE_CREATE"), (.text "d", .map
      [(.text "guild_id", .text server), (.text "channel_id", .int channel),
        (.text "id", .int id), (.text "author", .map [(.text "id", .int 9)])])]
  let new : Session :=
    { settings := Settings.defaults, cache := { capacity := 1000 }, handlers := .standard false }
  let s₁ : Session := ((new.start.acceptFrame 3 (server 1 2)).session.acceptFrame 3
    (server 4 5)).session
  let s₀ : Session := { s₁ with registry := (s₁.registry.attach .global .messageCreate "all").2 }
  let frames : List Value := [message 10 2 "1", message 11 5 "4"]
  let turns : List Party :=
    [.reader, .worker 0, .worker 1, .reader, .worker 0, .worker 1, .reader, .worker 0, .worker 0,
      .worker 1, .worker 1, .reader]
  have hreach : s₀.Reachable := by
    have hnew : new.Reachable := ⟨.null, none, new, rfl, .refl⟩
    exact (((hnew.change (.start new)).change (.frame 3 _ (server 1 2))).change
      (.frame 3 _ (server 4 5))).change (.attach s₁ .global .messageCreate "all")
  have hready : s₀.Ready frames.length :=
    hreach.ready (b := false) (by decide +kernel) rfl (by decide +kernel)
  have hkeys : ∀ v ∈ frames, ∃ key, Shard.keyOf v = .ok key := by
    intro v hv
    rcases List.mem_pair.mp hv with rfl | rfl
    · exact ⟨some "1", by cbv⟩
    · exact ⟨some "4", by cbv⟩
  -- The footprint of a message is that message, its channel and the server of the channel.
  have hprint {v : Value} {c m g : Snowflake} {author : User} {content : String}
      (hv : Notice.ofFrame? v = some (.messageCreate c m author content []))
      (hown : s₀.owner? c = some g) : s₀.footprint v ⊆ {.channel c, .message m, .server g} := by
    rintro x ⟨n, hn, ht⟩
    cases hv.symm.trans hn
    cases ht with
    | named h =>
      rcases List.mem_pair.mp h with rfl | rfl
      · exact .inl rfl
      · exact .inr (.inl rfl)
    | @owner c' g' h hown' =>
      obtain rfl : c' = c := by simpa [Notice.names] using h
      cases hown.symm.trans hown'
      exact .inr (.inr rfl)
    | channel h => simp [Notice.names] at h
    | message h hm => cases hm
    | below h => simp [Notice.names] at h
  have hapart : ∀ x ∈ s₀.footprint (message 10 2 "1"), x ∉ s₀.footprint (message 11 5 "4") := by
    have hfirst : Notice.ofFrame? (message 10 2 "1") =
        some (.messageCreate 2 10 ⟨9, "", false⟩ "" []) := by decide +kernel
    have hsecond : Notice.ofFrame? (message 11 5 "4") =
        some (.messageCreate 5 11 ⟨9, "", false⟩ "" []) := by decide +kernel
    have hleft := hprint (g := 1) hfirst (by decide +kernel)
    have hright := hprint (g := 4) hsecond (by decide +kernel)
    intro x hx hx'
    rcases hleft hx with rfl | rfl | rfl <;> rcases hright hx' with h | h | h <;> cases h
  have hturns : (start 2 0 frames).allows turns = true := by decide +kernel
  have hstart : Serves 7 2 0 frames s₀ (start 2 0 frames) [] s₀ := .start
  obtain ⟨log, s, hserves⟩ := hstart.run hturns
  have hend : ((start 2 0 frames).run turns).pump.reader = .finished := by cbv
  obtain ⟨-, -, hlog, -⟩ := hserves.served (by decide) hkeys hready
  obtain ⟨-, -, hmessages, hregistry, hposts⟩ := serves_independent (by decide) hkeys hready
    (fun v hv w hw hne => by
      rcases List.mem_pair.mp hv with rfl | rfl <;> rcases List.mem_pair.mp hw with rfl | rfl
      · exact absurd rfl hne
      · exact hapart
      · exact fun x hx hx' => hapart x hx' hx
      · exact absurd rfl hne) hserves hend
  refine ⟨s₀, s, frames, _, log, hready, hserves, hend, ?_, by decide +kernel, hmessages 10,
    hregistry, hposts⟩
  rw [hlog]
  decide +kernel

end Switchboard.Course
