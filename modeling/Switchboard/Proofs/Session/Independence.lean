import Switchboard.Proofs.Pump.Path
import Switchboard.Proofs.Session.Agreement

/-!
# Frames that have nothing in common

`Session.acceptFrames` handles frames one after another, and `Session.postsAll` are the jobs that
they post. Frames are `Parted` among parties when every party has a territory of its own for the
footprints of its frames. Then a session that handles the frames of all parties, in any order, is
within the reach of one party the same as a session that handles only the frames of this party
(`Parted.alone`), so it does not matter how the frames of different parties are mixed
(`Parted.mixed`).
-/

namespace Switchboard.Session

variable {s s' : Session} {now : Instant} {v : Value} {vs : List Value}

/-! ## Room for frames -/

/-- A session with the standard handlers is ready for a number of frames: its lanes are served, and
it has room for a message of each. -/
structure Ready (s : Session) (k : Nat) : Prop where
  filed : s.cache.Filed
  running : s.lanes.running = true
  handlers : ∃ b, s.handlers = .standard b
  room : (s.cache.messages.length : Int) + k ≤ s.cache.capacity

/-- What a frame leaves of the messages is at most one more, and the room for them is the same. -/
theorem messages_take (now : Instant) (s : Session) (n : Notice) :
    (s.take now n).1.cache.messages.length ≤ s.cache.messages.length + 1 ∧
      (s.take now n).1.cache.capacity = s.cache.capacity := by
  -- A call on the reactions changes a message in its place.
  have hcall (m : Snowflake) (call : ReactionCall) :
      (s.applyCall m call).1.cache.messages.length ≤ s.cache.messages.length + 1 ∧
        (s.applyCall m call).1.cache.capacity = s.cache.capacity := by
    rcases s.applyCall_cases m call with h | ⟨_, m', _, -, -, h⟩
    · rw [h]
      exact ⟨Nat.le_succ _, rfl⟩
    · rw [h]
      exact ⟨Table.length_put_le _ _ _, rfl⟩
  refine take_keeps (P := fun s' => s'.cache.messages.length ≤ s.cache.messages.length + 1 ∧
    s'.cache.capacity = s.cache.capacity) now s n (fun _ _ h => h) (fun _ => ?_) (fun s' h => ?_)
    ⟨Nat.le_succ _, rfl⟩
  · -- Only a new message makes the messages more, and by one.
    cases n with
    | reactionAdd _ m | reactionRemove _ m | reactionRemoveAll _ m | reactionRemoveEmoji _ m =>
      exact hcall m _
    | messageCreate c m author content reactions =>
      simp only [enter, receive]
      split
      · exact ⟨Nat.le_succ _, rfl⟩
      · rename_i answer msg _
        rcases (s.cache.keepUser author).keepMessage_cases msg with ⟨-, hk⟩ | ⟨k, -, -, hk⟩
        · rw [hk]
          exact ⟨Nat.le_succ _, rfl⟩
        · rw [hk]
          refine ⟨?_, rfl⟩
          simp only [releaseMessages, List.length_drop]
          exact (Nat.sub_le _ _).trans (Table.length_putLast_le _ _ _)
    | ready user channels => simp [enter, Cache.keepUser]
    | serverCreate g channels => simp [enter, Cache.keepServer]
    | channelCreate | messageDelete | channelDelete | serverDelete => exact ⟨Nat.le_succ _, rfl⟩
  · -- What leaves makes the messages fewer.
    cases n with
    | messageDelete c m => exact ⟨(List.length_filter_le _ _).trans h.1, h.2⟩
    | channelDelete c =>
      simp only [leave, releaseChannels_cache]
      exact ⟨(List.length_filter_le _ _).trans h.1, h.2⟩
    | serverDelete g unavailable =>
      simp only [leave, releaseChannels_cache, Cache.dropServer, Cache.dropChannels_messages,
        Cache.dropChannels_capacity]
      exact ⟨(List.length_filter_le _ _).trans h.1, h.2⟩
    | _ => exact h

/-- A session that can come about is ready if its lanes are served and it has the room. -/
theorem Reachable.ready {k : Nat} {b : Bool} (h : s.Reachable) (hr : s.lanes.running = true)
    (hh : s.handlers = .standard b)
    (hroom : (s.cache.messages.length : Int) + k ≤ s.cache.capacity) : s.Ready k :=
  ⟨h.filed, hr, ⟨b, hh⟩, hroom⟩

namespace Ready

variable {k : Nat}

/-- A session that is ready for a frame has room for what it brings. -/
theorem roomFor (h : s.Ready (k + 1)) (n : Notice) : s.cache.RoomFor n := by
  have hroom := h.room
  cases n with
  | messageCreate =>
    show (s.cache.messages.length : Int) + 1 ≤ s.cache.capacity
    omega
  | _ => trivial

/-- A session that is ready for some frames is ready for fewer. -/
theorem mono {k' : Nat} (h : s.Ready k) (hk : k' ≤ k) : s.Ready k' where
  filed := h.filed
  running := h.running
  handlers := h.handlers
  room := by
    have hroom := h.room
    omega

/-- A session that handles a frame is ready for one less. -/
theorem acceptFrame (h : s.Ready (k + 1)) (now : Instant) (v : Value) :
    (s.acceptFrame now v).session.Ready k where
  filed := filed_acceptFrame now h.filed v
  running := by rw [acceptFrame_running, h.running]
  handlers := by
    obtain ⟨b, hh⟩ := h.handlers
    exact ⟨b, by rw [acceptFrame_handlers, hh]⟩
  room := by
    obtain ⟨b, hh⟩ := h.handlers
    have hroom := h.room
    rw [acceptFrame_standard hh]
    -- A frame without a notice does nothing, and another one brings one message at most.
    cases Notice.ofFrame? v with
    | none =>
      dsimp only
      omega
    | some n =>
      obtain ⟨hlength, hcapacity⟩ := messages_take now s n
      dsimp only
      omega

end Ready

/-! ## One frame -/

/-- A frame changes nothing outside its footprint. -/
theorem agreeAt_acceptFrame {k : Nat} (h : s.Ready (k + 1)) {x : Scope}
    (hx : x ∉ s.footprint v) : AgreeAt (s.acceptFrame now v).session s x := by
  obtain ⟨b, hh⟩ := h.handlers
  rw [acceptFrame_standard hh]
  cases hn : Notice.ofFrame? v with
  | none => exact .refl s x
  | some n => exact agreeAt_take h.filed h.running (h.roomFor n) fun ht => hx ⟨n, hn, ht⟩

/-- What is in the footprint of a second frame after a first one was in it before; or else it is in
that of the first one too, and the two had something in common. -/
theorem footprint_acceptFrame {k : Nat} (h : s.Ready (k + 1)) {w : Value} {x : Scope}
    (hx : x ∈ (s.acceptFrame now v).session.footprint w) :
    x ∈ s.footprint w ∨ x ∈ s.footprint v ∧ ∃ y, y ∈ s.footprint v ∧ y ∈ s.footprint w := by
  -- Only a notice that the second frame carries, too, can touch anything.
  obtain ⟨b, hh⟩ := h.handlers
  rw [acceptFrame_standard hh] at hx
  cases hn : Notice.ofFrame? v with
  | none =>
    rw [hn] at hx
    exact .inl hx
  | some n =>
    rw [hn] at hx
    obtain ⟨n', hn', ht⟩ := hx
    refine (touches_take h.filed h.running (h.roomFor n) ht).imp (fun ht => ⟨n', hn', ht⟩) ?_
    rintro ⟨hx, y, hy, hy'⟩
    exact ⟨⟨n, hn, hx⟩, y, ⟨n, hn, hy⟩, n', hn', hy'⟩

/-- The server for whose lane a frame posts a job is in its footprint. -/
theorem footprint_of_mem_posts {g : Snowflake} {job : Job} (h : (some g, job) ∈ s.posts now v) :
    Scope.server g ∈ s.footprint v := by
  obtain ⟨n, e, hn, -, he, hroot, -⟩ := mem_posts h
  exact ⟨n, hn, touches_server he hroot.symm⟩

/-- Sessions that agree on a region that covers the footprint of a frame in both, and all that is no
entity, post the same for the frame, and agree on the region afterwards. -/
theorem acceptFrame_agree {k k' : Nat} {R : Set Scope} (now : Instant) (h : s.Ready (k + 1))
    (h' : s'.Ready (k' + 1)) (ha : ∀ x ∈ R, AgreeAt s s' x) (hin : s.footprint v ⊆ R)
    (hin' : s'.footprint v ⊆ R) (hrest : ∀ x : Scope, x.isEntity = false → x ∈ R) :
    s.posts now v = s'.posts now v ∧
      ∀ x ∈ R, AgreeAt (s.acceptFrame now v).session (s'.acceptFrame now v).session x := by
  obtain ⟨b, hh⟩ := h.handlers
  obtain ⟨b', hh'⟩ := h'.handlers
  rw [acceptFrame_standard hh, acceptFrame_standard hh', posts, posts]
  cases hn : Notice.ofFrame? v with
  | none => exact ⟨rfl, ha⟩
  | some n =>
    -- The two sessions have in common all that the notice touches in either.
    have hcommon : CommonGround s s' n R :=
      ⟨ha, fun x ht => hin ⟨n, hn, ht⟩, fun x ht => hin' ⟨n, hn, ht⟩, hrest⟩
    refine ⟨?_, fun x hx => hcommon.take h.filed h'.filed h.running h'.running (h.roomFor n)
      (h'.roomFor n) hx⟩
    -- It is heeded in both or in neither, and has the same event and the same listeners.
    dsimp only
    rw [hcommon.heeds, ← hcommon.event?]
    cases he : s.event? n with
    | none => rfl
    | some e => simp only [Option.toList_some, List.map_singleton, hcommon.listeners he]

/-! ## Frames one after another -/

/-- The session after frames that it handles one after another. -/
def acceptFrames (now : Instant) (s : Session) (vs : List Value) : Session :=
  vs.foldl (fun s v => (s.acceptFrame now v).session) s

/-- The jobs that frames post that are handled one after another. -/
def postsAll (now : Instant) (s : Session) : List Value → List (Root × Job)
  | [] => []
  | v :: vs => s.posts now v ++ postsAll now (s.acceptFrame now v).session vs

/-- More frames are handled after the first ones. -/
theorem acceptFrames_append (now : Instant) (s : Session) (vs ws : List Value) :
    s.acceptFrames now (vs ++ ws) = (s.acceptFrames now vs).acceptFrames now ws :=
  List.foldl_append

/-- The jobs of more frames come after those of the first ones. -/
theorem postsAll_append (now : Instant) (s : Session) (vs ws : List Value) :
    s.postsAll now (vs ++ ws) = s.postsAll now vs ++ (s.acceptFrames now vs).postsAll now ws := by
  induction vs generalizing s with
  | nil => rfl
  | cons v vs ih =>
    rw [List.cons_append, postsAll, postsAll, ih, List.append_assoc]
    rfl

/-- The frames submit these jobs, and no others. -/
theorem acceptFrames_posts {k : Nat} (now : Instant) (h : s.Ready (k + vs.length)) :
    s.lanes.Accepts (s.postsAll now vs) (s.acceptFrames now vs).lanes := by
  induction vs generalizing s with
  | nil => exact .nil _
  | cons v vs ih =>
    obtain ⟨b, hh⟩ := h.handlers
    exact (acceptFrame_posts now hh h.running v).append (ih (h.acceptFrame now v))

/-- A session that handles frames is ready for as many less. -/
theorem Ready.acceptFrames {k : Nat} (h : s.Ready (k + vs.length)) :
    (s.acceptFrames now vs).Ready k := by
  induction vs generalizing s with
  | nil => exact h
  | cons v vs ih => exact ih (h.acceptFrame now v)

/-- Sessions that agree on everything post the same for all frames, and agree afterwards. -/
theorem acceptFrames_agree {k k' : Nat} (now : Instant) (h : s.Ready (k + vs.length))
    (h' : s'.Ready (k' + vs.length)) (ha : ∀ x, AgreeAt s s' x) :
    s.postsAll now vs = s'.postsAll now vs ∧
      ∀ x, AgreeAt (s.acceptFrames now vs) (s'.acceptFrames now vs) x := by
  induction vs generalizing s s' with
  | nil => exact ⟨rfl, ha⟩
  | cons v vs ih =>
    obtain ⟨hposts, hagree⟩ := acceptFrame_agree (v := v) (R := Set.univ) now h h'
      (fun x _ => ha x) (Set.subset_univ _) (Set.subset_univ _) (fun x _ => Set.mem_univ x)
    obtain ⟨hrest, hlast⟩ := ih (h.acceptFrame now v) (h'.acceptFrame now v)
      (fun x => hagree x (Set.mem_univ x))
    exact ⟨by rw [postsAll, postsAll, hposts, hrest], hlast⟩

/-- Frames take registrations only by dropping scopes. -/
theorem acceptFrames_registry (now : Instant) (hf : s.cache.Filed) (vs : List Value) :
    ∃ scopes, (s.acceptFrames now vs).registry = s.registry.dropScopes scopes := by
  induction vs generalizing s with
  | nil => exact ⟨[], rfl⟩
  | cons v vs ih =>
    obtain ⟨scopes, h⟩ := releases_acceptFrame now s hf v
    obtain ⟨scopes', h'⟩ := ih (filed_acceptFrame now hf v)
    refine ⟨scopes ++ scopes', ?_⟩
    rw [Registry.dropScopes_append, ← h.registry]
    exact h'

/-! ## Parties -/

variable {T : Nat → Set Scope} {es es' : List (Nat × Value)} {i : Nat}

/-- Every party has a territory for the footprints of its frames, and what is no entity is in none
of them. -/
structure Parted (s : Session) (T : Nat → Set Scope) (es : List (Nat × Value)) : Prop where
  apart : ∀ i j x, x ∈ T i → x ∈ T j → i = j
  entities : ∀ i, ∀ x ∈ T i, x.isEntity = true
  within : ∀ e ∈ es, s.footprint e.2 ⊆ T e.1

/-- Where the party reaches: everywhere but in the territories of the others. -/
def reach (T : Nat → Set Scope) (i : Nat) : Set Scope := {x | ∀ j, x ∈ T j → j = i}

namespace Parted

/-- Fewer frames. -/
theorem sublist (h : s.Parted T es) (hs : es' ⊆ es) : s.Parted T es' :=
  ⟨h.apart, h.entities, fun e he => h.within e (hs he)⟩

/-- The territories are still large enough after one of the frames. -/
theorem acceptFrame {e : Nat × Value} {k : Nat} (h : s.Parted T (e :: es)) (now : Instant)
    (hs : s.Ready (k + 1)) : (s.acceptFrame now e.2).session.Parted T es where
  apart := h.apart
  entities := h.entities
  within e' he' x hx := by
    have hfirst := h.within e List.mem_cons_self
    have hthis := h.within e' (List.mem_cons_of_mem e he')
    rcases footprint_acceptFrame hs hx with hx | ⟨hx, y, hy, hy'⟩
    · exact hthis hx
    · -- The footprint has grown within that of the first frame. Frames with something in common
      -- are of the same party, so it has grown within the territory of this party.
      rw [← h.apart e.1 e'.1 y (hfirst hy) (hthis hy')]
      exact hfirst hx

/-- The footprint of a frame is within the reach of its party. -/
theorem within_reach {e : Nat × Value} (h : s.Parted T es) (he : e ∈ es) :
    s.footprint e.2 ⊆ reach T e.1 := fun x hx j hj => h.apart j e.1 x hj (h.within e he hx)

/-- What is no entity is within the reach of everybody. -/
theorem rest_reach (h : s.Parted T es) {x : Scope} (hx : x.isEntity = false) : x ∈ reach T i := by
  intro j hj
  rw [h.entities j x hj] at hx
  cases hx

/-- The frames of the other parties do nothing within the reach of one party: what is found there,
and what is posted for the servers there, is what the frames of this party make of it alone. -/
theorem alone (now : Instant) (h : s.Parted T es) (h' : s'.Parted T (es.filter (·.1 == i)))
    (hs : s.Ready es.length) (hs' : s'.Ready es.length) (ha : ∀ x ∈ reach T i, AgreeAt s s' x) :
    (∀ x ∈ reach T i, AgreeAt (s.acceptFrames now (es.map Prod.snd))
      (s'.acceptFrames now (handledBy es i)) x) ∧
      ∀ g, Scope.server g ∈ reach T i →
        (s.postsAll now (es.map Prod.snd)).filter (·.1 == some g) =
          (s'.postsAll now (handledBy es i)).filter (·.1 == some g) := by
  -- Both sessions vary: the first one takes every frame, the second one those of the party.
  induction es generalizing s s' with
  | nil => exact ⟨ha, fun _ _ => rfl⟩
  | cons e es ih =>
    have hnext := h.acceptFrame now hs
    have hready := hs.acceptFrame now e.2
    by_cases hi : e.1 = i
    · -- The frame is one of the party, and both sessions handle it.
      have hmine : (e :: es).filter (·.1 == i) = e :: es.filter (·.1 == i) := by simp [hi]
      rw [hmine] at h'
      obtain ⟨hposts, hagree⟩ := acceptFrame_agree now hs hs' ha
        (hi ▸ h.within_reach List.mem_cons_self) (hi ▸ h'.within_reach List.mem_cons_self)
        fun x hx => h.rest_reach hx
      obtain ⟨hstate, htold⟩ :=
        ih hnext (h'.acceptFrame now hs') hready (hs'.acceptFrame now e.2) hagree
      simp only [handledBy, hmine, List.map_cons, postsAll, List.filter_append, hposts]
      exact ⟨hstate, fun g hg => congrArg _ (htold g hg)⟩
    · -- The frame is one of another party, so it is out of reach.
      have hother : (e :: es).filter (·.1 == i) = es.filter (·.1 == i) := by simp [hi]
      rw [hother] at h'
      have hout {x : Scope} (hx : x ∈ reach T i) : x ∉ s.footprint e.2 := fun hin =>
        hi (hx e.1 (h.within e List.mem_cons_self hin))
      have hagree : ∀ x ∈ reach T i, AgreeAt (s.acceptFrame now e.2).session s' x := fun x hx =>
        (agreeAt_acceptFrame hs (hout hx)).trans (ha x hx)
      obtain ⟨hstate, htold⟩ := ih hnext h' hready (hs'.mono (Nat.le_succ _)) hagree
      have hnone (g : Snowflake) (hg : Scope.server g ∈ reach T i) :
          (s.posts now e.2).filter (·.1 == some g) = [] := by
        refine List.filter_eq_nil_iff.mpr fun p hp hroot => hout hg ?_
        obtain ⟨root, job⟩ := p
        obtain rfl : root = some g := by simpa using hroot
        exact footprint_of_mem_posts hp
      simp only [handledBy, hother, List.map_cons, postsAll, List.filter_append]
      refine ⟨hstate, fun g hg => ?_⟩
      rw [hnone g hg]
      exact htold g hg

/-- It does not matter how the frames of different parties are mixed, if those of each party stay in
their order. -/
theorem mixed (now : Instant) (h : s.Parted T es) (h' : s.Parted T es')
    (hsame : ∀ i, handledBy es i = handledBy es' i) (hs : s.Ready es.length)
    (hs' : s.Ready es'.length) :
    (∀ x, AgreeAt (s.acceptFrames now (es.map Prod.snd))
      (s.acceptFrames now (es'.map Prod.snd)) x) ∧
      ∀ g, (s.postsAll now (es.map Prod.snd)).filter (·.1 == some g) =
        (s.postsAll now (es'.map Prod.snd)).filter (·.1 == some g) := by
  -- Everything is within the reach of somebody, and what is in no territory within that of all.
  have hreach (x : Scope) : ∃ i, x ∈ reach T i := by
    by_cases hx : ∃ i, x ∈ T i
    · obtain ⟨i, hi⟩ := hx
      exact ⟨i, fun j hj => h.apart j i x hj hi⟩
    · exact ⟨0, fun j hj => absurd ⟨j, hj⟩ hx⟩
  have hmine (es : List (Nat × Value)) (h : s.Parted T es) (hs : s.Ready es.length) (i : Nat) :=
    h.alone (i := i) now (h.sublist (List.filter_subset_self es)) hs hs fun x _ => .refl s x
  constructor
  · intro x
    obtain ⟨i, hi⟩ := hreach x
    have hone := (hmine es h hs i).1 x hi
    have hother := (hmine es' h' hs' i).1 x hi
    rw [← hsame i] at hother
    exact hone.trans hother.symm
  · intro g
    obtain ⟨i, hi⟩ := hreach (.server g)
    rw [(hmine es h hs i).2 g hi, (hmine es' h' hs' i).2 g hi, hsame i]

end Parted

end Switchboard.Session
