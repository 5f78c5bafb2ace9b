import Switchboard.Proofs.Session.Fanout

/-!
# What a frame posts

A session heeds a notice when it hears it and what the notice brings enters without failure; any
other notice changes at most the users that are known (`take_unheeded`). `Session.posts` is the job
that comes of a frame: the event of a notice that is heeded, with those who listen to it, for the
lane of its server. These are the jobs that the handling of the frame submits, and no others
(`acceptFrame_posts`).
-/

namespace Switchboard.Session

variable {s : Session} {now : Instant} {n : Notice}

/-- The notice is heard, and what it brings enters. -/
def heeds (now : Instant) (s : Session) (n : Notice) : Bool :=
  s.hears n && (s.enter now n).2.isNone

/-- A notice is heeded when it is heard and what it brings enters. -/
theorem heeds_iff : s.heeds now n = true ↔ s.hears n = true ∧ (s.enter now n).2 = none := by
  simp [heeds]

/-- What a frame has to tell: its event with those who listen to it, and the lane that it is for. -/
def posts (now : Instant) (s : Session) (v : Value) : List (Root × Job) :=
  match Notice.ofFrame? v with
  | none => []
  | some n =>
    if s.heeds now n then
      (s.event? n).toList.map fun e => (e.server?, ⟨.event e, s.listeners e⟩)
    else []

/-- A job that a frame posts is that of the event of its notice, which is heeded. -/
theorem mem_posts {v : Value} {root : Root} {job : Job} (h : (root, job) ∈ s.posts now v) :
    ∃ n e, Notice.ofFrame? v = some n ∧ s.heeds now n = true ∧ s.event? n = some e ∧
      root = e.server? ∧ job = ⟨.event e, s.listeners e⟩ := by
  unfold posts at h
  split at h
  · cases h
  · rename_i n hn
    split at h
    · rename_i hheeds
      obtain ⟨e, he, hjob⟩ := List.mem_map.mp h
      cases hjob
      exact ⟨n, e, hn, hheeds, by simpa using he, rfl, rfl⟩
    · cases h

/-- Lanes that are served take every notice that is heeded to the end. -/
theorem take_heeded (hr : s.lanes.running = true) (h : s.heeds now n = true) :
    (s.take now n).2 = none := by
  obtain ⟨hheard, henter⟩ := heeds_iff.mp h
  rw [take_snd hr, if_pos hheard, henter]

/-- A notice that is not heeded changes at most the users. -/
theorem take_unheeded (h : s.heeds now n = false) :
    ∃ users, (s.take now n).1 = { s with cache := { s.cache with users } } := by
  by_cases hheard : s.hears n = true
  · have hfailed : (s.enter now n).2 ≠ none := fun he => by
      simp [heeds, hheard, he] at h
    obtain ⟨f, hf⟩ := Option.ne_none_iff_exists'.mp hfailed
    rw [take_of_enter_failed hheard hfailed]
    obtain ⟨-, ⟨m, call, -, -, hsame⟩ | ⟨c, m, author, content, rs, -, -, hauthor⟩⟩ :=
      enter_failed hf
    · exact ⟨s.cache.users, hsame⟩
    · exact ⟨_, hauthor⟩
  · rw [take_unheard (by simpa using hheard)]
    exact ⟨s.cache.users, rfl⟩

/-- A frame submits the jobs that it posts, and no others. -/
theorem acceptFrame_posts {b : Bool} (now : Instant) (hh : s.handlers = .standard b)
    (hr : s.lanes.running = true) (v : Value) :
    s.lanes.Accepts (s.posts now v) (s.acceptFrame now v).session.lanes := by
  rw [acceptFrame_standard hh, posts]
  cases Notice.ofFrame? v with
  | none => exact .nil _
  | some n =>
    dsimp only
    -- A notice that is not heeded posts nothing, and another one its event.
    cases hheeds : s.heeds now n with
    | false =>
      obtain ⟨users, hsame⟩ := take_unheeded hheeds
      rw [hsame]
      exact .nil _
    | true =>
      have hsub := take_submits (heeds_iff.mp hheeds).1 (take_heeded hr hheeds)
      cases he : s.event? n with
      | none =>
        rw [he] at hsub
        dsimp only at hsub
        rw [hsub]
        exact .nil _
      | some e =>
        rw [he] at hsub
        exact .one hsub

end Switchboard.Session
