import Switchboard.Proofs.Session.Extent

/-!
# What a sweep drops, and when it cannot be made

A sweep drops the messages that have reached the maximum age, those that are of just that age among
them, with the registrations at their scopes; nothing else changes (`sweep_drops`). The instant that
messages are compared with is the maximum age before the sweep, and there has to be such an instant:
a sweep fails where the maximum age reaches back before the year 1, although no message can have
reached it there (`sweep_answers_iff`).
-/

namespace Switchboard

/-! ## Instants and durations -/

namespace Instant

variable {t : Instant} {d : Duration}

/-- An instant in the years 1 to 9999 is given as it is. -/
theorem before?_of_mem (hfirst : first ≤ t - d) (hlast : t - d ≤ last) :
    t.before? d = .ok (t - d) :=
  if_pos ⟨hfirst, hlast⟩

/-- There is no instant before the year 1. -/
theorem before?_of_lt (h : t - d < first) : t.before? d = .error .outOfRange :=
  if_neg fun hin => Int.not_le.mpr h hin.1

/-- An instant is a duration or more before now exactly when that much time has passed since. -/
theorem le_sub_iff {now : Instant} : t ≤ now - d ↔ d ≤ now - t := by
  constructor
  · intro h
    exact Int.le_sub_left_of_add_le (Int.add_le_of_le_sub_right h)
  · intro h
    exact Int.le_sub_right_of_add_le (Int.add_le_of_le_sub_left h)

end Instant

namespace Duration

/-- A duration has less than a thousand million days. -/
theorem lt_of_ofMicroseconds? {n : Int} {d : Duration} (h : ofMicroseconds? n = .ok d) :
    d < 1000000000 * day := by
  unfold ofMicroseconds? at h
  split at h
  · rename_i hn
    cases h
    exact hn.2
  · cases h

/-- So does one that is read from a value. -/
theorem lt_of_ofValue? {v : Value} {d : Duration} (h : ofValue? v = .ok d) :
    d < 1000000000 * day := by
  unfold ofValue? at h
  -- A truth value counts as a number of seconds; an infinite double is refused.
  split at h
  · rename_i b
    cases h
    cases b <;> decide
  · exact lt_of_ofMicroseconds? h
  · unfold ofSeconds? at h
    split at h
    · cases h
    · split at h
      · cases h
      · exact lt_of_ofMicroseconds? h
  · cases h

end Duration

/-- The maximum age of a sweeper that has anything to do is positive. -/
theorem Sweeper.maxAge_pos {w : Sweeper} (h : w.enabled = true) : 0 < w.maxAge := by
  simp only [enabled, Bool.and_eq_true, decide_eq_true_eq] at h
  exact h.1

namespace Session

variable {s : Session} {maxAge : Duration} {now : Instant}

/-! ## What is dropped -/

/-- The cached messages that have reached an age, oldest first. -/
def aged (s : Session) (maxAge : Duration) (now : Instant) : List Message :=
  (Table.values s.cache.messages).filter fun m => maxAge ≤ now - m.createdAt

/-- A cached message that has reached the age is one of them. -/
theorem mem_aged {m : Message} :
    m ∈ s.aged maxAge now ↔ m ∈ Table.values s.cache.messages ∧ maxAge ≤ now - m.createdAt := by
  rw [aged, List.mem_filter, decide_eq_true_iff]

/-- The messages up to the cutoff are those that have reached the age. -/
theorem dropUntil_eq (s : Session) (maxAge : Duration) (now : Instant) :
    s.cache.dropUntil (now - maxAge) = (s.aged maxAge now,
      { s.cache with messages := s.cache.messages.filter fun e => e.2 ∉ s.aged maxAge now }) := by
  refine Prod.ext ?_ ?_
  · exact List.filter_congr fun m _ => decide_eq_decide.mpr Instant.le_sub_iff
  · have hrest : (s.cache.messages.filter fun e => !e.2.createdAt ≤ now - maxAge) =
        s.cache.messages.filter fun e => e.2 ∉ s.aged maxAge now := by
      refine List.filter_congr fun e he => ?_
      rw [← decide_not, decide_eq_decide, mem_aged, Instant.le_sub_iff, not_and]
      exact ⟨fun h _ => h, fun h => h (List.mem_map_of_mem he)⟩
    rw [← hrest]
    rfl

/-- A sweep with a cutoff drops what has reached the age. -/
theorem sweep_of_cutoff (hfirst : Instant.first ≤ now - maxAge)
    (hlast : now - maxAge ≤ Instant.last) :
    s.sweep maxAge now = .ok ((s.aged maxAge now).length,
      { s with
        cache := { s.cache with
          messages := s.cache.messages.filter fun e => e.2 ∉ s.aged maxAge now }
        registry := s.registry.without fun x =>
          x ∈ (s.aged maxAge now).map fun m => .message m.id }) := by
  -- The cutoff is a time that can be written.
  have hdrop : s.cache.dropOlder maxAge now = .ok (s.cache.dropUntil (now - maxAge)) := by
    rw [Cache.dropOlder, Instant.before?_of_mem hfirst hlast]
    rfl
  -- The scopes are dropped one after another, which is the same as dropping them at once.
  have hregistry : s.registry.dropScopes ((s.aged maxAge now).map fun m => .message m.id) =
      s.registry.without fun x => x ∈ (s.aged maxAge now).map fun m => .message m.id :=
    Registry.dropScopes_eq_without fun x => by rw [decide_eq_true_iff]
  rw [sweep, hdrop, dropUntil_eq, ← hregistry]
  rfl

/-- A sweep drops the messages that have reached the maximum age and gives their number; the
registrations at their scopes go, and nothing else changes. So the messages that go are those of
more than the maximum age exactly when no cached message is of just that age. -/
theorem sweep_drops (s : Session) {maxAge : Duration} {now : Instant}
    (hfirst : Instant.first ≤ now - maxAge) (hlast : now - maxAge ≤ Instant.last) :
    s.sweep maxAge now = .ok ((s.aged maxAge now).length,
      { s with
        cache := { s.cache with
          messages := s.cache.messages.filter fun e => e.2 ∉ s.aged maxAge now }
        registry := s.registry.without fun x =>
          x ∈ (s.aged maxAge now).map fun m => .message m.id }) ∧
      ((∀ m ∈ Table.values s.cache.messages,
          m ∈ s.aged maxAge now ↔ maxAge < now - m.createdAt) ↔
        ∀ m ∈ Table.values s.cache.messages, now - m.createdAt ≠ maxAge) := by
  refine ⟨sweep_of_cutoff hfirst hlast, ?_⟩
  constructor
  · -- A message of just that age is dropped, though it is not older.
    intro h m hm heq
    have haged : m ∈ s.aged maxAge now := mem_aged.mpr ⟨hm, Int.le_of_eq heq.symm⟩
    exact Int.lt_irrefl _ (heq ▸ (h m hm).mp haged)
  · -- Without such a message to reach the age is to exceed it.
    intro h m hm
    have hne := h m hm
    rw [mem_aged]
    constructor
    · rintro ⟨-, hle⟩
      exact Int.lt_iff_le_and_ne.mpr ⟨hle, hne.symm⟩
    · intro hlt
      exact ⟨hm, Int.le_of_lt hlt⟩

/-- Of three messages one is too old, one has just reached the maximum age and one has not. The
first two go with the registration that is there for one of them; the third one stays, with its
reactions and its registration, and so does the registration for everything. -/
theorem sweep_drops_mixed :
    let old : Message := { id := 1, channel := 9 }
    let due : Message := { id := 2, channel := 9, createdAt := 40 * second }
    let young : Message :=
      { id := 3, channel := 9, createdAt := 41 * second
        reactions := [("heart", ⟨⟨some "heart", none⟩, [7]⟩)] }
    let watchDue := Registry.attach {} (.message 2) .reactionAdd "a"
    let watchYoung := watchDue.2.attach (.message 3) .reactionAdd "b"
    let watchAll := watchYoung.2.attach .global .reactionAdd "c"
    let s : Session :=
      { settings := Settings.defaults
        cache := { messages := [(1, old), (3, young), (2, due)] }
        registry := watchAll.2
        handlers := .standard false }
    Instant.first ≤ 100 * second - 60 * second ∧ 100 * second - 60 * second ≤ Instant.last ∧
      ∃ s', s.sweep (60 * second) (100 * second) = .ok (2, s') ∧
        s'.cache.messages = [(3, young)] ∧ s'.registry.all = [watchYoung.1, watchAll.1] := by
  -- One message is more than 60 seconds old at 100, one just 60, and one less.
  intro old due young watchDue watchYoung watchAll s
  have hfirst : Instant.first ≤ 100 * second - 60 * second := by decide
  have hlast : 100 * second - 60 * second ≤ Instant.last := by decide
  have haged : s.aged (60 * second) (100 * second) = [old, due] := by decide
  have hsweep := (sweep_drops s hfirst hlast).1
  rw [haged] at hsweep
  exact ⟨hfirst, hlast, _, hsweep, by decide, by decide⟩

/-- A message that is just as old as the maximum age goes, and so does the registration at its
scope. -/
theorem sweep_just_aged :
    let m : Message := { id := 6, channel := 1 }
    let watch := Registry.attach {} (.message 6) .reactionAdd "watcher"
    let s : Session :=
      { settings := Settings.defaults
        cache := { messages := [(6, m)] }
        registry := watch.2
        handlers := .standard false }
    s.cache.message? 6 = some m ∧ s.registry.registrationsAt (.message 6) = [watch.1] ∧
      ¬ 60 * second < 60 * second - m.createdAt ∧
      ∃ s', s.sweep (60 * second) (60 * second) = .ok (1, s') ∧ s'.cache.message? 6 = none ∧
        s'.registry.registrationsAt (.message 6) = [] := by
  intro m watch s
  -- The message came at 0 and is swept at 60.
  have hsweep : s.sweep (60 * second) (60 * second) = _ :=
    sweep_of_cutoff (by decide) (by decide)
  exact ⟨by decide, by decide, by decide, _, hsweep, by decide, by decide⟩

/-! ## Where there is no cutoff -/

/-- A sweep without a cutoff fails. -/
theorem sweep_of_no_cutoff (h : now - maxAge < Instant.first) :
    s.sweep maxAge now = .error .outOfRange := by
  have hdrop : s.cache.dropOlder maxAge now = .error .outOfRange := by
    rw [Cache.dropOlder, Instant.before?_of_lt h]
    rfl
  rw [sweep, hdrop]
  rfl

/-- No message has reached an age that reaches back before the year 1. -/
theorem aged_of_no_cutoff (h : now - maxAge < Instant.first)
    (hdated : ∀ m ∈ Table.values s.cache.messages, Instant.first ≤ m.createdAt) :
    s.aged maxAge now = [] := by
  refine List.filter_eq_nil_iff.mpr fun m hm => ?_
  rw [decide_eq_true_iff, ← Instant.le_sub_iff]
  exact Int.not_le.mpr (Int.lt_of_lt_of_le h (hdated m hm))

/-- A sweeper that has anything to do has a maximum age that is a positive duration. It can sweep at
an instant exactly when the instant that is the maximum age earlier is none before the year 1, and
then the number of the messages that go is given. Elsewhere a sweep fails for want of a cutoff, and
there no message can have reached the maximum age. -/
theorem sweep_answers_iff {age : Value} {w : Sweeper} (hage : Duration.ofValue? age = .ok w.maxAge)
    (henabled : w.enabled = true) (s : Session) {now : Instant} (hlast : now ≤ Instant.last) :
    (0 < w.maxAge ∧ w.maxAge < 1000000000 * day) ∧
      ((∃ n s', s.sweep w.maxAge now = .ok (n, s')) ↔ Instant.first ≤ now - w.maxAge) ∧
      (∀ n s', s.sweep w.maxAge now = .ok (n, s') → n = (s.aged w.maxAge now).length) ∧
      (now - w.maxAge < Instant.first → s.sweep w.maxAge now = .error .outOfRange ∧
        ((∀ m ∈ Table.values s.cache.messages, Instant.first ≤ m.createdAt) →
          s.aged w.maxAge now = [])) := by
  have hpos : 0 < w.maxAge := Sweeper.maxAge_pos henabled
  -- The cutoff is no later than the sweep, so the end of time does not come in.
  have hbefore : now - w.maxAge ≤ Instant.last :=
    Int.le_trans (Int.sub_le_self _ (Int.le_of_lt hpos)) hlast
  refine ⟨⟨hpos, Duration.lt_of_ofValue? hage⟩, ?_, ?_, fun h => ?_⟩
  · constructor
    · rintro ⟨n, s', hs⟩
      by_contra hearly
      rw [sweep_of_no_cutoff (Int.not_le.mp hearly)] at hs
      cases hs
    · intro hcutoff
      exact ⟨_, _, sweep_of_cutoff hcutoff hbefore⟩
  · intro n s' hs
    rcases Int.lt_or_le (now - w.maxAge) Instant.first with hearly | hcutoff
    · rw [sweep_of_no_cutoff hearly] at hs
      cases hs
    · rw [sweep_of_cutoff hcutoff hbefore] at hs
      exact (congrArg Prod.fst (Except.ok.inj hs)).symm
  · exact ⟨sweep_of_no_cutoff h, aged_of_no_cutoff h⟩

/-- Twelve hours can be swept with at the epoch. -/
theorem sweep_answers_half_day :
    let w : Sweeper := ⟨43200 * second, .ofDecimal false 60 0⟩
    Duration.ofValue? (.int 43200) = .ok w.maxAge ∧ w.enabled = true ∧ 0 ≤ Instant.last ∧
      Instant.first ≤ 0 - w.maxAge ∧
      ∀ s : Session, ∃ n s', s.sweep w.maxAge 0 = .ok (n, s') := by
  intro w
  have hage : Duration.ofValue? (.int 43200) = .ok w.maxAge := rfl
  have henabled : w.enabled = true := by decide +kernel
  have hlast : 0 ≤ Instant.last := by decide
  have hcutoff : Instant.first ≤ 0 - w.maxAge := by decide
  exact ⟨hage, henabled, hlast, hcutoff, fun s =>
    (sweep_answers_iff hage henabled s hlast).2.1.mpr hcutoff⟩

/-- A sweeper can be made for a maximum age of a hundred thousand million seconds, and it has
something to do; but its age reaches back more than three thousand years, so it cannot sweep at the
epoch, whatever is cached. -/
theorem sweep_out_of_reach : ∃ w : Sweeper,
    Sweeper.create (.ofDecimal false 100000000000 0) (.ofDecimal false 60 0) = .ok w ∧
      w.enabled = true ∧ Instant.first ≤ 0 ∧ 0 ≤ Instant.last ∧
      ∀ s : Session, s.sweep w.maxAge 0 = .error .outOfRange := by
  have hmade : Sweeper.create (.ofDecimal false 100000000000 0) (.ofDecimal false 60 0) =
      .ok ⟨100000000000 * second, .ofDecimal false 60 0⟩ :=
    eq_ok_of_toOption (by decide +kernel)
  exact ⟨_, hmade, by decide +kernel, by decide, by decide, fun s =>
    sweep_of_no_cutoff (by decide)⟩

end Session

end Switchboard
