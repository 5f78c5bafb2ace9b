import Switchboard.Proofs.Scenario.Telling

/-!
# Failures of frames

A frame is refused when it is no packet, or when the handler of its packet raises a failure
(`Session.Refuses`); nothing else refuses a frame, and every refusal is contained: feeding the frame
still answers. Each observer that there is then is told of the refusal once, in the order in which
they were added. What it leaves is an `Account`: its own note or record, and then whatever the steps
of its script leave, whether it fails in the end or not (`perform_frame_contained`).
-/

namespace Switchboard

namespace Session

variable {now : Instant} {s : Session} {p : Packet} {v : Value} {r : Refusal}

/-- The handler of a packet raises a failure. -/
inductive Raises (now : Instant) (s : Session) (p : Packet) (f : Failure) : Prop
  /-- The packet does not decode. -/
  | decode {t : Topic} (h : s.handlers.find? p.type = some (.topic t))
      (hf : Notice.decode p t = .error f)
  /-- Its notice is not taken to the end, as when the lanes are not served. -/
  | take {t : Topic} {n : Notice} (h : s.handlers.find? p.type = some (.topic t))
      (hn : Notice.decode p t = .ok n) (hf : (s.take now n).2 = some f)
  /-- A handler of the embedding program fails. -/
  | custom {name : String} {answer : Packet → Option Failure}
      (h : s.handlers.find? p.type = some (.custom name answer)) (hf : answer p = some f)

/-- A frame is refused: as what it is if it cannot be parsed, and else as the packet whose handler
raises. -/
inductive Refuses (now : Instant) (s : Session) (v : Value) : Refusal → Prop
  | parse {e : DecodeError} (h : Packet.ofFrame v = .error e) :
      Refuses now s v ⟨.decode e, .frame v⟩
  | handler {p : Packet} {f : Failure} (h : Packet.ofFrame v = .ok (some p))
      (hf : s.Raises now p f) : Refuses now s v ⟨f, .packet p⟩

/-- What refuses a packet is the failure that its handling is concluded with. -/
theorem conclude_refusal (s : Session) (p : Packet) (logs : List LogRecord) (f : Option Failure) :
    (s.conclude p logs f).refusal = f.map (⟨·, .packet p⟩) := by
  cases f <;> rfl

/-- A packet is refused exactly when its handler raises. -/
theorem acceptPacket_refusal_iff :
    (s.acceptPacket now p).refusal = some r ↔ ∃ f, s.Raises now p f ∧ ⟨f, .packet p⟩ = r := by
  unfold acceptPacket
  constructor
  · -- The tag is unknown, that of a topic, or that of a handler of the caller.
    intro h
    split at h
    · rw [conclude_refusal] at h
      cases h
    · rename_i t ht
      unfold acceptTopic at h
      split at h
      · rename_i f hf
        rw [conclude_refusal] at h
        exact ⟨f, .decode ht hf, Option.some.inj h⟩
      · rename_i n hn
        rw [conclude_refusal] at h
        obtain ⟨f, hf, rfl⟩ := Option.map_eq_some_iff.mp h
        exact ⟨f, .take ht hn hf, rfl⟩
    · rename_i name answer ht
      rw [conclude_refusal] at h
      obtain ⟨f, hf, rfl⟩ := Option.map_eq_some_iff.mp h
      exact ⟨f, .custom ht hf, rfl⟩
  · -- Each way to raise comes out of the branch that it is about.
    rintro ⟨f, hraises, rfl⟩
    cases hraises with
    | decode ht hf => simp only [ht, acceptTopic, hf, conclude_refusal, Option.map_some]
    | take ht hn hf => simp only [ht, acceptTopic, hn, hf, conclude_refusal, Option.map_some]
    | custom ht hf => simp only [ht, hf, conclude_refusal, Option.map_some]

/-- A frame is refused exactly when it cannot be parsed or the handler of its packet raises. -/
theorem acceptFrame_refusal_iff : (s.acceptFrame now v).refusal = some r ↔ s.Refuses now v r := by
  unfold acceptFrame
  constructor
  · intro h
    -- The frame is refused itself, carries no packet, or carries one that is handled.
    split at h
    · rename_i e he
      cases h
      exact .parse he
    · cases h
    · rename_i p hp
      obtain ⟨f, hf, rfl⟩ := acceptPacket_refusal_iff.mp h
      exact .handler hp hf
  · intro h
    cases h with
    | parse he => rw [he]
    | handler hp hf =>
      rw [hp]
      exact acceptPacket_refusal_iff.mpr ⟨_, hf, rfl⟩

end Session

namespace Scenario

namespace Observer

/-- The observer feeds frames or packets when it is told of a failure. -/
def feeds : Observer → Bool
  | scripted _ _ steps => steps.any Step.feeds
  | logging => false

/-- The note of an observer that is told of a failure that concerns no listener, if it has a script.
-/
def remark? (time : Instant) (r : Refusal) : Observer → Option Remark
  | scripted name _ _ => some ⟨Machine.originOf r.subject, time, .observed name r none⟩
  | logging => none

/-- The record of an observer that logs, when it is told of a failure. -/
def record? (r : Refusal) : Observer → Option LogRecord
  | scripted .. => none
  | logging => some (.pipelineFailed (Machine.subjectKind r.subject) r.cause.message)

end Observer

namespace Machine

/-- What an observer leaves in the journal and in the log when it is told of a failure once. -/
inductive Account (time : Instant) (r : Refusal) :
    Observer → List Remark × List LogRecord → Prop
  | logging :
      Account time r .logging ([], [.pipelineFailed (subjectKind r.subject) r.cause.message])
  /-- After its own note come the things that its steps leave. -/
  | scripted {name : String} {fails : Bool} {steps : List Step} {depth : ℕ} {m : Machine}
      {js : List Remark} {rs : List LogRecord}
      (h : Leaves m (steps.foldl (fun m s => (m.performWith (report depth) s).1) m) js rs) :
      Account time r (.scripted name fails steps)
        (⟨originOf r.subject, time, .observed name r none⟩ :: js,
          rs ++ if fails then [.observerFailed name] else [])

/-- What observers leave who are told of a failure, one after another. -/
abbrev Accounts (time : Instant) (r : Refusal) :
    List Observer → List (List Remark × List LogRecord) → Prop := List.Forall₂ (Account time r)

variable {m : Machine} {time : Instant} {r : Refusal} {o : Observer} {os : List Observer}

/-! ## One observer -/

/-- An observer that is told leaves its account, if what its steps do only adds to the journal and
the log. -/
theorem exists_account {depth : ℕ}
    (ht : ∀ m r, ∃ js rs, Leaves m (report depth m r none) js rs) (m : Machine) (r : Refusal)
    (o : Observer) :
    ∃ a, Account m.clock r o a ∧ Leaves m (tellObserver (report depth) r none m o) a.1 a.2 := by
  cases o with
  -- The log of the program takes one record.
  | logging => exact ⟨_, .logging, .logAll m _⟩
  | scripted name fails steps =>
    have hremark := Leaves.remark m (originOf r.subject) (.observed name r none)
    -- What the steps leave is part of the account.
    obtain ⟨js, rs, hsteps⟩ := Leaves.exists_foldl (exists_leaves_performWith ht)
      (m.remark (originOf r.subject) (.observed name r none)) steps
    refine ⟨_, .scripted hsteps, ?_⟩
    -- A failure of the observer is logged behind that.
    cases fails with
    | false => simpa [tellObserver] using hremark.trans hsteps
    | true =>
      have hfailed := (hremark.trans hsteps).trans (.logAll _ [.observerFailed name])
      simpa [tellObserver] using hfailed

/-- An observer that feeds nothing leaves its note if it has a script and else its record, and
nothing more that is left by an observer. -/
theorem Account.exact {a : List Remark × List LogRecord} (h : Account time r o a)
    (ho : o.feeds = false) :
    a.1 = (o.remark? time r).toList ∧ a.2.filter LogRecord.isObserved = (o.record? r).toList := by
  cases h with
  | logging => exact ⟨rfl, rfl⟩
  | @scripted name fails steps depth m js rs h =>
    have hfeeds : ∀ s ∈ steps, s.feeds = false := by simpa [Observer.feeds] using ho
    -- The steps leave what they leave, and as they feed nothing it is told by nobody.
    obtain ⟨rs', h', hu⟩ := leaves_steps (report depth) hfeeds m
    obtain ⟨rfl, rfl⟩ := h.unique h'
    refine ⟨rfl, ?_⟩
    rw [List.filter_append, hu.filter_records]
    cases fails <;> rfl

/-! ## All observers -/

/-- Observers that are told one after another leave their accounts in this order. -/
theorem exists_accounts {depth : ℕ}
    (ht : ∀ m r, ∃ js rs, Leaves m (report depth m r none) js rs) (r : Refusal)
    (os : List Observer) (m : Machine) :
    ∃ as, Accounts m.clock r os as ∧
      Leaves m (os.foldl (tellObserver (report depth) r none) m) (as.flatMap Prod.fst)
        (as.flatMap Prod.snd) := by
  -- Telling an observer takes no time, so the notes of all of them bear the same time.
  induction os generalizing m with
  | nil => exact ⟨[], .nil, .refl m⟩
  | cons o os ih =>
    obtain ⟨a, ha, hfirst⟩ := exists_account ht m r o
    obtain ⟨as, has, hrest⟩ := ih (tellObserver (report depth) r none m o)
    rw [hfirst.clock] at has
    exact ⟨a :: as, .cons ha has, hfirst.trans hrest⟩

/-- Telling only adds to the journal and the log, however deep observers cause each other to be
told. -/
theorem exists_leaves_report (depth : ℕ) (m : Machine) (r : Refusal) :
    ∃ js rs, Leaves m (report depth m r none) js rs := by
  -- The steps of an observer tell others one level deeper.
  induction depth generalizing m r with
  | zero => exact ⟨[], [], .refl m⟩
  | succ depth ih =>
    obtain ⟨as, -, h⟩ := exists_accounts ih r m.observers m
    exact ⟨_, _, h⟩

/-- All observers that there are leave their accounts. -/
theorem exists_accounts_tellAll (m : Machine) (r : Refusal) :
    ∃ as, Accounts m.clock r m.observers as ∧
      Leaves m (tellAll m r none) (as.flatMap Prod.fst) (as.flatMap Prod.snd) :=
  exists_accounts (exists_leaves_report _) r m.observers m

/-- Of observers that feed nothing, those with a script leave their notes and the others their
records, once each and in order. -/
theorem Accounts.exact {as : List (List Remark × List LogRecord)} (h : Accounts time r os as)
    (ho : ∀ o ∈ os, o.feeds = false) :
    as.flatMap Prod.fst = os.filterMap (Observer.remark? time r) ∧
      (as.flatMap Prod.snd).filter LogRecord.isObserved = os.filterMap (Observer.record? r) := by
  induction h with
  | nil => exact ⟨rfl, rfl⟩
  | @cons o a os as ha has ih =>
    obtain ⟨hremarks, hrecords⟩ := ih fun o ho' => ho o (List.mem_cons_of_mem _ ho')
    obtain ⟨hremark, hrecord⟩ := ha.exact (ho o List.mem_cons_self)
    rw [List.flatMap_cons, List.flatMap_cons, List.filter_append, hremark, hremarks, hrecord,
      hrecords, List.filterMap_cons, List.filterMap_cons]
    exact ⟨by cases o.remark? time r <;> rfl, by cases o.record? r <;> rfl⟩

/-! ## Feeding a frame -/

/-- Feeding a frame answers whether it was refused, and it is refused exactly when it cannot be
parsed or the handler of its packet raises. The handling tells no observer. If the frame was not
refused, no observer is told of anything. If it was, each observer that there was before is told of
that failure, of no listener, once and in the order in which they were added, whichever of them
fail; and if their scripts feed nothing, nothing else is told to anybody. -/
theorem perform_frame_contained (m : Machine) (v : Value) :
    ∃ accepted, (m.perform (.frame v)).2 = .flag accepted ∧
      (accepted = false ↔ ∃ r, m.session.Refuses m.clock v r) ∧
      ∃ js rs as, Leaves m (m.perform (.frame v)).1 (js ++ as.flatMap Prod.fst)
          (rs ++ as.flatMap Prod.snd) ∧
        Untold js rs ∧ (accepted = true → as = []) ∧
        ∀ r, m.session.Refuses m.clock v r →
          Accounts m.clock r m.observers as ∧
          ((∀ o ∈ m.observers, o.feeds = false) →
            as.flatMap Prod.fst = m.observers.filterMap (Observer.remark? m.clock r) ∧
            (as.flatMap Prod.snd).filter LogRecord.isObserved =
              m.observers.filterMap (Observer.record? r)) := by
  set h := m.session.acceptFrame m.clock v with hh
  have htaken : Leaves m (m.taken h) (m.callRemarks h) h.logs := leaves_taken m h
  have huntold : Untold (m.callRemarks h) h.logs :=
    ⟨not_isObserved_callRemarks m h,
      (Session.external_acceptFrame m.clock m.session v).not_isObserved⟩
  have hperform : (m.perform (.frame v)).1 = m.absorb tellAll h := rfl
  refine ⟨h.accepted, rfl, ?_, m.callRemarks h, h.logs, ?_⟩
  · simp only [Handled.accepted, Option.isNone_eq_false_iff, Option.isSome_iff_exists, hh,
      Session.acceptFrame_refusal_iff]
  · rw [hperform, absorb_eq]
    cases hr : h.refusal with
    | none =>
      refine ⟨[], by simpa using htaken, huntold, fun _ => rfl, fun r hrefuses => ?_⟩
      rw [Session.acceptFrame_refusal_iff.mpr hrefuses] at hr
      cases hr
    | some r =>
      -- The handling has changed neither the observers nor the time.
      obtain ⟨as, has, hleaves⟩ := exists_accounts_tellAll (m.taken h) r
      rw [taken_observers, htaken.clock] at has
      refine ⟨as, htaken.trans hleaves, huntold, fun hnone => ?_, fun r' hrefuses => ?_⟩
      · simp [Handled.accepted, hr] at hnone
      · obtain rfl : r = r' :=
          Option.some.inj (hr.symm.trans (Session.acceptFrame_refusal_iff.mpr hrefuses))
        exact ⟨has, has.exact⟩

/-- Lanes that are not served refuse the news of a server. The first observer fails when it is told,
and two others are told all the same. -/
theorem perform_frame_contained_unserved : ∃ (m : Machine) (v : Value) (p : Packet),
    m.session.lanes.running = false ∧
      m.observers = [.scripted "a" true [.clear], .logging, .scripted "b" false [.status]] ∧
      Packet.ofFrame v = .ok (some p) ∧ (m.perform (.frame v)).2 = .flag false ∧
      (m.perform (.frame v)).1.journal.reverse.filter (·.note.isObserved) =
        [⟨.packet, 0, .observed "a" ⟨.notRunning, .packet p⟩ none⟩,
          ⟨.packet, 0, .observed "b" ⟨.notRunning, .packet p⟩ none⟩] ∧
      (m.perform (.frame v)).1.logs.reverse.filter LogRecord.isObserved =
        [.pipelineFailed "Packet" Failure.notRunning.message] := by
  let s : Session :=
    { settings := Settings.defaults, cache := { capacity := 1000 }, handlers := .standard false }
  let m : Machine :=
    { session := s
      observers := [.scripted "a" true [.clear], .logging, .scripted "b" false [.status]] }
  let v : Value := .map [(.text "t", .text "GUILD_CREATE"),
    (.text "d", .map [(.text "id", .text "1")])]
  let p : Packet := ⟨"GUILD_CREATE", [(.text "id", .text "1")], none⟩
  -- The packet decodes, and fails when it is posted.
  have hrefuses : m.session.Refuses m.clock v ⟨.notRunning, .packet p⟩ := by
    have hdecode : Notice.decode p .serverCreate = .ok (.serverCreate ⟨1, ""⟩ []) := by
      decide +kernel
    exact .handler rfl (.take rfl hdecode rfl)
  have hfeeds : ∀ o ∈ m.observers, o.feeds = false := by
    simp [m, Observer.feeds, Step.feeds]
  obtain ⟨accepted, hanswer, hrefused, js, rs, as, hleaves, hu, -, htold⟩ :=
    perform_frame_contained m v
  obtain ⟨hremarks, hrecords⟩ := (htold _ hrefuses).2 hfeeds
  -- What is left in the journal and the log is what was there, nothing, with the account added.
  refine ⟨m, v, p, rfl, rfl, rfl, hrefused.mpr ⟨_, hrefuses⟩ ▸ hanswer, ?_, ?_⟩
  · rw [hleaves.journal, List.reverse_append, List.reverse_reverse, List.filter_append,
      List.filter_append, hu.filter_remarks, hremarks]
    rfl
  · rw [hleaves.logs, List.reverse_append, List.reverse_reverse, List.filter_append,
      List.filter_append, hu.filter_records, hrecords]
    rfl

end Machine

end Scenario

end Switchboard
