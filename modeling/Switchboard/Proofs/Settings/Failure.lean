import Switchboard.Proofs.Settings.Restart

/-!
# Requests that fail

A keeper brings new settings into effect before it writes them, and it writes them to a scratch file
first. So when a request fails it matters how far it has come. One that fails before there is
anything to write leaves the keeper and its store as they were. One that fails at the write has
changed the settings in effect and leaves the scratch file behind, although what stands at the path
is as before (`attempt_failed`).
-/

namespace Switchboard.Settings

section

variable [Yaml.Library]

/-- A write that fails leaves what stands at the path, and the scratch file. It fails because a
directory stands there or because the value cannot be written. -/
theorem Store.write_failed {s s' : Store} {v : Value} {f : Failure}
    (h : s.write v = (s', some f)) :
    s'.path = s.path ∧ s'.place = s.place ∧ s'.scratch.isSome = true ∧
      (s.place = .directory ∨ (Yaml.Library.dump v).2 = some f) := by
  unfold write at h
  generalize Yaml.Library.dump v = d at h ⊢
  obtain ⟨text, failure⟩ := d
  -- The library fails, or the scratch file cannot take the place of a directory.
  cases failure with
  | some f =>
    cases h
    exact ⟨rfl, rfl, rfl, .inr rfl⟩
  | none =>
    dsimp only at h
    split at h
    · rename_i hplace
      cases h
      exact ⟨rfl, rfl, rfl, .inl hplace⟩
    · cases h

namespace Keeper

variable {k k' : Keeper} {r : Request} {c : Fields} {f : Failure}

/-- Why there is no answer, if there is none. -/
def Outcome.failure? {α : Type} (o : Outcome α) : Option Failure :=
  match o.answer with
  | .ok _ => none
  | .error f => some f

/-- What a request leaves behind, and why it failed, if it did. -/
def attempt (k : Keeper) : Request → Keeper × Option Failure
  | .load => (k.load.keeper, k.load.failure?)
  | .change v => ((k.change v).keeper, (k.change v).failure?)

/-- Nothing that can be seen has changed from one keeper to the other: the settings in effect are
the same, the same stands at the path, and no scratch file has come up. -/
structure Untouched (k k' : Keeper) : Prop where
  current : k'.current = k.current
  path : k'.store.path = k.store.path
  place : k'.store.place = k.store.place
  scratch : k'.store.scratch.isSome = true → k.store.scratch.isSome = true

/-- A request with settings to write brings them into effect, whatever comes of the write. -/
theorem attempt_of_pending (h : k.pending? r = some c) :
    k.attempt r = (⟨(k.store.write (.map c)).1, c⟩, (k.store.write (.map c)).2) := by
  -- Loading writes the defaults only where no settings are.
  cases r with
  | load =>
    simp only [pending?] at h
    split at h
    · rename_i hreset
      cases h
      obtain ⟨hkeeper, hanswer⟩ := load_of_reset hreset
      rw [attempt, hkeeper, Outcome.failure?, hanswer]
      cases (k.store.write (.map defaults)).2 <;> rfl
    · cases h
    · cases h
  -- A change is written with the settings that it is laid over.
  | change v =>
    cases v with
    | map es =>
      cases h
      simp only [attempt, change]
      generalize overlay (if k.current.isEmpty then defaults else k.current) es = c
      cases hw : k.store.write (.map c) with
      | mk s o => cases o <;> rfl
    | scalar a => cases h
    | list xs => cases h

/-- A request without anything to write changes nothing if it fails. -/
theorem attempt_of_not_pending (h : k.pending? r = none) (hf : k.attempt r = (k', some f)) :
    k' = k := by
  -- Loading fails for what stands there, a change for not being a map.
  cases r with
  | load =>
    simp only [pending?] at h
    split at h
    · cases h
    · rename_i c hadopt
      rw [attempt, Outcome.failure?, (load_of_adopt hadopt).1] at hf
      cases hf
    · rename_i f' hrefuse
      obtain ⟨hk', -⟩ := Prod.mk.inj hf
      exact hk' ▸ (load_of_refuse hrefuse).2
  | change v =>
    cases v with
    | map es => cases h
    | scalar a =>
      cases hf
      rfl
    | list xs =>
      cases hf
      rfl

/-- A request that fails leaves what stands at the path. If it has not come to a write, it leaves
everything as it was. If it has, the settings that were to be written are in effect all the same and
the scratch file is there; this is because a directory stands at the path or the settings cannot be
written. So a failed request leaves everything as it was exactly when there was nothing to write,
or when the settings to be written were those in effect and the scratch file was there before. -/
theorem attempt_failed (h : k.attempt r = (k', some f)) :
    k'.store.path = k.store.path ∧ k'.store.place = k.store.place ∧
      (k.pending? r = none → k' = k) ∧
      (∀ c, k.pending? r = some c → k'.current = c ∧ k'.store.scratch.isSome = true ∧
        (k.store.place = .directory ∨ (Yaml.Library.dump (.map c)).2 = some f)) ∧
      (k.Untouched k' ↔ k.pending? r = none ∨
        k.pending? r = some k.current ∧ k.store.scratch.isSome = true) := by
  -- Only a request with something to write touches the store.
  cases hp : k.pending? r with
  | none =>
    obtain rfl := attempt_of_not_pending hp h
    exact ⟨rfl, rfl, fun _ => rfl, fun _ hc => (nomatch hc),
      iff_of_true ⟨rfl, rfl, rfl, id⟩ (.inl rfl)⟩
  | some c =>
    rw [attempt_of_pending hp] at h
    -- The write is what has failed.
    obtain ⟨hk', hfailed⟩ := Prod.mk.inj h
    obtain ⟨hpath, hplace, hscratch, hcause⟩ := Store.write_failed (Prod.ext rfl hfailed)
    subst hk'
    refine ⟨hpath, hplace, fun hc => (nomatch hc), ?_, ?_⟩
    · rintro c' hc
      cases hc
      exact ⟨rfl, hscratch, hcause⟩
    · -- The settings are in effect already, and only the scratch file can be new.
      constructor
      · intro hsame
        have hcurrent : c = k.current := hsame.current
        exact .inr ⟨congrArg some hcurrent, hsame.scratch hscratch⟩
      · rintro (hc | ⟨hc, hbefore⟩)
        · cases hc
        · cases hc
          exact ⟨rfl, hpath, hplace, fun _ => hbefore⟩

/-- A keeper without settings in effect, at whose path a directory stands. -/
def blocked : Keeper := ⟨⟨"config.yaml", .directory, none⟩, []⟩

/-- Settings that can be written are not written where a directory stands. -/
theorem attempt_blocked (h : blocked.pending? r = some c)
    (hc : (Yaml.Library.dump (.map c)).2 = none) :
    ∃ k', blocked.attempt r = (k', some .isADirectory) ∧ k'.current = c := by
  have hwrite : ∃ s, blocked.store.write (.map c) = (s, some .isADirectory) := by
    unfold Store.write
    generalize Yaml.Library.dump (.map c) = d at hc ⊢
    obtain ⟨text, failure⟩ := d
    cases hc
    exact ⟨_, rfl⟩
  obtain ⟨s, hwrite⟩ := hwrite
  refine ⟨⟨s, c⟩, ?_, rfl⟩
  rw [attempt_of_pending h, hwrite]

end Keeper

end

namespace Keeper

/-- The defaults cannot be written where a directory stands, but they are in effect afterwards, and
the scratch file is there. A change that is no map is refused before anything happens. -/
theorem attempt_failed_blocked :
    (∃ k', blocked.attempt .load = (k', some .isADirectory) ∧ k'.current = defaults ∧
      k'.store.place = .directory ∧ k'.store.scratch.isSome = true) ∧
    ∃ k', blocked.attempt (.change .null) = (k', some .notAMap) ∧ k' = blocked := by
  constructor
  · have hpending : blocked.pending? .load = some defaults := rfl
    obtain ⟨k', hattempt, -⟩ := attempt_blocked hpending (by decide +kernel)
    obtain ⟨-, hplace, -, hwritten, -⟩ := attempt_failed hattempt
    obtain ⟨hcurrent, hscratch, -⟩ := hwritten defaults hpending
    exact ⟨k', hattempt, hcurrent, hplace, hscratch⟩
  · have hattempt : blocked.attempt (.change .null) = (blocked, some .notAMap) := rfl
    obtain ⟨-, -, hkept, -⟩ := attempt_failed hattempt
    exact ⟨blocked, hattempt, hkept rfl⟩

/-- A change that cannot be written, since a directory stands at the path, is in effect afterwards
where nothing was before. -/
theorem attempt_touching :
    ∃ k', blocked.attempt (.change (.map (Fields.ofList [("x", .int 1)]))) =
        (k', some .isADirectory) ∧
      blocked.current = [] ∧ k'.current = overlay defaults (Fields.ofList [("x", .int 1)]) ∧
      ¬ blocked.Untouched k' := by
  have hpending : blocked.pending? (.change (.map (Fields.ofList [("x", .int 1)]))) =
      some (overlay defaults (Fields.ofList [("x", .int 1)])) := rfl
  obtain ⟨k', hattempt, hcurrent⟩ := attempt_blocked hpending (by decide +kernel)
  refine ⟨k', hattempt, rfl, hcurrent, ?_⟩
  rintro ⟨hsame, -⟩
  rw [hcurrent] at hsame
  exact absurd hsame (by decide +kernel)

end Keeper

end Switchboard.Settings
