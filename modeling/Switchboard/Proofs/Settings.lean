import Mathlib.Data.List.Forall2
import Switchboard.Proofs.Table.Merge
import Switchboard.Proofs.Value.Scalar
import Switchboard.Settings

/-!
# Settings laid over others

Laying settings over the defaults twice is laying them once (`overlay_overlay`). What is laid over
the defaults stays what it is, but for the order in which a section has its keys, exactly when no
section of it lacks a key that it has in the defaults (`alike_overlay_iff`).
-/

namespace Switchboard

namespace Settings

open Table

/-- A text is like no other key. -/
theorem sharp_text (s : String) : Sharp (Scalar.text s) where
  eq_of_beq {k} h := by
    cases k <;> simp_all [BEq.beq, Scalar.same, Scalar.integer?]
  eq_of_beq' {k} h := by
    cases k <;> simp_all [BEq.beq, Scalar.same, Scalar.integer?]
  refl := by simp [BEq.beq, Scalar.same]

/-- The keys of a table are texts and are told apart. -/
structure Named {α : Type} (t : List (Scalar × α)) : Prop where
  distinct : Distinct t
  texts : ∀ k ∈ keys t, ∃ s, k = .text s

/-- Keys that are texts are sharp. -/
theorem Named.sharp {α : Type} {t : List (Scalar × α)} (h : Named t) : ∀ k ∈ keys t, Sharp k := by
  intro k hk
  obtain ⟨s, rfl⟩ := h.texts k hk
  exact sharp_text s

/-! ## Regular settings -/

/-- The keys are told apart, those of the settings and those of each section. -/
structure Regular (c : Fields) : Prop where
  distinct : Distinct c
  sections : ∀ k es, (k, .map es) ∈ c → Distinct es

/-- What a value has to be for settings that hold it to be regular. -/
theorem regular_iff {c : Fields} :
    Regular c ↔ Distinct c ∧ ∀ e ∈ c, ∀ es ∈ e.2.fields?, Distinct es := by
  constructor
  · rintro ⟨hdistinct, hsections⟩
    refine ⟨hdistinct, fun ⟨k, v⟩ he es hes => ?_⟩
    cases v with
    | map es' =>
      cases hes
      exact hsections k es he
    | _ => cases hes
  · rintro ⟨hdistinct, hentries⟩
    exact ⟨hdistinct, fun k es he => hentries (k, .map es) he es rfl⟩

instance (c : Fields) : Decidable (Regular c) := decidable_of_iff _ regular_iff.symm

/-- The keys of a section that is found are told apart. -/
theorem Regular.distinct_of_find? {c es : Fields} {k : Scalar} (hc : Regular c)
    (h : find? k c = some (.map es)) : Distinct es := by
  obtain ⟨k', hin, -⟩ := exists_of_find? h
  exact hc.sections k' es hin

/-! ## The defaults -/

/-- The sections of the defaults have names. -/
theorem named_defaults : Named defaults :=
  ⟨by decide, by simp [defaults, Fields.ofList, keys]⟩

/-- Every default is a section, whose keys have names too. -/
theorem exists_section {k : Scalar} {v : Value} (h : (k, v) ∈ defaults) :
    ∃ ds, v = .map ds ∧ Named ds := by
  simp only [defaults, Fields.ofList, List.map_cons, List.map_nil, List.mem_cons, Prod.mk.injEq,
    List.not_mem_nil, or_false] at h
  rcases h with ⟨-, rfl⟩ | ⟨-, rfl⟩ | ⟨-, rfl⟩
  all_goals
    refine ⟨_, rfl, ?_, ?_⟩
    · decide
    · simp [keys]

/-- What is found in the defaults is a section, found at its own name. -/
theorem mem_of_find?_defaults {k : Scalar} {v : Value} (h : find? k defaults = some v) :
    (k, v) ∈ defaults := by
  obtain ⟨k', hin, hk'⟩ := exists_of_find? h
  have hsharp : Sharp k' := named_defaults.sharp k' (List.mem_map_of_mem hin)
  exact (hsharp.eq_of_beq' hk').symm ▸ hin

/-- A name of the defaults is like no other key. -/
theorem sharp_of_mem {k : Scalar} {v : Value} (h : (k, v) ∈ defaults) : Sharp k :=
  named_defaults.sharp k (List.mem_map_of_mem h)

/-! ## Settings that have grown from the defaults -/

/-- Laying settings over others merges them. -/
theorem overlay_eq_merge (base given : Fields) :
    overlay base given = merge overlayValue base given := rfl

/-- Settings whose keys are told apart and begin with those of the defaults. -/
structure Grown (c : Fields) : Prop where
  distinct : Distinct c
  begins : keys defaults <+: keys c

/-- The defaults have grown from themselves. -/
theorem grown_defaults : Grown defaults := ⟨named_defaults.distinct, List.prefix_rfl⟩

/-- Whatever is laid over grown settings, they have grown. -/
theorem Grown.overlay {c : Fields} (h : Grown c) (es : Fields) : Grown (overlay c es) :=
  ⟨h.distinct.merge _ es, h.begins.trans (keys_prefix_merge _ c es)⟩

/-- Laid over the defaults, grown settings keep their order, and each section of them gets the keys
that it lacks. -/
theorem Grown.overlay_defaults {c : Fields} (h : Grown c) :
    Settings.overlay defaults c =
      c.map fun e => (e.1, overlayValue (find? e.1 defaults) e.2) := by
  rw [overlay_eq_merge]
  exact merge_of_begins (fun _ => rfl) h.distinct h.begins
    fun k hk => (named_defaults.sharp k hk).refl

/-- What is found after settings are laid over others. -/
theorem find?_overlay (k : Scalar) (c : Fields) {es : Fields} (hes : Distinct es) :
    find? k (overlay c es) = ((find? k es).map (overlayValue (find? k c))).or (find? k c) :=
  find?_merge k overlayValue c hes

/-- Laid over a map, a map is put over it, and anything else is what is given. -/
theorem overlayValue_cases (old : Option Value) (v : Value) :
    (∃ es given, old = some (.map es) ∧ v = .map given ∧
      overlayValue old v = .map (putAll es given)) ∨
    (∀ es given, old = some (.map es) → v ≠ .map given) ∧ overlayValue old v = v := by
  unfold overlayValue
  split
  · rename_i es given
    exact .inl ⟨es, given, rfl, rfl, rfl⟩
  · rename_i hnot
    exact .inr ⟨fun es given hold hv => hnot es given hold hv, rfl⟩

/-- A map that comes of laying one value over another is put over a map, or it is what is given. -/
theorem overlayValue_eq_map {old : Option Value} {v : Value} {cs : Fields}
    (h : overlayValue old v = .map cs) :
    ∃ given, v = .map given ∧
      ((∃ es, old = some (.map es) ∧ cs = putAll es given) ∨
        (∀ es, old ≠ some (.map es)) ∧ cs = given) := by
  obtain ⟨es, given, hold, hv, hput⟩ | ⟨hnot, hgiven⟩ := overlayValue_cases old v
  · exact ⟨given, hv, .inl ⟨es, hold, (Value.map.inj (hput.symm.trans h)).symm⟩⟩
  · have hv : v = .map cs := hgiven.symm.trans h
    exact ⟨cs, hv, .inr ⟨fun es hold => hnot es cs hold hv, rfl⟩⟩

/-- The keys keep their places when entries are put. -/
theorem keys_prefix_putAll (es given : Fields) : keys es <+: keys (putAll es given) :=
  keys_prefix_merge (fun _ a => a) es given

/-- A section that comes of laying settings over the defaults begins with the keys that it has
there. -/
theorem section_overlay_defaults {es : Fields} (hes : Distinct es) {k : Scalar} {ds cs : Fields}
    -- The section is one of the defaults, under a key that is a text.
    (hk : (k, .map ds) ∈ defaults) (h : find? k (overlay defaults es) = some (.map cs)) :
    Distinct cs ∧ keys ds <+: keys cs := by
  have hsharp : Sharp k := sharp_of_mem hk
  obtain ⟨ds', hds, hnamed⟩ := exists_section hk
  cases hds
  have hd : find? k defaults = some (.map ds) := hsharp.find?_of_mem named_defaults.distinct hk
  rw [find?_overlay k defaults hes, hd] at h
  -- Left alone it is that of the defaults; given as a map it is merged with that.
  cases hv : find? k es with
  | none =>
    rw [hv] at h
    cases h
    exact ⟨hnamed.distinct, List.prefix_rfl⟩
  | some v =>
    rw [hv] at h
    obtain ⟨given, rfl, ⟨es', hes', rfl⟩ | ⟨hnot, -⟩⟩ := overlayValue_eq_map (Option.some.inj h)
    · cases hes'
      exact ⟨hnamed.distinct.merge (fun _ a => a) given, keys_prefix_putAll ds given⟩
    · exact absurd rfl (hnot ds)

/-- Settings that are laid over the defaults once need not be laid over them again. -/
theorem overlay_overlay {es : Fields} (hes : Distinct es) :
    overlay defaults (overlay defaults es) = overlay defaults es := by
  have hgrown : Grown (overlay defaults es) := grown_defaults.overlay es
  rw [hgrown.overlay_defaults]
  -- A section has its keys in the order of the defaults, so putting them there changes nothing.
  have hsame : ∀ e ∈ overlay defaults es, (e.1, overlayValue (find? e.1 defaults) e.2) = e := by
    rintro ⟨k, v⟩ he
    refine Prod.ext rfl ?_
    cases hd : find? k defaults with
    | none => rfl
    | some d =>
      have hmem := mem_of_find?_defaults hd
      obtain ⟨ds, rfl, hnamed⟩ := exists_section hmem
      cases v with
      | map cs =>
        obtain ⟨hdistinct, hbegins⟩ := section_overlay_defaults hes hmem
          ((sharp_of_mem hmem).find?_of_mem hgrown.distinct he)
        exact congrArg Value.map
          (putAll_of_begins hdistinct hbegins fun k hk => (hnamed.sharp k hk).refl)
      | _ => rfl
  exact (List.map_congr_left hsame).trans (List.map_id _)

/-! ## Sections that lack nothing -/

/-- No section of the settings lacks a key that it has in the defaults. -/
def Complete (c : Fields) : Prop :=
  ∀ k ds cs, (k, .map ds) ∈ defaults → find? k c = some (.map cs) → keys ds ⊆ keys cs

/-- What is laid over the defaults lacks nothing. -/
theorem complete_overlay_defaults {es : Fields} (hes : Distinct es) :
    Complete (overlay defaults es) := fun _ _ _ hk h =>
  (section_overlay_defaults hes hk h).2.subset

/-- The defaults lack nothing. -/
theorem complete_defaults : Complete defaults := by
  have hnil : Distinct ([] : Fields) := .nil
  exact complete_overlay_defaults hnil

/-- Changes give a section that is held as no map at most together with all keys that it has in the
defaults. -/
structure Thorough (c es : Fields) : Prop where
  distinct : Distinct es
  sections : ∀ k ds given, (k, .map ds) ∈ defaults → find? k es = some (.map given) →
    (∃ cs, find? k c = some (.map cs)) ∨ keys ds ⊆ keys given

/-- Thorough changes to settings that lack nothing leave them without lack. -/
theorem Complete.overlay {c es : Fields} (h : Complete c) (ht : Thorough c es) :
    Complete (overlay c es) := by
  intro k ds cs hk hfind
  rw [find?_overlay k c ht.distinct] at hfind
  -- A section that is not changed lacks nothing still.
  cases hv : find? k es with
  | none =>
    rw [hv] at hfind
    exact h k ds cs hk hfind
  | some v =>
    rw [hv] at hfind
    -- A map is merged with what was a map, or takes the place of something else with all its keys.
    obtain ⟨given, rfl, ⟨es', hold, rfl⟩ | ⟨hnot, rfl⟩⟩ :=
      overlayValue_eq_map (Option.some.inj hfind)
    · exact List.Subset.trans (h k ds es' hk hold) (keys_prefix_putAll es' given).subset
    · exact (ht.sections k ds cs hk hv).resolve_left fun ⟨cs', hold⟩ => hnot cs' hold

/-! ## The same settings -/

/-- The values are the same, but for the order of the entries if they are maps. -/
def AlikeValues : Value → Value → Prop
  | .map xs, .map ys => xs.Perm ys
  | v, w => v = w

/-- The settings are the same, but for the order in which their sections have their keys. -/
def Alike (a b : Fields) : Prop := List.Forall₂ (fun e e' => e.1 = e'.1 ∧ AlikeValues e.2 e'.2) a b

/-- Every value is like itself. -/
theorem AlikeValues.refl (v : Value) : AlikeValues v v := by
  cases v with
  | map es => exact List.Perm.refl es
  | _ => exact rfl

/-- Grown settings that are laid over the defaults stay what they are exactly when no section of
them lacks a key. -/
theorem alike_overlay_iff {c : Fields} (h : Grown c)
    (hc : ∀ k ds cs, (k, .map ds) ∈ defaults → (k, .map cs) ∈ c → Distinct cs) :
    Alike (overlay defaults c) c ↔ Complete c := by
  rw [Alike, h.overlay_defaults, List.forall₂_map_left_iff, List.forall₂_same]
  constructor
  · -- The settings are the same in a section only if that has all default keys.
    intro halike k ds cs hk hfind
    have hsharp := sharp_of_mem hk
    have hin := halike (k, .map cs) (hsharp.mem_of_find? hfind)
    rw [hsharp.find?_of_mem named_defaults.distinct hk] at hin
    exact keys_subset_of_putAll_perm hin.2
  · -- With all of them the defaults give a section nothing but their order.
    rintro hcomplete ⟨k, v⟩ he
    refine ⟨rfl, ?_⟩
    cases hd : find? k defaults with
    | none => exact AlikeValues.refl v
    | some d =>
      have hmem := mem_of_find?_defaults hd
      obtain ⟨ds, rfl, hnamed⟩ := exists_section hmem
      cases v with
      | map cs =>
        have hfind := (sharp_of_mem hmem).find?_of_mem h.distinct he
        exact putAll_perm hnamed.sharp hnamed.distinct (hc k ds cs hmem he)
          (hcomplete k ds cs hmem hfind)
      | _ => exact rfl

end Settings

end Switchboard
