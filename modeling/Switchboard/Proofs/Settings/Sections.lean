import Switchboard.Proofs.Settings.Loading
import Switchboard.Proofs.Settings.Overlay
import Switchboard.Session

/-!
# Sections that are left out or left empty

A section of the defaults that a file leaves out is that of the defaults, and one that it gives in
part is filled with them. A section that is left empty, a header with nothing under it, reads as
null. A keeper that is asked for it answers with the defaults, but null takes the place of the
section in the settings in effect. So a session cannot be made of settings whose section `gateway`
or `cache` is empty, and an empty section `logging` stays null in the session. In all other cases
the session has its sections filled, just as the keeper gives them (`section_filled`).
-/

namespace Switchboard

open Table

namespace Settings

variable {es ds : Fields}

/-! ## What is stated about a section -/

/-- A value is of the kind of a default. A truth value counts as an integer, too. -/
def isOfKind : Value → Value → Bool
  | .int _, .int _ | .int _, .bool _ | .bool _, .bool _ | .text _, .text _ => true
  | _, _ => false

/-- What may be stated about a section with the given defaults: nothing, null, or entries of which
those at the keys of the defaults are of their kinds. -/
inductive Stated (ds : Fields) : Option Value → Prop where
  | absent : Stated ds none
  | blank : Stated ds (some .null)
  | entries {given : Fields} (h : ∀ e ∈ ds, ∀ v ∈ find? e.1 given, isOfKind e.2 v = true) :
    Stated ds (some (.map given))

/-- Each section of the defaults is stated in one of these ways. -/
def Plain (es : Fields) : Prop := ∀ k ds, (k, .map ds) ∈ defaults → Stated ds (find? k es)

/-- The section of a name is left empty. -/
def Blank (es : Fields) (name : String) : Prop := find? (.text name) es = some .null

/-- The entries that are given for a section. -/
def entriesOf : Option Value → Fields
  | some (.map given) => given
  | _ => []

/-- A section is a map with, at each key of the defaults, the given value if there is one, and
otherwise the default. -/
def Filled (ds : Fields) (given : Option Value) (v : Value) : Prop :=
  ∃ cs, v = .map cs ∧ ∀ k d, (k, d) ∈ ds → find? k cs = some ((find? k (entriesOf given)).getD d)

/-- At a key of the defaults a section has a value of the kind of the default. -/
theorem Stated.isOfKind {given : Option Value} (h : Stated ds given) {k : Scalar} {d : Value}
    (hk : (k, d) ∈ ds) (hd : isOfKind d d = true) :
    isOfKind d ((find? k (entriesOf given)).getD d) = true := by
  cases h with
  | absent | blank => exact hd
  | @entries given h =>
    show Settings.isOfKind d ((find? k given).getD d) = true
    cases hv : find? k given with
    | none => exact hd
    | some v => exact h (k, d) hk v hv

/-- A value of the kind of integers is read as an integer. -/
theorem exists_toInteger {n : Int} {v : Value} (h : isOfKind (.int n) v = true) :
    ∃ m, v.toInteger = .ok m := by
  unfold isOfKind at h
  split at h
  · exact ⟨_, rfl⟩
  · exact ⟨_, rfl⟩
  · exact ⟨_, rfl⟩
  · rename_i hd
    cases hd
  · cases h

/-- The defaults have a section for the cache, with a capacity. -/
theorem exists_cache : ∃ ds, (.text "cache", .map ds) ∈ defaults ∧
    (.text "message_capacity", .int 1000) ∈ ds :=
  ⟨_, List.mem_cons_of_mem _ List.mem_cons_self, List.mem_cons_self⟩

/-- The defaults have a section for the gateway. -/
theorem exists_gateway : ∃ ds, (.text "gateway", .map ds) ∈ defaults := ⟨_, List.mem_cons_self⟩

/-! ## Sections in effect -/

/-- No section of the defaults is without entries. -/
theorem ne_nil_of_section {k : Scalar} (hk : (k, .map ds) ∈ defaults) : ds ≠ [] := by
  have hsections : ∀ e ∈ defaults, e.2.isGiven = true := by decide
  rintro rfl
  exact absurd (hsections _ hk) Bool.false_ne_true

/-- A section that is not left empty is in effect as a map, the defaults with what is given put over
them. -/
theorem find?_of_stated (hes : Regular es) {k : Scalar} (hk : (k, .map ds) ∈ defaults)
    (hs : Stated ds (find? k es)) (hne : find? k es ≠ some .null) :
    Distinct (entriesOf (find? k es)) ∧
      find? k (overlay defaults es) = some (.map (putAll ds (entriesOf (find? k es)))) := by
  -- The section is found in the defaults, under a key that is a text.
  have hd : find? k defaults = some (.map ds) :=
    (sharp_of_mem hk).find?_of_mem named_defaults.distinct hk
  rw [find?_overlay k defaults hes.distinct, hd]
  -- It is left out, or given as a map, since it is not left empty.
  cases hgiven : find? k es with
  | none => exact ⟨.nil, rfl⟩
  | some v =>
    rw [hgiven] at hs hne
    cases hs with
    | blank => exact absurd rfl hne
    | entries h => exact ⟨hes.distinct_of_find? hgiven, rfl⟩

/-- A section that is left empty is in effect as null. -/
theorem find?_of_blank (hes : Regular es) {k : Scalar} (h : find? k es = some .null) :
    find? k (overlay defaults es) = some .null := by
  rw [find?_overlay k defaults hes.distinct, h]
  cases find? k defaults with
  | none => rfl
  | some d => cases d <;> rfl

/-- The defaults with entries put over them are filled. -/
theorem filled_putAll {k : Scalar} (hk : (k, .map ds) ∈ defaults) {given : Option Value}
    (hgiven : Distinct (entriesOf given)) :
    Filled ds given (.map (putAll ds (entriesOf given))) := by
  obtain ⟨ds', hds, hnamed⟩ := exists_section hk
  cases hds
  refine ⟨_, rfl, fun key d hkey => ?_⟩
  have hd : find? key ds = some d :=
    (hnamed.sharp key (List.mem_map_of_mem hkey)).find?_of_mem hnamed.distinct hkey
  rw [(updated_putAll ds hgiven).find?_eq, hd]
  cases find? key (entriesOf given) <;> rfl

/-! ## Sections of a keeper -/

namespace Keeper

variable {k : Keeper}

/-- A section that has been left empty is null in effect, and the defaults are given for it. -/
theorem section?_of_blank (hc : k.current = overlay defaults es) (hes : Regular es) {name : String}
    (hk : (.text name, .map ds) ∈ defaults) (h : Blank es name) :
    k.current.get name = .null ∧ k.section? name = .map ds := by
  have hget : k.current.get name = .null := by
    rw [hc, Fields.get, find?_of_blank hes h, Option.getD_some]
  have hdefault : defaults.get name = .map ds := by
    rw [Fields.get, (sharp_of_mem hk).find?_of_mem named_defaults.distinct hk, Option.getD_some]
  refine ⟨hget, ?_⟩
  rw [section?, hget, hdefault]
  rfl

/-- Any other section is given as it is in effect. -/
theorem section?_of_stated (hc : k.current = overlay defaults es) (hes : Regular es) {name : String}
    (hk : (.text name, .map ds) ∈ defaults) (hs : Stated ds (find? (.text name) es))
    (hne : ¬ Blank es name) :
    k.section? name = k.current.get name ∧
      k.current.get name = .map (putAll ds (entriesOf (find? (.text name) es))) := by
  obtain ⟨-, hfind⟩ := find?_of_stated hes hk hs hne
  have hget : k.current.get name = .map (putAll ds (entriesOf (find? (.text name) es))) := by
    rw [hc, Fields.get, hfind, Option.getD_some]
  -- The section has at least the keys of the defaults, so it counts as given.
  have hgiven : (k.current.get name).isGiven = true := by
    have hkeys := (keys_prefix_putAll ds (entriesOf (find? (.text name) es))).subset
    rw [hget]
    cases hput : putAll ds (entriesOf (find? (.text name) es)) with
    | nil =>
      rw [hput] at hkeys
      exact absurd (List.map_eq_nil_iff.mp (List.subset_nil.mp hkeys)) (ne_nil_of_section hk)
    | cons e cs => rfl
  exact ⟨if_pos hgiven, hget⟩

/-- For each section of the defaults a filled one is given. -/
theorem filled_section? (hc : k.current = overlay defaults es) (hes : Regular es) {name : String}
    (hk : (.text name, .map ds) ∈ defaults) (hs : Stated ds (find? (.text name) es)) :
    Filled ds (find? (.text name) es) (k.section? name) := by
  by_cases hblank : Blank es name
  · have hnil : Distinct (entriesOf (some .null)) := .nil
    rw [(section?_of_blank hc hes hk hblank).2, hblank]
    exact filled_putAll hk hnil
  · obtain ⟨hsection, hget⟩ := section?_of_stated hc hes hk hs hblank
    rw [hsection, hget]
    exact filled_putAll hk (find?_of_stated hes hk hs hblank).1

end Keeper

end Settings

/-! ## Sections of a session -/

namespace Session

open Settings

variable {es : Fields}

/-- Settings that are a map are laid over the defaults. -/
theorem effective_map (es : Fields) : effective (.map es) = .ok (overlay defaults es) := by
  cases es with
  | nil => rfl
  | cons e es => rfl

/-- A section that is not left empty is read as a map with the values that are meant. -/
theorem sectionOf_of_stated (hes : Regular es) {ds : Fields} {name : String}
    (hk : (.text name, .map ds) ∈ defaults) (hs : Stated ds (find? (.text name) es))
    (hne : ¬ Blank es name) :
    ∃ cs, sectionOf (overlay defaults es) name = .ok cs ∧
      Filled ds (find? (.text name) es) (.map cs) := by
  obtain ⟨hdistinct, hfind⟩ := find?_of_stated hes hk hs hne
  refine ⟨_, ?_, filled_putAll hk hdistinct⟩
  rw [sectionOf, Fields.get, hfind, Option.getD_some]

/-- A section that is left empty cannot be read. -/
theorem sectionOf_of_blank (hes : Regular es) {name : String} (h : Blank es name) :
    sectionOf (overlay defaults es) name = .error .wrongKind := by
  rw [sectionOf, Fields.get, find?_of_blank hes h, Option.getD_some]

/-- Without the section of the cache there is no session. -/
theorem create_of_cache_error {f : Failure}
    (h : sectionOf (overlay defaults es) "cache" = .error f) :
    create (.map es) none = .error f := by
  unfold create
  rw [effective_map]
  dsimp only [bind, Except.bind]
  rw [h]

/-- With the section of the cache it depends on the other one. -/
theorem create_of_cache {cs : Fields} {capacity : Int}
    (h : sectionOf (overlay defaults es) "cache" = .ok cs)
    (hcapacity : (cs.get "message_capacity").toInteger = .ok capacity) :
    create (.map es) none = (sectionOf (overlay defaults es) "gateway").map fun gs =>
      { settings := overlay defaults es, cache := { capacity },
        handlers := .standard (gs.get "log_unknown_packets").isGiven } := by
  unfold create
  -- What is in effect is found section by section; only the other section can still fail.
  rw [effective_map]
  dsimp only [bind, Except.bind]
  rw [h]
  dsimp only
  rw [hcapacity]
  dsimp only
  cases sectionOf (overlay defaults es) "gateway" <;> rfl

/-- A session cannot be made of plain settings in which one of the two sections that it reads is
left empty, and of any other plain settings it can. -/
theorem create_of_plain (hes : Regular es) (hp : Plain es) :
    ((Blank es "cache" ∨ Blank es "gateway") ∧ create (.map es) none = .error .wrongKind) ∨
    ¬ (Blank es "cache" ∨ Blank es "gateway") ∧
      ∃ s, create (.map es) none = .ok s ∧ s.settings = overlay defaults es := by
  obtain ⟨ds, hcache, hdefault⟩ := exists_cache
  obtain ⟨ds', hgateway⟩ := exists_gateway
  by_cases hc : Blank es "cache"
  · exact .inl ⟨.inl hc, create_of_cache_error (sectionOf_of_blank hes hc)⟩
  have hstated := hp _ ds hcache
  obtain ⟨cs, hcs, cs', hmap, hfilled⟩ := sectionOf_of_stated hes hcache hstated hc
  cases hmap
  -- The capacity is given as a number, or it is that of the defaults.
  obtain ⟨capacity, hcapacity⟩ :
      ∃ capacity, (cs.get "message_capacity").toInteger = .ok capacity := by
    rw [Fields.get, hfilled _ _ hdefault, Option.getD_some]
    exact exists_toInteger (hstated.isOfKind hdefault rfl)
  rw [create_of_cache hcs hcapacity]
  by_cases hg : Blank es "gateway"
  · rw [sectionOf_of_blank hes hg]
    exact .inl ⟨.inr hg, rfl⟩
  · obtain ⟨gs, hgs, -⟩ := sectionOf_of_stated hes hgateway (hp _ ds' hgateway) hg
    rw [hgs]
    exact .inr ⟨not_or.mpr ⟨hc, hg⟩, _, rfl, rfl⟩

end Session

namespace Settings.Keeper

section

variable [Yaml.Library] {k : Keeper} {es : Fields}

/-- A session is made of the settings. Each section of the defaults is filled in it, and is what the
keeper gives once it has loaded the settings. -/
def Honoured (k : Keeper) (es : Fields) : Prop :=
  ∃ s, Session.create (.map es) none = .ok s ∧
    ∀ name ds, (.text name, .map ds) ∈ defaults →
      Filled ds (find? (.text name) es) (s.settings.get name) ∧
        k.load.keeper.section? name = s.settings.get name

/-- What comes of a section that is left empty is not as it should be. -/
theorem Honoured.not_blank (h : k.Honoured es) (hes : Regular es) (hp : Plain es) {name : String}
    {ds : Fields} (hin : (.text name, .map ds) ∈ defaults) : ¬ Blank es name := by
  obtain ⟨s, hs, hsections⟩ := h
  intro hblank
  obtain ⟨-, herror⟩ | ⟨-, s', hs', hsettings⟩ := Session.create_of_plain hes hp
  · rw [herror] at hs
    cases hs
  · rw [hs'] at hs
    cases hs
    -- A section that is null is not filled.
    obtain ⟨cs, hmap, -⟩ := (hsections name ds hin).1
    rw [hsettings, Fields.get, find?_of_blank hes hblank] at hmap
    cases hmap

/-- A file holds settings, with the keys of each map told apart, in which each section of the
defaults is left out, left empty, or a map whose values at the default keys are of the kinds of the
defaults. Then the keeper loads them and gives each section filled. A session cannot be made of them
if the section `cache` or `gateway` is left empty; otherwise it can, and it has the sections as the
keeper gives them, but for those that are left empty, which are null in it. So all is as it should
be exactly when no section is left empty. -/
theorem section_filled (ha : Yaml.KeysApart) (hk : k.store.Holds (.map es)) (hp : Plain es) :
    k.load.answer = .ok (overlay defaults es) ∧
      (∀ name ds, (.text name, .map ds) ∈ defaults →
        Filled ds (find? (.text name) es) (k.load.keeper.section? name)) ∧
      (Blank es "cache" ∨ Blank es "gateway" →
        Session.create (.map es) none = .error .wrongKind) ∧
      (¬ (Blank es "cache" ∨ Blank es "gateway") →
        ∃ s, Session.create (.map es) none = .ok s ∧
          ∀ name ds, (.text name, .map ds) ∈ defaults →
            (Blank es name → s.settings.get name = .null) ∧
            (¬ Blank es name → s.settings.get name = k.load.keeper.section? name)) ∧
      (k.Honoured es ↔ ∀ name ds, (.text name, .map ds) ∈ defaults → ¬ Blank es name) := by
  -- The keeper has in effect what it has loaded, and so every section filled.
  have hes := Store.regular_of_holds ha hk
  obtain ⟨hanswer, hkeeper⟩ := load_of_holds hk
  have hcurrent : k.load.keeper.current = overlay defaults es := by rw [hkeeper]
  have hfilled : ∀ name ds, (.text name, .map ds) ∈ defaults →
      Filled ds (find? (.text name) es) (k.load.keeper.section? name) := fun name ds hin =>
    filled_section? hcurrent hes hin (hp _ ds hin)
  -- A section that is left empty keeps the session from being made only if it reads that section.
  obtain ⟨hblank, herror⟩ | ⟨hne, s, hs, hsettings⟩ := Session.create_of_plain hes hp
  · refine ⟨hanswer, hfilled, fun _ => herror, fun hne => absurd hblank hne,
      fun h name ds hin => h.not_blank hes hp hin, fun hnone => ?_⟩
    obtain ⟨ds, hcache, -⟩ := exists_cache
    obtain ⟨ds', hgateway⟩ := exists_gateway
    exact (hblank.elim (hnone _ ds hcache) (hnone _ ds' hgateway)).elim
  · -- In the session a section is null or what it is in effect for the keeper.
    have hsections : ∀ name ds, (.text name, .map ds) ∈ defaults →
        (Blank es name → s.settings.get name = .null) ∧
        (¬ Blank es name → s.settings.get name = k.load.keeper.section? name) := by
      rw [hsettings, ← hcurrent]
      exact fun name ds hin =>
        ⟨fun hblank => (section?_of_blank hcurrent hes hin hblank).1, fun hblank =>
          (section?_of_stated hcurrent hes hin (hp _ ds hin) hblank).1.symm⟩
    refine ⟨hanswer, hfilled, fun hblank => absurd hblank hne, fun _ => ⟨s, hs, hsections⟩,
      fun h name ds hin => h.not_blank hes hp hin, fun hnone => ⟨s, hs, fun name ds hin => ?_⟩⟩
    rw [(hsections name ds hin).2 (hnone name ds hin)]
    exact ⟨hfilled name ds hin, rfl⟩

end

/-- A keeper of a file that leaves out the section of the cache and gives that of the gateway in
part, with an entry that the defaults do not have. -/
def sketch : Keeper :=
  ⟨⟨"config.yaml", .file (Octets.encode
    "logging:\n  level: DEBUG\ngateway:\n  shards: [0, 1]\n  workers: 8\n".toList), none⟩, []⟩

/-- The settings that the file gives. -/
def sketchSettings : Fields := Fields.ofList [
  ("logging", .map (Fields.ofList [("level", .text "DEBUG")])),
  ("gateway", .map (Fields.ofList [
    ("shards", .list [.int 0, .int 1]), ("workers", .int 8)]))]

/-- What is left out is filled, what is given is kept, and the keeper and the session agree. -/
theorem section_filled_sketch :
    Yaml.KeysApart ∧ sketch.store.Holds (.map sketchSettings) ∧ Plain sketchSettings ∧
      sketch.Honoured sketchSettings ∧
      sketch.load.keeper.section? "gateway" = .map (Fields.ofList [
        ("workers", .int 8), ("queue_size", .int 256), ("log_unknown_packets", .bool false),
        ("shards", .list [.int 0, .int 1])]) := by
  -- The file holds the sketch.
  have hk : sketch.store.Holds (.map sketchSettings) := by
    unfold Store.Holds
    decide +kernel
  -- Each section of it is a map or left out.
  have hp : Plain sketchSettings := by
    intro k ds hin
    simp only [defaults, Fields.ofList, List.map_cons, List.map_nil, List.mem_cons, Prod.mk.injEq,
      Value.map.injEq, List.not_mem_nil, or_false] at hin
    rcases hin with ⟨rfl, rfl⟩ | ⟨rfl, rfl⟩ | ⟨rfl, rfl⟩
    · exact .entries (by decide)
    · exact .absent
    · exact .entries (by decide)
  -- None is left empty.
  have hne : ∀ name ds, (.text name, .map ds) ∈ defaults → ¬ Blank sketchSettings name := by
    intro name ds _ hblank
    obtain ⟨k', hin, -⟩ := exists_of_find? hblank
    simp [sketchSettings, Fields.ofList] at hin
  obtain ⟨-, -, -, -, hhonoured⟩ := section_filled Yaml.keysApart_library hk hp
  refine ⟨Yaml.keysApart_library, hk, hp, hhonoured.mpr hne, ?_⟩
  rw [(load_of_holds hk).2, section?]
  rfl

/-- A keeper of a file with the header of a section and nothing under it. -/
def header (name : String) : Keeper :=
  ⟨⟨"config.yaml", .file (Octets.encode (name ++ ":\n").toList), none⟩, []⟩

/-- The settings that such a file gives. -/
def headerSettings (name : String) : Fields := [(.text name, .null)]

/-- They are plain. -/
theorem plain_header (name : String) : Plain (headerSettings name) := by
  intro k ds _
  unfold headerSettings find?
  split
  · exact .blank
  · exact .absent

/-- With an empty section for the cache no session can be made, and with one for the log it is null
in the session. The keeper gives the defaults for both. -/
theorem section_unfilled :
    ((header "cache").store.Holds (.map (headerSettings "cache")) ∧
      Session.create (.map (headerSettings "cache")) none = .error .wrongKind ∧
      (header "cache").load.keeper.section? "cache" = .map (Fields.ofList [
        ("message_capacity", .int 1000), ("message_max_age_seconds", .int 43200),
        ("sweep_interval_seconds", .int 60)]) ∧
      ¬ (header "cache").Honoured (headerSettings "cache")) ∧
    (header "logging").store.Holds (.map (headerSettings "logging")) ∧
      (∃ s, Session.create (.map (headerSettings "logging")) none = .ok s ∧
        s.settings.get "logging" = .null) ∧
      (header "logging").load.keeper.section? "logging" =
        .map (Fields.ofList [("level", .text "INFO")]) ∧
      ¬ (header "logging").Honoured (headerSettings "logging") := by
  -- Each of the two files holds one empty section.
  have hcache : (header "cache").store.Holds (.map (headerSettings "cache")) := by
    unfold Store.Holds
    decide +kernel
  have hlogging : (header "logging").store.Holds (.map (headerSettings "logging")) := by
    unfold Store.Holds
    decide +kernel
  -- The two sections are among the defaults.
  have hin : (.text "cache", .map _) ∈ defaults := List.mem_cons_of_mem _ List.mem_cons_self
  have hin' : (.text "logging", .map _) ∈ defaults :=
    List.mem_cons_of_mem _ (List.mem_cons_of_mem _ List.mem_cons_self)
  have hes := Store.regular_of_holds Yaml.keysApart_library hcache
  have hes' := Store.regular_of_holds Yaml.keysApart_library hlogging
  refine ⟨⟨hcache, ?_, ?_, fun h => h.not_blank hes (plain_header _) hin rfl⟩, hlogging,
    ⟨_, rfl, rfl⟩, ?_, fun h => h.not_blank hes' (plain_header _) hin' rfl⟩
  · exact Session.create_of_cache_error (Session.sectionOf_of_blank hes rfl)
  · rw [(load_of_holds hcache).2]
    exact (section?_of_blank rfl hes hin rfl).2
  · rw [(load_of_holds hlogging).2]
    exact (section?_of_blank rfl hes' hin' rfl).2

end Settings.Keeper

end Switchboard
