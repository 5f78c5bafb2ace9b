import Switchboard.Proofs.Settings.Loading

/-!
# Settings after a restart

A keeper writes its settings after every change, and a fresh keeper at the same path lays what it
reads over the defaults. If YAML reads what was written, the fresh keeper so has the settings of the
old one laid over the defaults (`Lasting`), which each request keeps (`lasting_load`,
`Lasting.change`). These are the same settings unless a section has come to lack keys, and it can
only do so by changes that put a map in the place of something else (`restarted_alike`).
-/

namespace Switchboard.Settings

open Table

namespace Keeper

section

variable [Yaml.Library] {k : Keeper}

/-! ## Requests -/

/-- What is asked of a keeper. -/
inductive Request where
  | load
  | change (changes : Value)

/-- A keeper serves a request, if it does not fail. -/
def serve (k : Keeper) : Request → Except Failure Keeper
  | .load => k.load.answer.map fun _ => k.load.keeper
  | .change v => (k.change v).answer.map fun _ => (k.change v).keeper

/-- A keeper serves requests one after another, if none fails. -/
def serveAll (k : Keeper) (rs : List Request) : Except Failure Keeper := rs.foldlM serve k

/-- The settings that a request brings into effect and then writes, if it comes so far. -/
def pending? (k : Keeper) : Request → Option Fields
  | .load =>
    match reception k.store.place.content? with
    | .reset => some defaults
    | .adopt _ | .refuse _ => none
  | .change (.map es) => some (overlay (if k.current.isEmpty then defaults else k.current) es)
  | .change _ => none

/-- Each request is as required when its turn comes. -/
def Along (P : Keeper → Request → Prop) (k : Keeper) : List Request → Prop
  | [] => True
  | r :: rs => P k r ∧ ∀ k', k.serve r = .ok k' → Along P k' rs

/-- YAML reads the settings that a request writes as they are. -/
def ReadsBack (k : Keeper) (r : Request) : Prop := ∀ c ∈ k.pending? r, Yaml.RoundTrips (.map c)

/-- Settings that are adopted are not written. -/
theorem readsBack_load_of_adopt {c : Fields} (h : reception k.store.place.content? = .adopt c) :
    k.ReadsBack .load := by
  intro c' hc'
  rw [pending?, h] at hc'
  cases hc'

/-- Changes are thorough. -/
def Careful (k : Keeper) : Request → Prop
  | .load => True
  | .change v => ∀ es, v = .map es → Thorough k.current es

/-- Settings that are loaded and changed are served. -/
theorem serveAll_load_change {c : Fields} {v : Value} (h : k.load.answer = .ok c)
    (h' : (k.load.keeper.change v).answer = .ok ()) :
    k.serveAll [.load, .change v] = .ok (k.load.keeper.change v).keeper :=
  bind_eq_ok.mpr ⟨_, map_eq_ok.mpr ⟨c, h, rfl⟩, bind_eq_ok.mpr
    ⟨_, map_eq_ok.mpr ⟨(), h', rfl⟩, rfl⟩⟩

/-- What is required of each request, if settings are loaded and changed. -/
theorem along_load_change {P : Keeper → Request → Prop} {v : Value} (h : P k .load)
    (h' : P k.load.keeper (.change v)) : k.Along P [.load, .change v] := by
  refine ⟨h, fun k₁ hk₁ => ?_⟩
  obtain ⟨c, -, rfl⟩ := map_eq_ok.mp hk₁
  exact ⟨h', fun _ _ => trivial⟩

/-! ## Settings that last -/

/-- A keeper whose settings have grown from the defaults. A fresh one at the same path has them laid
over the defaults. -/
structure Lasting (k : Keeper) : Prop where
  grown : Grown k.current
  sections : ∀ key ds cs, (key, .map ds) ∈ defaults → (key, .map cs) ∈ k.current → Distinct cs
  fresh : (load ⟨k.store, []⟩).answer = .ok (overlay defaults k.current)

/-- Grown settings that have been written last, if YAML reads them as they are. -/
theorem lasting_written (ha : Yaml.KeysApart) {s s' : Store} {c : Fields} (hc : Grown c)
    (hr : Yaml.RoundTrips (.map c)) (hw : s.write (.map c) = (s', none)) : Lasting ⟨s', c⟩ := by
  have hheld : s'.Holds (.map c) := Store.holds_of_write hr hw
  -- What is read back has come from a file, where the keys of each map are told apart.
  have hregular : Regular c := Store.regular_of_holds ha hheld
  have hadopt : reception s'.place.content? = .adopt (overlay defaults c) := by
    rw [hheld, reception]
  exact ⟨hc, fun key _ cs _ hin => hregular.sections key cs hin,
    (load_of_adopt (k := ⟨s', []⟩) hadopt).1⟩

/-- The settings of a keeper that has loaded them last, and they lack nothing. -/
theorem lasting_load (ha : Yaml.KeysApart) {c : Fields} (h : k.load.answer = .ok c)
    (hr : k.ReadsBack .load) : k.load.keeper.Lasting ∧ Complete k.load.keeper.current := by
  cases hrec : reception k.store.place.content? with
  | refuse f =>
    rw [(load_of_refuse hrec).1] at h
    cases h
  | reset =>
    -- After a reset the file holds the defaults.
    have hround : Yaml.RoundTrips (.map defaults) := hr defaults (by rw [pending?, hrec]; rfl)
    obtain ⟨hkeeper, hanswer⟩ := load_of_reset hrec
    rw [hanswer] at h
    rw [hkeeper]
    cases hw : k.store.write (.map defaults) with
    | mk s failure =>
      rw [hw] at h
      cases failure with
      | some f => cases h
      | none => exact ⟨lasting_written ha grown_defaults hround hw, complete_defaults⟩
  | adopt c =>
    -- The fresh keeper reads the same file.
    have hfresh : (load ⟨k.store, []⟩).answer = .ok c :=
      (load_of_adopt (k := ⟨k.store, []⟩) hrec).1
    rw [(load_of_adopt hrec).2]
    obtain ⟨es, hes, rfl⟩ := exists_of_adopt ha hrec
    have hgrown : Grown (overlay defaults es) := grown_defaults.overlay es
    refine ⟨⟨hgrown, fun key ds cs hkey hin => ?_, ?_⟩, complete_overlay_defaults hes.distinct⟩
    · have hfind := (sharp_of_mem hkey).find?_of_mem hgrown.distinct hin
      exact (section_overlay_defaults hes.distinct hkey hfind).1
    · rw [overlay_overlay hes.distinct]
      exact hfresh

/-- Changes that succeed are laid over the settings and written. -/
theorem change_ok (hk : k.current ≠ []) {v : Value} (h : (k.change v).answer = .ok ()) :
    ∃ es s, v = .map es ∧ k.store.write (.map (overlay k.current es)) = (s, none) ∧
      (k.change v).keeper = ⟨s, overlay k.current es⟩ := by
  unfold change at h ⊢
  cases v with
  | map es =>
    simp only [List.isEmpty_iff, hk, if_false] at h ⊢
    generalize hw : k.store.write (.map (overlay k.current es)) = w at h ⊢
    obtain ⟨s, f⟩ := w
    cases f with
    | some f => cases h
    | none => exact ⟨es, s, rfl, hw, rfl⟩
  | _ => cases h

/-- Grown settings are not empty. -/
theorem Lasting.current_ne_nil (hk : k.Lasting) : k.current ≠ [] := by
  intro hnil
  have hbegins := hk.grown.begins
  rw [hnil] at hbegins
  exact absurd (List.prefix_nil.mp hbegins) (by simp [keys, defaults, Fields.ofList])

/-- Settings that last still do after changes that are written, and lack nothing if the changes are
thorough. -/
theorem Lasting.change (ha : Yaml.KeysApart) (hk : k.Lasting) {v : Value}
    (h : (k.change v).answer = .ok ()) (hr : k.ReadsBack (.change v)) :
    (k.change v).keeper.Lasting ∧
      (Complete k.current → (∀ es, v = .map es → Thorough k.current es) →
        Complete (k.change v).keeper.current) := by
  obtain ⟨es, s, rfl, hw, hkeeper⟩ := change_ok hk.current_ne_nil h
  have hround : Yaml.RoundTrips (.map (overlay k.current es)) :=
    hr _ (by simp [pending?, hk.current_ne_nil])
  rw [hkeeper]
  exact ⟨lasting_written ha (hk.grown.overlay es) hround hw,
    fun hcomplete ht => hcomplete.overlay (ht es rfl)⟩

/-- What a request does to settings that last. -/
theorem Lasting.serve (ha : Yaml.KeysApart) (hk : k.Lasting) {r : Request} {k' : Keeper}
    (h : k.serve r = .ok k') (hr : k.ReadsBack r) :
    k'.Lasting ∧ (Complete k.current → k.Careful r → Complete k'.current) := by
  cases r with
  | load =>
    obtain ⟨c, hanswer, rfl⟩ := map_eq_ok.mp h
    obtain ⟨hlasting, hcomplete⟩ := lasting_load ha hanswer hr
    exact ⟨hlasting, fun _ _ => hcomplete⟩
  | change v =>
    obtain ⟨⟨⟩, hanswer, rfl⟩ := map_eq_ok.mp h
    exact hk.change ha hanswer hr

/-- What requests do to settings that last. -/
theorem Lasting.serveAll (ha : Yaml.KeysApart) (hk : k.Lasting) {rs : List Request} {k' : Keeper}
    (h : k.serveAll rs = .ok k') (hr : k.Along ReadsBack rs) :
    k'.Lasting ∧ (Complete k.current → k.Along Careful rs → Complete k'.current) := by
  -- That settings last carries the induction; completeness goes along with it.
  induction rs generalizing k with
  | nil =>
    cases h
    exact ⟨hk, fun hcomplete _ => hcomplete⟩
  | cons r rs ih =>
    obtain ⟨k₁, hserve, hrest⟩ := bind_eq_ok.mp h
    obtain ⟨hlasting, hcomplete⟩ := hk.serve ha hserve hr.1
    obtain ⟨hlasting', hcomplete'⟩ := ih hlasting hrest (hr.2 k₁ hserve)
    exact ⟨hlasting', fun hc hcareful =>
      hcomplete' (hcomplete hc hcareful.1) (hcareful.2 k₁ hserve)⟩

/-- A keeper loads its settings and serves any requests, loads or changes, none of which fails, and
the library, which tells the keys of a map apart, reads all settings as they were written. Then a
fresh keeper at the same path loads settings too: those of the first keeper laid over the defaults.
They are the same settings, but for the order in which the sections have their keys, exactly when
none of the defaults' sections lacks a key in the settings of the first keeper; and none does if the
changes have given a map for such a section, while it was held as something else, only with all its
keys. -/
theorem restarted_alike (ha : Yaml.KeysApart) {s : Store} {rs : List Request} {k : Keeper}
    (hrun : serveAll ⟨s, []⟩ (.load :: rs) = .ok k)
    (hread : Along ReadsBack ⟨s, []⟩ (.load :: rs)) :
    ∃ fresh, (load ⟨k.store, []⟩).answer = .ok fresh ∧ fresh = overlay defaults k.current ∧
      (Alike fresh k.current ↔ Complete k.current) ∧
      (Along Careful ⟨s, []⟩ (.load :: rs) → Alike fresh k.current) := by
  -- The first load brings settings that last and lack nothing.
  obtain ⟨k₁, hserve, hrest⟩ := bind_eq_ok.mp hrun
  obtain ⟨c, hanswer, hk₁⟩ := map_eq_ok.mp hserve
  obtain ⟨hlasting₁, hcomplete₁⟩ := lasting_load ha hanswer hread.1
  rw [hk₁] at hlasting₁ hcomplete₁
  -- The requests keep what lasts, as long as each write can be read.
  obtain ⟨hlasting, hcomplete⟩ := hlasting₁.serveAll ha hrest (hread.2 k₁ hserve)
  have hiff := alike_overlay_iff hlasting.grown hlasting.sections
  -- What a fresh keeper loads is laid over the defaults, so it is the same if nothing is lacking.
  exact ⟨_, hlasting.fresh, rfl, hiff, fun hcareful =>
    hiff.mpr (hcomplete hcomplete₁ (hcareful.2 k₁ hserve))⟩

end

/-- A store whose document gives the sections of the defaults as numbers. -/
def flatStore : Store :=
  ⟨"config.yaml", .file (Octets.encode "cache: 0\nlogging: 0\ngateway: 5\n".toList), none⟩

/-- The settings that it gives. -/
def flatSettings : Fields :=
  Fields.ofList [("cache", .int 0), ("logging", .int 0), ("gateway", .int 5)]

/-- A keeper adopts them. -/
theorem reception_flatStore :
    reception flatStore.place.content? = .adopt (overlay defaults flatSettings) := by
  have hheld : flatStore.place.content? = some (.ok (.map flatSettings)) := by decide +kernel
  rw [hheld, reception]

/-- So they are in effect once they are loaded, and loading writes nothing. -/
theorem load_flatStore :
    (load ⟨flatStore, []⟩).answer = .ok (overlay defaults flatSettings) ∧
      (load ⟨flatStore, []⟩).keeper = ⟨flatStore, overlay defaults flatSettings⟩ ∧
      ReadsBack ⟨flatStore, []⟩ .load := by
  obtain ⟨hanswer, hkeeper⟩ := load_of_adopt (k := ⟨flatStore, []⟩) reception_flatStore
  exact ⟨hanswer, hkeeper, readsBack_load_of_adopt reception_flatStore⟩

/-- A map for a section, with all keys of the section in another order. -/
def refilled : Value :=
  .map (Fields.ofList [("gateway", .map (Fields.ofList
    [("queue_size", .int 9), ("log_unknown_packets", .bool true), ("workers", .int 2)]))])

/-- The number of a section is replaced by a map with all keys of the section. The fresh keeper has
the same settings, with the keys of that section in the order of the defaults. -/
theorem restarted_alike_reordered : Yaml.KeysApart ∧ ∃ (k : Keeper) (fresh : Fields),
    serveAll ⟨flatStore, []⟩ [.load, .change refilled] = .ok k ∧
      Along ReadsBack ⟨flatStore, []⟩ [.load, .change refilled] ∧
      Along Careful ⟨flatStore, []⟩ [.load, .change refilled] ∧
      (load ⟨k.store, []⟩).answer = .ok fresh ∧ Alike fresh k.current ∧
      (k.current.get "gateway").fields?.map keys =
        some [.text "queue_size", .text "log_unknown_packets", .text "workers"] ∧
      (fresh.get "gateway").fields?.map keys =
        some [.text "workers", .text "queue_size", .text "log_unknown_packets"] := by
  obtain ⟨hanswer, hkeeper, hload⟩ := load_flatStore
  have hchange : ((load ⟨flatStore, []⟩).keeper.change refilled).answer = .ok () := by
    rw [hkeeper]
    decide +kernel
  have hround : (load ⟨flatStore, []⟩).keeper.ReadsBack (.change refilled) := by
    rw [hkeeper]
    rintro c ⟨⟩
    exact .of_text
      ("gateway:\n  queue_size: 9\n  log_unknown_packets: true\n  workers: 2\n" ++
        "cache: 0\nlogging: 0\n") (by decide +kernel) (by decide +kernel)
  have hrun := serveAll_load_change hanswer hchange
  have hread : Along ReadsBack ⟨flatStore, []⟩ [.load, .change refilled] :=
    along_load_change hload hround
  have hthorough (c es : Fields) (hes : refilled = .map es) : Thorough c es := by
    obtain rfl := Value.map.inj hes
    refine ⟨by decide, fun key ds given hkey hgiven => .inr ?_⟩
    -- Only one section is given, and it has three keys.
    obtain ⟨key', hin, hkey'⟩ := exists_of_find? hgiven
    cases List.mem_singleton.mp hin
    cases (sharp_text "gateway").eq_of_beq' hkey'
    obtain rfl := Value.map.inj (Option.some.inj
      (((sharp_text "gateway").find?_of_mem named_defaults.distinct hkey).symm.trans rfl))
    decide
  have hcareful : Along Careful ⟨flatStore, []⟩ [.load, .change refilled] :=
    along_load_change trivial (hthorough _)
  obtain ⟨fresh, hfresh, hoverlay, -, halike⟩ :=
    restarted_alike Yaml.keysApart_library hrun hread
  refine ⟨Yaml.keysApart_library, _, fresh, hrun, hread, hcareful, hfresh, halike hcareful, ?_, ?_⟩
  · rw [hkeeper]
    decide +kernel
  · rw [hoverlay, hkeeper]
    decide +kernel

/-- A map for a section that lacks keys of it. -/
def shortened : Value := .map (Fields.ofList [("gateway", .map (Fields.ofList
  [("workers", .int 2)]))])

/-- The number of a section is replaced by a map that lacks keys of the section. The fresh keeper
has those of the defaults, so not the settings of the first one. -/
theorem restarted_short : ∃ (k : Keeper) (fresh : Fields),
    serveAll ⟨flatStore, []⟩ [.load, .change shortened] = .ok k ∧
      Along ReadsBack ⟨flatStore, []⟩ [.load, .change shortened] ∧
      (load ⟨k.store, []⟩).answer = .ok fresh ∧ ¬ Alike fresh k.current ∧
      k.current.get "gateway" = .map (Fields.ofList [("workers", .int 2)]) ∧
      fresh.get "gateway" = .map (Fields.ofList
        [("workers", .int 2), ("queue_size", .int 256), ("log_unknown_packets", .bool false)]) := by
  -- The first load finds numbers in the place of all sections.
  obtain ⟨hanswer, hkeeper, hload⟩ := load_flatStore
  -- The change puts a map into the place of one of them, and is written and read back.
  have hchange : ((load ⟨flatStore, []⟩).keeper.change shortened).answer = .ok () := by
    rw [hkeeper]
    decide +kernel
  have hround : (load ⟨flatStore, []⟩).keeper.ReadsBack (.change shortened) := by
    rw [hkeeper]
    rintro c ⟨⟩
    exact .of_text "gateway:\n  workers: 2\ncache: 0\nlogging: 0\n" (by decide +kernel)
      (by decide +kernel)
  -- What is in effect then, and what a fresh keeper loads.
  have hcurrent : ((load ⟨flatStore, []⟩).keeper.change shortened).keeper.current =
      Fields.ofList [("gateway", .map (Fields.ofList [("workers", .int 2)])), ("cache", .int 0),
        ("logging", .int 0)] := by
    rw [hkeeper]
    decide +kernel
  have hfresh : (load ⟨((load ⟨flatStore, []⟩).keeper.change shortened).keeper.store, []⟩).answer =
      .ok (Fields.ofList [("gateway", .map (Fields.ofList [("workers", .int 2),
        ("queue_size", .int 256), ("log_unknown_packets", .bool false)])), ("cache", .int 0),
        ("logging", .int 0)]) := by
    rw [hkeeper]
    decide +kernel
  refine ⟨_, _, serveAll_load_change hanswer hchange, along_load_change hload hround,
    hfresh, fun halike => ?_, ?_, rfl⟩
  · -- The section has three keys instead of one.
    rw [hcurrent] at halike
    cases halike with
    | cons hfirst _ => exact absurd hfirst.2.length_eq (by decide)
  · rw [hcurrent]
    rfl

end Keeper

end Switchboard.Settings
