import Mathlib.Data.List.Flatten
import Switchboard.Proofs.Registry.Attached

/-!
# A registry is a list

A `Roll` keeps all live registrations in one list, in the order in which they were made, beside the
list of all that were ever made. It knows no files: a registration is found by its scope, its kind
and its listener, and it is taken back by its id. `Registry.Call` lists what can be asked of a
registry, `Enrolled` says that a registry has filed the registrations of a roll, and every call
keeps it so and is answered alike by both (`Enrolled.perform`). Hence a registry answers as its roll
does, whatever is asked of it and in whatever order, and what is found in it is what the roll says
(`Registry.answers_eq_roll`).
-/

namespace Switchboard

namespace Registry

/-- What can be asked of a registry. -/
inductive Call where
  | attach (scope : Scope) (kind : EventKind) (listener : Listener)
  | detach (known : Registration)
  | dropScope (scope : Scope)
  | clear
  deriving DecidableEq

/-- The answer to a call. -/
inductive Answer where
  | registration (reg : Registration)
  | count (n : Nat)
  | done
  deriving DecidableEq

/-- The registration that is handed in with a call. -/
def Call.known? : Call → Option Registration
  | detach known => some known
  | _ => none

/-- The answer of a registry to a call, and the registry after it. -/
def perform (r : Registry) : Call → Answer × Registry
  | .attach scope kind listener =>
    let (reg, r') := r.attach scope kind listener
    (.registration reg, r')
  | .detach known => (.done, r.detach known)
  | .dropScope scope =>
    let (n, r') := r.dropScope scope
    (.count n, r')
  | .clear => (.done, r.clear)

/-- The registry after some calls. -/
def performAll (r : Registry) (calls : List Call) : Registry :=
  calls.foldl (fun r call => (r.perform call).2) r

/-- The answers of a registry to some calls. -/
def answers (r : Registry) : List Call → List Answer
  | [] => []
  | call :: calls => (r.perform call).1 :: (r.perform call).2.answers calls

end Registry

/-- Where a registration is made. -/
def Registration.place (reg : Registration) : Scope × EventKind := (reg.scope, reg.kind)

@[simp] theorem Registration.place_fst (reg : Registration) : reg.place.1 = reg.scope := rfl

@[simp] theorem Registration.place_snd (reg : Registration) : reg.place.2 = reg.kind := rfl

/-- The live registrations in the order in which they were made, and all that were ever made. -/
structure Roll where
  live : List Registration := []
  made : List Registration := []

namespace Roll

/-- The live registrations at a scope for a kind. -/
def file (l : Roll) (scope : Scope) (kind : EventKind) : List Registration :=
  l.live.filter (·.place == (scope, kind))

/-- The answer of a roll to a call, and the roll after it. -/
def perform (l : Roll) : Registry.Call → Registry.Answer × Roll
  | .attach scope kind listener =>
    match l.live.find? fun reg => reg.place == (scope, kind) && reg.listener == listener with
    | some known => (.registration known, l)
    | none =>
      let fresh : Registration := ⟨l.made.length + 1, scope, kind, listener⟩
      (.registration fresh, ⟨l.live ++ [fresh], l.made ++ [fresh]⟩)
  | .detach known => (.done, { l with live := l.live.filter (·.id != known.id) })
  | .dropScope scope =>
    (.count (l.live.filter (·.scope == scope)).length,
      { l with live := l.live.filter (!·.scope == scope) })
  | .clear => (.done, { l with live := [] })

/-- The roll after some calls. -/
def performAll (l : Roll) (calls : List Registry.Call) : Roll :=
  calls.foldl (fun l call => (l.perform call).2) l

/-- The answers of a roll to some calls. -/
def answers (l : Roll) : List Registry.Call → List Registry.Answer
  | [] => []
  | call :: calls => (l.perform call).1 :: (l.perform call).2.answers calls

/-- Only registrations that were made are handed in, whether they are live or not. -/
def allows (l : Roll) : List Registry.Call → Bool
  | [] => true
  | call :: calls => call.known?.all l.made.contains && (l.perform call).2.allows calls

/-- Every registration that was made got the next number as its id, and the live ones are some of
them. -/
structure Sound (l : Roll) : Prop where
  numbered : l.made.map Registration.id = List.range' 1 l.made.length
  live : l.live.Sublist l.made

namespace Sound

variable {l : Roll}

/-- No registration has been made. -/
theorem empty : Sound {} := ⟨rfl, .refl _⟩

/-- Registrations are told apart by their ids. -/
theorem eq_of_id (h : l.Sound) {reg reg' : Registration} (hreg : reg ∈ l.made)
    (hreg' : reg' ∈ l.made) (hid : reg.id = reg'.id) : reg = reg' := by
  refine List.inj_on_of_nodup_map (f := Registration.id) ?_ hreg hreg' hid
  rw [h.numbered]
  exact List.nodup_range'

/-- No registration is live twice. -/
theorem nodup_live (h : l.Sound) : l.live.Nodup := by
  refine List.Nodup.sublist h.live (List.Nodup.of_map Registration.id ?_)
  rw [h.numbered]
  exact List.nodup_range'

/-- Some of the live registrations are left. -/
theorem filter (h : l.Sound) (p : Registration → Bool) : Sound { l with live := l.live.filter p } :=
  ⟨h.numbered, List.filter_sublist.trans h.live⟩

/-- A call leaves a roll sound. -/
theorem perform (h : l.Sound) (call : Registry.Call) : (l.perform call).2.Sound := by
  cases call with
  | attach scope kind listener =>
    simp only [Roll.perform]
    split
    · exact h
    · refine ⟨?_, h.live.append (.refl _)⟩
      simp [h.numbered, List.range'_concat, Nat.add_comm]
  | detach known => exact h.filter _
  | dropScope scope => exact h.filter _
  | clear => exact ⟨h.numbered, List.nil_sublist _⟩

end Sound

end Roll

/-! ## Files -/

namespace Registry

/-- What can be found in a registry whose files are distinct are its files. -/
theorem file_eq_of_mem {r : Registry} (hkeys : (Table.keys r.files).Nodup) {scope : Scope}
    {kind : EventKind} {regs : List Registration} (h : ((scope, kind), regs) ∈ r.files) :
    r.file scope kind = regs := by
  simp [file, Table.find?_of_mem hkeys h]

/-- A registration in a file is in one of the files. -/
theorem mem_files_of_mem_file {r : Registry} {scope : Scope} {kind : EventKind}
    {reg : Registration} (h : reg ∈ r.file scope kind) :
    ((scope, kind), r.file scope kind) ∈ r.files := by
  unfold file at h ⊢
  cases hf : Table.find? (scope, kind) r.files with
  | none => simp [hf] at h
  | some regs => exact Table.mem_of_find? hf

/-- What is at a scope for a kind is what is at the scope, without the other kinds. -/
theorem filter_kind {fs : List ((Scope × EventKind) × List Registration)}
    (hkeys : (Table.keys fs).Nodup) (hplace : ∀ f ∈ fs, ∀ reg ∈ f.2, reg.place = f.1)
    (scope : Scope) (kind : EventKind) :
    ((fs.filter (·.1.1 == scope)).flatMap Prod.snd).filter (·.kind == kind) =
      (Table.find? (scope, kind) fs).getD [] := by
  induction fs with
  | nil => rfl
  | cons f fs ih =>
    obtain ⟨⟨scope', kind'⟩, regs⟩ := f
    obtain ⟨hnew, hkeys⟩ := List.nodup_cons.mp hkeys
    have ih := ih hkeys fun f hf => hplace f (List.mem_cons_of_mem _ hf)
    have hkind (reg : Registration) (hreg : reg ∈ regs) : reg.kind = kind' :=
      congrArg Prod.snd (hplace _ List.mem_cons_self reg hreg)
    by_cases hscope : scope' = scope
    · subst hscope
      -- The first file is at the scope, so it counts if it is of the kind.
      rw [List.filter_cons_of_pos (by simp), List.flatMap_cons, List.filter_append, ih]
      by_cases hk : kind' = kind
      · -- The file is the one that is looked for, and there is no other one.
        subst hk
        have hrest : Table.find? (scope', kind') fs = none := Table.find?_eq_none_iff.mpr hnew
        rw [List.filter_eq_self.mpr fun reg hreg => by simp [hkind reg hreg], hrest]
        simp [Table.find?]
      · rw [List.filter_eq_nil_iff.mpr fun reg hreg => by simp [hkind reg hreg, hk]]
        simp [Table.find?, hk]
    · rw [List.filter_cons_of_neg (by simp [hscope]), ih]
      simp [Table.find?, hscope]

end Registry

/-- The registry has filed the live registrations of the roll. -/
structure Enrolled (r : Registry) (l : Roll) : Prop where
  sound : l.Sound
  orderly : r.Orderly
  next : r.nextId = l.made.length + 1
  /-- No place has two files. -/
  keys : (Table.keys r.files).Nodup
  /-- No file is empty. -/
  used : ∀ f ∈ r.files, f.2 ≠ []
  /-- A file holds what is live at its place. -/
  file : ∀ scope kind, r.file scope kind = l.file scope kind

namespace Enrolled

variable {r : Registry} {l : Roll}

/-- Nothing is registered. -/
theorem empty : Enrolled {} {} where
  sound := .empty
  orderly := .of_nil rfl
  next := rfl
  keys := List.nodup_nil
  used f hf := by cases hf
  file _ _ := rfl

/-- A registration in a file has the place of the file. -/
theorem place_of_mem (h : Enrolled r l) {f : (Scope × EventKind) × List Registration}
    (hf : f ∈ r.files) {reg : Registration} (hreg : reg ∈ f.2) : reg.place = f.1 := by
  have hfile := Registry.file_eq_of_mem h.keys hf
  rw [h.file] at hfile
  rw [← hfile] at hreg
  simpa using (List.mem_filter.mp hreg).2

/-- The registrations at a scope are those that are live there. -/
theorem mem_registrationsAt (h : Enrolled r l) {scope : Scope} {reg : Registration} :
    reg ∈ r.registrationsAt scope ↔ reg ∈ l.live ∧ reg.scope = scope := by
  constructor
  · intro hreg
    obtain ⟨f, hf, hreg⟩ := List.mem_flatMap.mp hreg
    obtain ⟨hf, hscope⟩ := List.mem_filter.mp hf
    -- The file in which the registration stands is that of its place.
    have hplace := h.place_of_mem hf hreg
    have hfile := Registry.file_eq_of_mem h.keys hf
    rw [h.file] at hfile
    rw [← hfile] at hreg
    refine ⟨(List.mem_filter.mp hreg).1, ?_⟩
    have hfirst := congrArg Prod.fst hplace
    exact hfirst.trans (by simpa using hscope)
  · -- A live registration stands in the file of its place.
    rintro ⟨hlive, rfl⟩
    have hfile : reg ∈ r.file reg.scope reg.kind := by
      rw [h.file]
      exact List.mem_filter.mpr ⟨hlive, by simp [Registration.place]⟩
    refine List.mem_flatMap.mpr ⟨_, List.mem_filter.mpr ⟨Registry.mem_files_of_mem_file hfile, ?_⟩,
      hfile⟩
    simp

/-- A registration is in one of the files when it is live. -/
theorem mem_all (h : Enrolled r l) {reg : Registration} : reg ∈ r.all ↔ reg ∈ l.live := by
  have hscope : reg ∈ r.all ↔ reg ∈ r.registrationsAt reg.scope := by
    constructor
    · intro hreg
      obtain ⟨f, hf, hreg⟩ := List.mem_flatMap.mp hreg
      refine List.mem_flatMap.mpr ⟨f, List.mem_filter.mpr ⟨hf, ?_⟩, hreg⟩
      simp [← h.place_of_mem hf hreg]
    · intro hreg
      obtain ⟨f, hf, hreg⟩ := List.mem_flatMap.mp hreg
      exact List.mem_flatMap.mpr ⟨f, (List.mem_filter.mp hf).1, hreg⟩
  rw [hscope, h.mem_registrationsAt, and_iff_left rfl]

/-- No two registrations in the files have the same id. -/
theorem nodup_ids (h : Enrolled r l) : (r.all.map Registration.id).Nodup := by
  have hin {reg : Registration} (hreg : reg ∈ r.all) : reg ∈ l.made :=
    h.sound.live.subset (h.mem_all.mp hreg)
  refine List.Nodup.map_on (fun reg hreg reg' hreg' => h.sound.eq_of_id (hin hreg) (hin hreg')) ?_
  refine List.nodup_flatMap.mpr ⟨fun f hf => ?_, ?_⟩
  · rw [← Registry.file_eq_of_mem h.keys hf, h.file]
    exact h.sound.nodup_live.filter _
  · -- Files at different places have nothing in common.
    refine (List.pairwise_map.mp h.keys).imp_of_mem fun {f g} hf hg hne reg hreg hreg' => hne ?_
    rw [← h.place_of_mem hf hreg, h.place_of_mem hg hreg']

/-- Nothing stands twice at a scope. -/
theorem nodup_registrationsAt (h : Enrolled r l) (scope : Scope) :
    (r.registrationsAt scope).Nodup :=
  h.nodup_ids.of_map.sublist (List.filter_sublist.flatMap Prod.snd)

/-- The registrations at a scope are as many as are live there. -/
theorem length_registrationsAt (h : Enrolled r l) (scope : Scope) :
    (r.registrationsAt scope).length = (l.live.filter (·.scope == scope)).length := by
  refine List.Perm.length_eq ((List.perm_ext_iff_of_nodup (h.nodup_registrationsAt scope)
    (h.sound.nodup_live.filter _)).mpr fun reg => ?_)
  rw [h.mem_registrationsAt, List.mem_filter, beq_iff_eq]

/-- Within a kind the registrations at a scope stand in the order in which they were made. -/
theorem filter_registrationsAt (h : Enrolled r l) (scope : Scope) (kind : EventKind) :
    (r.registrationsAt scope).filter (·.kind == kind) = l.file scope kind := by
  rw [← h.file]
  exact Registry.filter_kind h.keys (fun f hf reg hreg => h.place_of_mem hf hreg) scope kind

/-- Both find the same registration of a listener at a place. -/
theorem find?_listener (h : Enrolled r l) (scope : Scope) (kind : EventKind) (listener : Listener) :
    (r.file scope kind).find? (·.listener == listener) =
      l.live.find? fun reg => reg.place == (scope, kind) && reg.listener == listener := by
  rw [h.file, Roll.file, List.find?_filter]
  congr 1
  funext reg
  rw [Bool.decide_and, Bool.decide_coe, Bool.decide_coe]

/-- A new registration is made for a listener that is not attached at the place. -/
theorem attach_new (h : Enrolled r l) {scope : Scope} {kind : EventKind} {listener : Listener}
    (hnew : (r.file scope kind).find? (·.listener == listener) = none) :
    let fresh : Registration := ⟨l.made.length + 1, scope, kind, listener⟩
    r.attach scope kind listener =
        (fresh, ⟨Table.put (scope, kind) (r.file scope kind ++ [fresh]) r.files,
          l.made.length + 2⟩) ∧
      Enrolled (r.attach scope kind listener).2 ⟨l.live ++ [fresh], l.made ++ [fresh]⟩ := by
  intro fresh
  have hattach : r.attach scope kind listener =
      (fresh, ⟨Table.put (scope, kind) (r.file scope kind ++ [fresh]) r.files,
        l.made.length + 2⟩) := by
    simp only [Registry.attach, hnew, h.next, fresh]
  have horderly := h.orderly.attach scope kind listener
  have hsound := h.sound.perform (.attach scope kind listener)
  -- The roll looks for the listener among the registrations of the place, and finds none.
  rw [h.find?_listener] at hnew
  simp only [Roll.perform, hnew] at hsound
  refine ⟨hattach, hsound, horderly, ?_, ?_, ?_, fun scope' kind' => ?_⟩
  · simp [hattach]
  · rw [hattach]
    exact Table.nodup_keys_put h.keys
  · rw [hattach]
    intro f hf
    rcases Table.mem_of_mem_put hf with rfl | hf
    · simp
    · exact h.used f hf
  · -- The file of the place is one registration longer.
    rw [hattach, Registry.file_put, h.file, h.file]
    simp only [Roll.file, List.filter_append]
    split
    · rename_i hplace
      rw [hplace.1, hplace.2]
      simp [Registration.place, fresh]
    · rename_i hplace
      have hplace' : ¬(scope = scope' ∧ kind = kind') := fun he => hplace ⟨he.1.symm, he.2.symm⟩
      simp [Registration.place, fresh, hplace']

/-- A listener is attached. -/
theorem attach (h : Enrolled r l) (scope : Scope) (kind : EventKind) (listener : Listener) :
    (r.perform (.attach scope kind listener)).1 = (l.perform (.attach scope kind listener)).1 ∧
      Enrolled (r.perform (.attach scope kind listener)).2
        (l.perform (.attach scope kind listener)).2 := by
  -- A listener that is attached is answered with its registration, and nothing is made.
  cases hfind : (r.file scope kind).find? (·.listener == listener) with
  | some known =>
    have hroll := h.find?_listener scope kind listener
    rw [hfind] at hroll
    simp only [Registry.perform, Registry.attach, Roll.perform, hfind, ← hroll]
    exact ⟨trivial, h⟩
  | none =>
    obtain ⟨hattach, hnew⟩ := h.attach_new hfind
    rw [h.find?_listener] at hfind
    simp only [Registry.perform, Roll.perform, hfind]
    exact ⟨by rw [hattach], hnew⟩

/-- A registration is taken back. -/
theorem detach (h : Enrolled r l) {known : Registration} (hknown : known ∈ l.made) :
    Enrolled (r.detach known) { l with live := l.live.filter (·.id != known.id) } where
  sound := h.sound.filter _
  orderly := h.orderly.detach known
  next := by rw [Registry.detach_nextId, h.next]
  keys := by
    unfold Registry.detach
    dsimp only
    split
    · exact h.keys
    · split
      · exact h.keys.sublist (List.filter_sublist.map _)
      · exact Table.nodup_keys_put h.keys
  used f hf := by
    unfold Registry.detach at hf
    dsimp only at hf
    split at hf
    · exact h.used f hf
    · split at hf
      · exact h.used f (List.mem_of_mem_filter hf)
      · rename_i hrest
        rcases Table.mem_of_mem_put hf with rfl | hf
        · simpa using hrest
        · exact h.used f hf
  file scope kind := by
    rw [Registry.file_detach, h.file, h.file]
    simp only [Roll.file, List.filter_filter]
    split
    · rename_i hplace
      rw [hplace.1, hplace.2]
      exact List.filter_congr fun reg _ => Bool.and_comm _ _
    · rename_i hplace
      -- The id is that of one registration, and it stands elsewhere.
      refine List.filter_congr fun reg hreg => ?_
      by_cases hid : reg.id = known.id
      · rw [h.sound.eq_of_id (h.sound.live.subset hreg) hknown hid]
        have hplace' : ¬(known.scope = scope ∧ known.kind = kind) :=
          fun he => hplace ⟨he.1.symm, he.2.symm⟩
        simp [Registration.place, hplace']
      · simp [hid]

/-- A scope is dropped. -/
theorem dropScope (h : Enrolled r l) (scope : Scope) :
    Enrolled (r.dropScope scope).2 { l with live := l.live.filter (!·.scope == scope) } where
  sound := h.sound.filter _
  orderly := h.orderly.dropScopes [scope]
  next := h.next
  keys := h.keys.sublist (List.filter_sublist.map _)
  used f hf := h.used f (List.mem_of_mem_filter hf)
  file scope' kind' := by
    have hfile := r.file_dropScopes [scope] scope' kind'
    rw [h.file] at hfile
    refine hfile.trans ?_
    simp only [Roll.file, List.filter_filter, List.mem_singleton]
    -- Nothing of the scope is live any more, and no other place is touched.
    split
    · rename_i hscope
      subst hscope
      refine (List.filter_eq_nil_iff.mpr fun reg _ => ?_).symm
      by_cases hreg : reg.scope = scope' <;> simp [Registration.place, hreg]
    · rename_i hscope
      refine List.filter_congr fun reg _ => ?_
      by_cases hreg : reg.scope = scope' <;> simp [Registration.place, hreg, hscope]

/-- Everything is dropped. -/
theorem clear (h : Enrolled r l) : Enrolled r.clear { l with live := [] } where
  sound := ⟨h.sound.numbered, List.nil_sublist _⟩
  orderly := .of_nil rfl
  next := h.next
  keys := List.nodup_nil
  used f hf := by cases hf
  file _ _ := rfl

/-- A registry and its roll answer a call alike, and what the roll has then is filed. -/
theorem perform (h : Enrolled r l) {call : Registry.Call}
    (hknown : call.known?.all l.made.contains = true) :
    (r.perform call).1 = (l.perform call).1 ∧ Enrolled (r.perform call).2 (l.perform call).2 := by
  cases call with
  | attach scope kind listener => exact h.attach scope kind listener
  | detach known =>
    exact ⟨rfl, h.detach (by simpa [Registry.Call.known?] using hknown)⟩
  | dropScope scope =>
    exact ⟨congrArg Registry.Answer.count (h.length_registrationsAt scope), h.dropScope scope⟩
  | clear => exact ⟨rfl, h.clear⟩

/-- A registry and its roll answer all calls alike. -/
theorem performAll (h : Enrolled r l) {calls : List Registry.Call}
    (hcalls : l.allows calls = true) :
    r.answers calls = l.answers calls ∧ Enrolled (r.performAll calls) (l.performAll calls) := by
  induction calls generalizing r l with
  | nil => exact ⟨rfl, h⟩
  | cons call calls ih =>
    obtain ⟨hknown, hcalls⟩ := (Bool.and_eq_true _ _).mp hcalls
    obtain ⟨hanswer, hstep⟩ := h.perform hknown
    obtain ⟨hanswers, hrest⟩ := ih hstep hcalls
    exact ⟨by rw [Registry.answers, Roll.answers, hanswer, hanswers], hrest⟩

/-- Taking back a registration that is gone changes nothing. -/
theorem detach_gone (h : Enrolled r l) {known : Registration} (hknown : known ∈ l.made)
    (hgone : known ∉ l.live) : r.detach known = r := by
  unfold Registry.detach
  dsimp only
  split
  · rfl
  · rename_i regs hregs
    have hmem := Table.mem_of_find? hregs
    -- Nothing in the file has the id, so the file is put back as it was.
    have hrest : regs.filter (·.id != known.id) = regs := by
      refine List.filter_eq_self.mpr fun reg hreg => ?_
      have hlive : reg ∈ l.live := h.mem_all.mp (List.mem_flatMap.mpr ⟨_, hmem, hreg⟩)
      have hne : reg.id ≠ known.id := fun hid =>
        hgone (h.sound.eq_of_id (h.sound.live.subset hlive) hknown hid ▸ hlive)
      simpa using hne
    rw [hrest, if_neg (by simpa using h.used _ hmem), Table.put_of_find? hregs]

end Enrolled

/-- What is allowed from the start is allowed up to any point. -/
theorem Roll.allows_of_prefix {l : Roll} {sofar calls : List Registry.Call} (h : sofar <+: calls)
    (hcalls : l.allows calls = true) : l.allows sofar = true := by
  induction sofar generalizing l calls with
  | nil => rfl
  | cons call sofar ih =>
    obtain ⟨calls, rfl⟩ := h
    obtain ⟨hknown, hrest⟩ := (Bool.and_eq_true _ _).mp hcalls
    exact (Bool.and_eq_true _ _).mpr ⟨hknown, ih (List.prefix_append _ _) hrest⟩

namespace Registry

/-- What is found in the files of a registry is what a roll says. -/
structure Mirrors (r : Registry) (l : Roll) : Prop where
  /-- The listeners for a kind are those of the live registrations, in the order of the roll. -/
  listeners : ∀ scope kind,
    r.listenersAt scope kind = (l.file scope kind).map Registration.listener
  /-- The registrations at a scope are the live ones there. -/
  live : ∀ scope reg, reg ∈ r.registrationsAt scope ↔ reg ∈ l.live ∧ reg.scope = scope
  once : ∀ scope, (r.registrationsAt scope).Nodup
  /-- Within a kind they stand in the order of the roll. -/
  order : ∀ scope kind, (r.registrationsAt scope).filter (·.kind == kind) = l.file scope kind
  /-- No two registrations have the same id, wherever they are. -/
  ids : (r.all.map Registration.id).Nodup
  /-- No place has two files. -/
  places : (Table.keys r.files).Nodup
  /-- No file is empty. -/
  used : ∀ f ∈ r.files, f.2 ≠ []
  /-- A registration is in the file of its place. -/
  own : ∀ f ∈ r.files, ∀ reg ∈ f.2, reg.place = f.1
  /-- No file has a listener twice. -/
  distinct : ∀ f ∈ r.files, (f.2.map Registration.listener).Nodup
  /-- Taking back a registration that is gone changes nothing. -/
  gone : ∀ known ∈ l.made, known ∉ l.live → r.detach known = r

end Registry

/-- What is filed is found as the roll says. -/
theorem Enrolled.mirrors {r : Registry} {l : Roll} (h : Enrolled r l) : r.Mirrors l where
  listeners scope kind := by rw [Registry.listenersAt, h.file]
  live _ _ := h.mem_registrationsAt
  once := h.nodup_registrationsAt
  order := h.filter_registrationsAt
  ids := h.nodup_ids
  places := h.keys
  used := h.used
  own _ hf _ hreg := h.place_of_mem hf hreg
  distinct f hf := by
    have hlisteners := h.orderly.listeners f.1.1 f.1.2
    rwa [Registry.listenersAt, Registry.file_eq_of_mem h.keys hf] at hlisteners
  gone _ hknown hgone := h.detach_gone hknown hgone

/-- Whatever is asked of a registry, up to every point it has answered as the roll of its live
registrations, and what is found in it is what the roll says. Registrations may be taken back that
are gone already. -/
theorem Registry.answers_eq_roll {calls sofar : List Registry.Call}
    (hcalls : Roll.allows {} calls = true) (hsofar : sofar <+: calls) :
    Registry.answers {} sofar = Roll.answers {} sofar ∧
      (Registry.performAll {} sofar).Mirrors (Roll.performAll {} sofar) := by
  have h := Enrolled.empty.performAll (Roll.allows_of_prefix hsofar hcalls)
  exact ⟨h.1, h.2.mirrors⟩

/-- A listener is attached, twice so, taken back and attached again. The first registration is gone
then, and taking it back once more leaves the second one where it is. -/
theorem Registry.answers_eq_roll_stale :
    let first : Registration := ⟨1, .message 7, .reactionAdd, "a"⟩
    let second : Registration := ⟨2, .message 7, .reactionAdd, "a"⟩
    let calls : List Registry.Call :=
      [.attach (.message 7) .reactionAdd "a", .attach (.message 7) .reactionAdd "a",
        .detach first, .attach (.message 7) .reactionAdd "a", .detach first]
    Roll.allows {} calls = true ∧
      Registry.answers {} calls =
        [.registration first, .registration first, .done, .registration second, .done] ∧
      (Registry.performAll {} calls).listenersAt (.message 7) .reactionAdd = ["a"] := by
  intro first second calls
  -- The answers are those of the roll, which are closed terms.
  have hcalls : Roll.allows {} calls = true := by decide
  obtain ⟨hanswers, hmirrors⟩ := answers_eq_roll hcalls (List.prefix_refl calls)
  refine ⟨hcalls, hanswers.trans (by decide), (hmirrors.listeners _ _).trans (by decide)⟩

end Switchboard
