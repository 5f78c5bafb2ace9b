import Mathlib.Data.List.Nodup
import Switchboard.Proofs.Registry

/-!
# Who is attached at a scope

`Registry.file` after each operation: attaching a listener appends it to its file, unless it is
there already; taking a registration back takes its entry out. What is in one file does not depend
on the others. In a registry that is `Orderly` an entry of a file is told by its id as well as by
its listener, so taking a registration back is taking its listener out of the list
(`listenersAt_detach`), and a registration that is gone takes nothing along.
-/

namespace Switchboard.Registry

variable {r : Registry} {scope scope' : Scope} {kind kind' : EventKind} {listener : Listener}

/-! ## Files -/

/-- The file at a place after it was put there. -/
theorem file_put {r : Registry} {regs : List Registration} {nextId : Nat} :
    file ⟨Table.put (scope, kind) regs r.files, nextId⟩ scope' kind' =
      if scope' = scope ∧ kind' = kind then regs else r.file scope' kind' := by
  by_cases h : (scope', kind') = (scope, kind)
  · obtain ⟨rfl, rfl⟩ := Prod.mk.inj h
    simp [file]
  · rw [if_neg fun he => h (Prod.ext he.1 he.2)]
    simp only [file, Table.find?_put_of_ne h]

/-- Attaching a listener appends its registration to its file, unless it is attached already. -/
theorem file_attach (r : Registry) (scope : Scope) (kind : EventKind) (listener : Listener)
    (scope' : Scope) (kind' : EventKind) :
    (r.attach scope kind listener).2.file scope' kind' =
      if (scope' = scope ∧ kind' = kind) ∧ listener ∉ r.listenersAt scope kind then
        r.file scope kind ++ [⟨r.nextId, scope, kind, listener⟩]
      else r.file scope' kind' := by
  unfold attach
  split
  · rename_i known hknown
    -- A listener that is attached is found in the file.
    have hin : listener ∈ r.listenersAt scope kind :=
      List.mem_map.mpr ⟨known, List.mem_of_find?_eq_some hknown,
        by simpa using List.find?_some hknown⟩
    simp [hin]
  · rename_i hnone
    have hout : listener ∉ r.listenersAt scope kind := fun hin => by
      obtain ⟨reg, hreg, rfl⟩ := List.mem_map.mp hin
      simpa using List.find?_eq_none.mp hnone reg hreg
    dsimp only
    rw [file_put]
    simp only [hout, not_false_eq_true, and_true]

/-- Taking a registration back takes it out of its file. -/
theorem file_detach (r : Registry) (known : Registration) (scope' : Scope) (kind' : EventKind) :
    (r.detach known).file scope' kind' =
      if scope' = known.scope ∧ kind' = known.kind then
        (r.file known.scope known.kind).filter (·.id != known.id)
      else r.file scope' kind' := by
  unfold detach
  dsimp only
  split
  · -- Without a file there is nothing to take back.
    rename_i hnone
    have hempty : r.file known.scope known.kind = [] := by simp [file, hnone]
    split
    · rename_i hplace
      rw [hplace.1, hplace.2, hempty]
      rfl
    · rfl
  · rename_i regs hregs
    have hfile : r.file known.scope known.kind = regs := by simp [file, hregs]
    split
    · -- A file that would be empty is dropped, and reads as an empty one.
      rename_i hrest
      have hrest : regs.filter (·.id != known.id) = [] := List.isEmpty_iff.mp hrest
      by_cases h : (scope', kind') = (known.scope, known.kind)
      · obtain ⟨rfl, rfl⟩ := Prod.mk.inj h
        simp [file, hregs, hrest]
      · rw [if_neg fun he => h (Prod.ext he.1 he.2)]
        simp only [file, Table.find?_drop_of_ne h]
    · rw [hfile]
      exact file_put

/-- Dropping a scope empties its files. -/
theorem file_dropScopes (r : Registry) (scopes : List Scope) (scope : Scope) (kind : EventKind) :
    (r.dropScopes scopes).file scope kind = if scope ∈ scopes then [] else r.file scope kind := by
  simp only [file, find?_dropScopes]
  split <;> rfl

/-! ## Ids -/

/-- Dropping scopes gives out no id. -/
theorem dropScopes_nextId (r : Registry) (scopes : List Scope) :
    (r.dropScopes scopes).nextId = r.nextId := by
  unfold dropScopes
  induction scopes generalizing r with
  | nil => rfl
  | cons scope scopes ih => exact ih (r.dropScope scope).2

/-- Dropping scopes keeps the files at all other scopes. -/
theorem dropScopes_files (r : Registry) (scopes : List Scope) :
    (r.dropScopes scopes).files = r.files.filter fun f => !scopes.contains f.1.1 := by
  unfold dropScopes
  induction scopes generalizing r with
  | nil => exact (List.filter_eq_self.mpr fun _ _ => rfl).symm
  | cons scope scopes ih =>
    rw [List.foldl_cons, ih, dropScope, List.filter_filter]
    refine List.filter_congr fun f _ => ?_
    rw [List.contains_cons, Bool.not_or, Bool.and_comm]

/-- Dropping different scopes is the same when the same is found afterwards. -/
theorem dropScopes_ext {r : Registry} {scopes scopes' : List Scope}
    (h : ∀ x kind, Table.find? (x, kind) (r.dropScopes scopes).files =
      Table.find? (x, kind) (r.dropScopes scopes').files) :
    r.dropScopes scopes = r.dropScopes scopes' := by
  have hfiles : (r.dropScopes scopes).files = (r.dropScopes scopes').files := by
    rw [dropScopes_files, dropScopes_files]
    refine List.filter_congr fun f hf => ?_
    obtain ⟨⟨x, kind⟩, regs⟩ := f
    -- The file is there, so it is found unless its scope is dropped.
    have hfound : (Table.find? (x, kind) r.files).isSome :=
      Table.isSome_find?_iff.mpr (List.mem_map_of_mem (f := Prod.fst) hf)
    have hsame := congrArg Option.isSome (h x kind)
    rw [find?_dropScopes, find?_dropScopes] at hsame
    by_cases hx : x ∈ scopes <;> by_cases hx' : x ∈ scopes' <;> simp_all
  have hid := (dropScopes_nextId r scopes).trans (dropScopes_nextId r scopes').symm
  cases hdrop : r.dropScopes scopes
  cases hdrop' : r.dropScopes scopes'
  simp_all

/-- Taking a registration back gives out no id. -/
theorem detach_nextId (r : Registry) (known : Registration) :
    (r.detach known).nextId = r.nextId := by
  unfold detach
  dsimp only
  split
  · rfl
  · split <;> rfl

/-- Ids that were given out stay so when a listener is attached. -/
theorem nextId_le_attach (r : Registry) (scope : Scope) (kind : EventKind) (listener : Listener) :
    r.nextId ≤ (r.attach scope kind listener).2.nextId := by
  unfold attach
  split
  · exact Nat.le_refl _
  · exact Nat.le_succ _

/-! ## Order -/

/-- Within a file the ids are distinct and so are the listeners, and all ids were given out. -/
structure Orderly (r : Registry) : Prop where
  ids : ∀ scope kind, ((r.file scope kind).map Registration.id).Nodup
  listeners : ∀ scope kind, (r.listenersAt scope kind).Nodup
  given : ∀ scope kind, ∀ reg ∈ r.file scope kind, reg.id < r.nextId

namespace Orderly

/-- No registrations. -/
theorem of_nil (h : r.files = []) : r.Orderly := by
  have hfile (scope : Scope) (kind : EventKind) : r.file scope kind = [] := by simp [file, h]
  constructor <;> simp [listenersAt, hfile]

/-- Files lose entries. -/
theorem sublist (h : r.Orderly) {r' : Registry}
    (hfile : ∀ scope kind, (r'.file scope kind).Sublist (r.file scope kind))
    (hid : r.nextId ≤ r'.nextId) : r'.Orderly where
  ids scope kind := (h.ids scope kind).sublist ((hfile scope kind).map _)
  listeners scope kind := (h.listeners scope kind).sublist ((hfile scope kind).map _)
  given scope kind reg hreg := by
    have hlt := h.given scope kind reg ((hfile scope kind).subset hreg)
    omega

/-- Scopes are dropped. -/
theorem dropScopes (h : r.Orderly) (scopes : List Scope) : (r.dropScopes scopes).Orderly := by
  refine h.sublist (fun scope kind => ?_) (Nat.le_of_eq (dropScopes_nextId r scopes).symm)
  rw [file_dropScopes]
  split
  · exact List.nil_sublist _
  · exact .refl _

/-- A registration is taken back. -/
theorem detach (h : r.Orderly) (known : Registration) : (r.detach known).Orderly := by
  refine h.sublist (fun scope kind => ?_) (Nat.le_of_eq (detach_nextId r known).symm)
  rw [file_detach]
  split
  · rename_i hplace
    rw [hplace.1, hplace.2]
    exact List.filter_sublist
  · exact .refl _

/-- A listener is attached. -/
theorem attach (h : r.Orderly) (scope : Scope) (kind : EventKind) (listener : Listener) :
    (r.attach scope kind listener).2.Orderly := by
  have hnext := nextId_le_attach r scope kind listener
  -- The id of the new registration was not given out before, and it is now.
  have hnew (hout : listener ∉ r.listenersAt scope kind) :
      r.nextId < (r.attach scope kind listener).2.nextId := by
    unfold Registry.attach
    split
    · rename_i known hknown
      refine absurd (List.mem_map.mpr ⟨known, List.mem_of_find?_eq_some hknown, ?_⟩) hout
      simpa using List.find?_some hknown
    · exact Nat.lt_succ_self _
  constructor
  · intro scope' kind'
    rw [file_attach]
    split
    · rw [List.map_append]
      refine List.nodup_append.mpr ⟨h.ids scope kind, List.nodup_singleton _, ?_⟩
      intro x hx y hy hxy
      obtain ⟨reg, hreg, rfl⟩ := List.mem_map.mp hx
      have hlt := h.given scope kind reg hreg
      have hy' : y = r.nextId := by simpa using hy
      omega
    · exact h.ids scope' kind'
  · intro scope' kind'
    rw [listenersAt, file_attach]
    split
    · rename_i hplace
      rw [List.map_append]
      refine List.nodup_append.mpr ⟨h.listeners scope kind, List.nodup_singleton _, ?_⟩
      intro x hx y hy hxy
      have hy' : y = listener := by simpa using hy
      exact hplace.2 (hy' ▸ hxy ▸ hx)
    · exact h.listeners scope' kind'
  · intro scope' kind' reg hreg
    rw [file_attach] at hreg
    split at hreg
    · rename_i hplace
      rcases List.mem_append.mp hreg with hreg | hreg
      · exact Nat.lt_of_lt_of_le (h.given scope kind reg hreg) hnext
      · rw [List.mem_singleton.mp hreg]
        exact hnew hplace.2
    · exact Nat.lt_of_lt_of_le (h.given scope' kind' reg hreg) hnext

end Orderly

/-! ## Listeners -/

/-- Attaching a listener appends it to the list at its place, unless it is there already. -/
theorem listenersAt_attach (r : Registry) (scope : Scope) (kind : EventKind) (listener : Listener)
    (scope' : Scope) (kind' : EventKind) :
    (r.attach scope kind listener).2.listenersAt scope' kind' =
      if (scope' = scope ∧ kind' = kind) ∧ listener ∉ r.listenersAt scope kind then
        r.listenersAt scope kind ++ [listener]
      else r.listenersAt scope' kind' := by
  rw [listenersAt, file_attach]
  split
  · rw [List.map_append]
    rfl
  · rfl

/-- Taking back a registration takes its listener out of the list at its place. -/
theorem listenersAt_detach (h : r.Orderly) {known : Registration}
    (hknown : known ∈ r.file known.scope known.kind) (scope : Scope) (kind : EventKind) :
    (r.detach known).listenersAt scope kind =
      if scope = known.scope ∧ kind = known.kind then
        (r.listenersAt known.scope known.kind).filter (· != known.listener)
      else r.listenersAt scope kind := by
  have hids := h.ids known.scope known.kind
  have hlisteners := h.listeners known.scope known.kind
  rw [listenersAt, file_detach]
  split
  · rw [listenersAt, List.filter_map]
    congr 1
    -- Within the file an entry with the id is the one with the listener.
    refine List.filter_congr fun reg hreg => ?_
    have hid : reg.id = known.id ↔ reg = known :=
      ⟨fun he => List.inj_on_of_nodup_map hids hreg hknown he, fun he => he ▸ rfl⟩
    have hlistener : reg.listener = known.listener ↔ reg = known :=
      ⟨fun he => List.inj_on_of_nodup_map hlisteners hreg hknown he, fun he => he ▸ rfl⟩
    simp only [Function.comp_apply, bne, Bool.beq_eq_decide_eq, hid, hlistener]
  · rfl

/-- Taking back a registration that is gone changes nothing for anybody. -/
theorem listenersAt_detach_gone {known : Registration}
    (hgone : known.id ∉ (r.file known.scope known.kind).map Registration.id) (scope : Scope)
    (kind : EventKind) : (r.detach known).listenersAt scope kind = r.listenersAt scope kind := by
  rw [listenersAt, file_detach]
  split
  · rename_i hplace
    rw [hplace.1, hplace.2, listenersAt, List.filter_eq_self.mpr]
    intro reg hreg
    have hne : reg.id ≠ known.id := fun he => hgone (he ▸ List.mem_map_of_mem hreg)
    simpa using hne
  · rfl

end Switchboard.Registry
