import Mathlib.Data.List.Induction
import Switchboard.Proofs.Table

/-!
# Merging tables

Laying one table over another goes through the entries of the second (`merge`). If its keys are told
apart, then the keys of the first table keep their places and the new ones of the second follow
(`keys_merge`), and at each key the values of both decide (`find?_merge`). So the same table may be
merged again (`merge_merge`), and tables without a common key in either order (`Apart.merge_perm`).

A key that is alike only to itself is `Sharp`.
-/

namespace Switchboard

namespace Table

variable {κ α : Type} [BEq κ]

/-! ## Keys that are alike only to themselves -/

/-- The key is like itself and like no other one. -/
structure Sharp (k : κ) : Prop where
  eq_of_beq : ∀ {k'}, (k' == k) = true → k' = k
  eq_of_beq' : ∀ {k'}, (k == k') = true → k' = k
  refl : (k == k) = true

/-- A sharp key is unlike every other one. -/
theorem Sharp.ne {k k' : κ} (h : Sharp k) (hne : k' ≠ k) : (k == k') = false :=
  Bool.eq_false_iff.mpr fun he => hne (h.eq_of_beq' he)

/-- What is unlike a sharp key is another one. -/
theorem Sharp.ne_of_unlike {k k' : κ} (h : Sharp k) (hne : (k' == k) = false) : k' ≠ k := by
  rintro rfl
  rw [h.refl] at hne
  cases hne

/-- At a sharp key only an entry of this key is found. -/
theorem Sharp.mem_of_find? {k : κ} (h : Sharp k) {a : α} {t : List (κ × α)}
    (ha : find? k t = some a) : (k, a) ∈ t := by
  obtain ⟨k', hin, hk'⟩ := exists_of_find? ha
  exact h.eq_of_beq hk' ▸ hin

/-- An entry of a sharp key is found, if the keys are told apart. -/
theorem Sharp.find?_of_mem {k : κ} (h : Sharp k) {a : α} {t : List (κ × α)} (ht : Distinct t)
    (ha : (k, a) ∈ t) : find? k t = some a := by
  induction t with
  | nil => cases ha
  | cons e t ih =>
    obtain ⟨hhead, htail⟩ := List.pairwise_cons.mp ht
    rcases List.mem_cons.mp ha with rfl | ha
    · simp [find?, h.refl]
    · have hne : (e.1 == k) = false := hhead k (List.mem_map_of_mem ha)
      simp [find?, hne, ih htail ha]

/-! ## Merging -/

/-- Goes through the entries of the second table and puts at their keys what comes of the value
there and theirs. -/
def merge (f : Option α → α → α) (t u : List (κ × α)) : List (κ × α) :=
  u.foldl (fun t e => put e.1 (f (find? e.1 t) e.2) t) t

variable {f : Option α → α → α} {t u : List (κ × α)}

/-- Putting all entries is merging with the later value. -/
theorem putAll_eq_merge (t u : List (κ × α)) : putAll t u = merge (fun _ a => a) t u := rfl

/-- One entry before others. -/
theorem merge_cons (f : Option α → α → α) (t : List (κ × α)) (e : κ × α) (u : List (κ × α)) :
    merge f t (e :: u) = merge f (put e.1 (f (find? e.1 t) e.2) t) u := rfl

/-- Entries after others. -/
theorem merge_append (f : Option α → α → α) (t u w : List (κ × α)) :
    merge f t (u ++ w) = merge f (merge f t u) w := List.foldl_append

/-- The keys of the first table keep their places. -/
theorem keys_prefix_merge (f : Option α → α → α) (t u : List (κ × α)) :
    keys t <+: keys (merge f t u) := by
  induction u using List.reverseRecOn with
  | nil => exact List.prefix_rfl
  | append_singleton u e ih =>
    rw [merge_append]
    exact ih.trans (keys_prefix_put _ _ _)

/-- Keys that are told apart stay so, whatever the second table is. -/
theorem Distinct.merge (h : Distinct t) (f : Option α → α → α) (u : List (κ × α)) :
    Distinct (merge f t u) := by
  induction u using List.reverseRecOn with
  | nil => exact h
  | append_singleton u e ih =>
    rw [merge_append]
    exact ih.put _ _

/-- The first entry stays as it is if no key is like its own. -/
theorem merge_of_head {k : κ} (h : ∀ k' ∈ keys u, (k == k') = false) (a : α) :
    merge f ((k, a) :: t) u = (k, a) :: merge f t u := by
  induction u generalizing t with
  | nil => rfl
  | cons e u ih =>
    have he : (k == e.1) = false := h e.1 List.mem_cons_self
    have hput (b : α) : put e.1 b ((k, a) :: t) = (k, a) :: put e.1 b t := by simp [put, he]
    have hfind : find? e.1 ((k, a) :: t) = find? e.1 t := by simp [find?, he]
    rw [merge_cons, merge_cons, hfind, hput, ih fun k hk => h k (List.mem_cons_of_mem _ hk)]

/-- If the keys of the first table begin the second one, then the second one gives the order, and
each value is merged with the one that the first has at its key. -/
theorem merge_of_begins (hf : ∀ a, f none a = a) (hu : Distinct u) (hp : keys t <+: keys u)
    (ht : ∀ k ∈ keys t, (k == k) = true) :
    merge f t u = u.map fun e => (e.1, f (find? e.1 t) e.2) := by
  induction u generalizing t with
  | nil =>
    rw [List.map_eq_nil_iff.mp (List.prefix_nil.mp hp)]
    rfl
  | cons e u ih =>
    obtain ⟨k, a⟩ := e
    obtain ⟨hhead, htail⟩ := List.pairwise_cons.mp hu
    cases t with
    | nil =>
      have hput : put k (f (find? k []) a) [] = [(k, a)] := by
        rw [find?, hf]
        rfl
      rw [merge_cons, hput, merge_of_head hhead,
        ih (t := []) htail List.nil_prefix fun _ hk => absurd hk List.not_mem_nil]
      simp [find?, hf]
    | cons e t =>
      obtain ⟨k', a'⟩ := e
      obtain ⟨hkey, hp'⟩ := List.cons_prefix_cons.mp hp
      have hkey : k' = k := hkey
      subst hkey
      have hself : (k' == k') = true := ht k' List.mem_cons_self
      have hput : put k' (f (find? k' ((k', a') :: t)) a) ((k', a') :: t) =
          (k', f (some a') a) :: t := by
        simp [put, find?, hself]
      -- The entries after the first one do not see it.
      have hrest : u.map (fun e => (e.1, f (find? e.1 ((k', a') :: t)) e.2)) =
          u.map fun e => (e.1, f (find? e.1 t) e.2) := by
        refine List.map_congr_left fun e he => ?_
        have hne : (k' == e.1) = false := hhead e.1 (List.mem_map_of_mem he)
        simp [find?, hne]
      rw [merge_cons, hput, merge_of_head hhead,
        ih htail hp' fun k hk => ht k (List.mem_cons_of_mem _ hk), List.map_cons, hrest]
      simp [find?, hself]

section

variable [EquivBEq κ]

/-- The keys of the first table keep their places, and the new ones of the second follow. -/
theorem keys_merge (f : Option α → α → α) (t : List (κ × α)) (hu : Distinct u) :
    keys (merge f t u) = keys t ++ (keys u).filter fun k => !has k t := by
  induction u generalizing t with
  | nil => exact (List.append_nil _).symm
  | cons e u ih =>
    obtain ⟨hhead, htail⟩ := List.pairwise_cons.mp hu
    -- The keys that follow are new or not, whether the first one has been put or not.
    have hlater (a : α) : (keys u).filter (fun k => !has k (put e.1 a t)) =
        (keys u).filter fun k => !has k t := by
      refine List.filter_congr fun k hk => ?_
      rw [has_put, hhead k hk, Bool.false_or]
    rw [merge_cons, ih _ htail, hlater, keys_put]
    show _ = keys t ++ (e.1 :: keys u).filter fun k => !has k t
    -- The first key is kept in its place or comes last.
    cases hk : has e.1 t with
    | true => simp [hk]
    | false => simp [hk]

/-- What is found after merging. -/
theorem find?_merge (k : κ) (f : Option α → α → α) (t : List (κ × α)) (hu : Distinct u) :
    find? k (merge f t u) = ((find? k u).map (f (find? k t))).or (find? k t) := by
  induction u generalizing t with
  | nil => rfl
  | cons e u ih =>
    obtain ⟨hhead, htail⟩ := List.pairwise_cons.mp hu
    rw [merge_cons, ih _ htail, find?_put, find?]
    split
    · rename_i hk
      -- No later entry is at a key like this one.
      have hlater : find? k u = none := by
        rw [← find?_congr hk]
        exact find?_eq_none.mpr fun k' hk' => BEq.symm_false (hhead k' hk')
      rw [hlater, find?_congr hk]
      rfl
    · rfl

/-- A key is there after merging if it is in one of the tables. -/
theorem has_merge (k : κ) (f : Option α → α → α) (t : List (κ × α)) (hu : Distinct u) :
    has k (merge f t u) = (has k u || has k t) := by
  rw [has, find?_merge k f t hu, Option.isSome_or, Option.isSome_map]
  rfl

/-- Merging with the same table again changes nothing if it changes no value. -/
theorem merge_merge (ht : Distinct t) (hu : Distinct u)
    (hf : ∀ k a, find? k u = some a → f (some (f (find? k t) a)) a = f (find? k t) a) :
    merge f (merge f t u) u = merge f t u := by
  have hm : Distinct (merge f t u) := ht.merge f u
  refine (hm.merge f u).ext hm ?_ fun k => ?_
  · -- All keys of the second table are there already.
    have hnone : (keys u).filter (fun k => !has k (merge f t u)) = [] :=
      List.filter_eq_nil_iff.mpr fun k hk => by simp [has_merge k f t hu, has_of_mem hk]
    rw [keys_merge f _ hu, hnone, List.append_nil]
  · rw [find?_merge k f _ hu, find?_merge k f t hu]
    cases ha : find? k u with
    | none => rfl
    | some a => exact congrArg some (hf k a ha)

/-- No key of the first table is in the second. -/
def Apart (t u : List (κ × α)) : Prop := ∀ k ∈ keys t, has k u = false

instance (t u : List (κ × α)) : Decidable (Apart t u) :=
  inferInstanceAs (Decidable (∀ k ∈ keys t, has k u = false))

/-- No key is found in both tables. -/
theorem Apart.find?_eq_none (h : Apart t u) (k : κ) : find? k t = none ∨ find? k u = none := by
  cases ha : find? k t with
  | none => exact .inl rfl
  | some a =>
    obtain ⟨k', hin, hk'⟩ := exists_of_find? ha
    rw [← find?_congr hk']
    exact .inr (has_eq_false.mp (h k' (List.mem_map_of_mem hin)))

/-- Nor is a key of the second table in the first. -/
theorem Apart.symm (h : Apart t u) : Apart u t := by
  intro k hk
  have hin : find? k u ≠ none := Option.isSome_iff_ne_none.mp (has_of_mem hk)
  exact has_eq_false.mpr ((h.find?_eq_none k).resolve_right hin)

/-- The new keys of both tables follow, if they are apart. -/
theorem Apart.keys_merge {w : List (κ × α)} (h : Apart u w) (f : Option α → α → α)
    (t : List (κ × α)) (hu : Distinct u) (hw : Distinct w) :
    keys (merge f (merge f t u) w) = keys t ++ (keys u).filter (fun k => !has k t) ++
      (keys w).filter fun k => !has k t := by
  have hnew : (keys w).filter (fun k => !has k (merge f t u)) =
      (keys w).filter fun k => !has k t :=
    List.filter_congr fun k hk => by rw [has_merge k f t hu, h.symm k hk, Bool.false_or]
  rw [Table.keys_merge f _ hw, hnew, Table.keys_merge f t hu]

/-- Tables that are apart are merged with a third one in either order, but for the order of what
comes of it. -/
theorem Apart.merge_perm {w : List (κ × α)} (h : Apart u w) (ht : Distinct t) (hu : Distinct u)
    (hw : Distinct w) : (merge f (merge f t u) w).Perm (merge f (merge f t w) u) := by
  refine ((ht.merge f u).merge f w).perm ((ht.merge f w).merge f u) ?_ fun k => ?_
  · rw [h.keys_merge f t hu hw, h.symm.keys_merge f t hw hu, List.append_assoc, List.append_assoc]
    exact List.perm_append_comm.append_left _
  · simp only [find?_merge k f _ hw, find?_merge k f _ hu]
    rcases h.find?_eq_none k with hk | hk
    · simp [hk]
    · simp [hk]

end

/-! ## Putting all entries of a table -/

/-- A table whose keys begin with those of another one is what comes of putting its entries
there. -/
theorem putAll_of_begins (hu : Distinct u) (hp : keys t <+: keys u)
    (ht : ∀ k ∈ keys t, (k == k) = true) : putAll t u = u := by
  rw [putAll_eq_merge, merge_of_begins (fun _ => rfl) hu hp ht]
  exact List.map_id u

/-- Without an entry of a sharp key no key of a table is like this one. -/
theorem Distinct.without {l r : List (κ × α)} {k : κ} {a : α} (hk : Sharp k)
    (h : Distinct (l ++ (k, a) :: r)) :
    Distinct (l ++ r) ∧ ∀ k' ∈ keys (l ++ r), (k == k') = false := by
  -- The entry splits the keys in two parts.
  have hkeys : keys (l ++ (k, a) :: r) = keys l ++ k :: keys r := List.map_append
  have hkeys' : keys (l ++ r) = keys l ++ keys r := List.map_append
  rw [Distinct, hkeys] at h
  obtain ⟨hl, hcons, hcross⟩ := List.pairwise_append.mp h
  obtain ⟨hhead, hr⟩ := List.pairwise_cons.mp hcons
  rw [Distinct, hkeys']
  refine ⟨List.pairwise_append.mpr ⟨hl, hr, fun k' hk' k'' hk'' => ?_⟩, fun k' hk' => ?_⟩
  · exact hcross k' hk' k'' (List.mem_cons_of_mem k hk'')
  · -- Being unlike goes both ways for a sharp key.
    rcases List.mem_append.mp hk' with hk' | hk'
    · exact hk.ne (hk.ne_of_unlike (hcross k' hk' k List.mem_cons_self))
    · exact hhead k' hk'

/-- A table that has all keys of another one, which are sharp, has the entries that come of putting
its own there, though perhaps in another order. -/
theorem putAll_perm (ht : ∀ k ∈ keys t, Sharp k) (hd : Distinct t) (hu : Distinct u)
    (hkeys : keys t ⊆ keys u) : (putAll t u).Perm u := by
  -- The induction is on the keys that `u` has to have; what is left of `u` loses one with each.
  induction t generalizing u with
  | nil =>
    have hnil : putAll ([] : List (κ × α)) u = u :=
      putAll_of_begins hu List.nil_prefix fun _ hk => absurd hk List.not_mem_nil
    rw [hnil]
  | cons e t ih =>
    obtain ⟨k, a⟩ := e
    have hsharp : Sharp k := ht k List.mem_cons_self
    obtain ⟨hhead, htail⟩ := List.pairwise_cons.mp hd
    obtain ⟨⟨k', b⟩, hb, rfl⟩ := List.mem_map.mp (hkeys List.mem_cons_self)
    obtain ⟨l, r, rfl⟩ := List.append_of_mem hb
    obtain ⟨hrest, hne⟩ := hu.without hsharp
    -- The entry of the first key goes to the front, and the others do not see it.
    have hl : ∀ k'' ∈ keys l, (k' == k'') = false := fun k'' hk'' =>
      hne k'' (List.map_subset _ (List.subset_append_left l r) hk'')
    have hr : ∀ k'' ∈ keys r, (k' == k'') = false := fun k'' hk'' =>
      hne k'' (List.map_subset _ (List.subset_append_right l r) hk'')
    have hput : put k' b ((k', a) :: merge (fun _ a => a) t l) =
        (k', b) :: merge (fun _ a => a) t l := by
      simp [put, hsharp.refl]
    have hputAll : putAll ((k', a) :: t) (l ++ (k', b) :: r) = (k', b) :: putAll t (l ++ r) := by
      simp only [putAll_eq_merge]
      rw [merge_append, merge_of_head hl, merge_cons, hput, merge_of_head hr, ← merge_append]
    have hsub : keys t ⊆ keys (l ++ r) := by
      intro k'' hk''
      have hin : k'' ∈ keys l ++ k' :: keys r :=
        (List.map_append : keys (l ++ (k', b) :: r) = _) ▸ hkeys (List.mem_cons_of_mem _ hk'')
      have hsharp'' : Sharp k'' := ht k'' (List.mem_cons_of_mem _ hk'')
      have hk : k'' ≠ k' := (hsharp''.ne_of_unlike (hhead k'' hk'')).symm
      simpa [keys, hk] using hin
    have hperm := ih (fun k hk => ht k (List.mem_cons_of_mem _ hk)) htail hrest hsub
    rw [hputAll]
    exact (hperm.cons _).trans List.perm_middle.symm

/-- So a table has all keys of another one if it has what comes of putting its entries there. -/
theorem keys_subset_of_putAll_perm (h : (putAll t u).Perm u) : keys t ⊆ keys u := by
  rw [putAll_eq_merge] at h
  exact List.Subset.trans (keys_prefix_merge _ t u).subset (h.map Prod.fst).subset

/-- The table of a list of pairs has keys that are told apart. -/
theorem distinct_ofList (es : List (κ × α)) : Distinct (ofList es) := by
  have hnil : Distinct ([] : List (κ × α)) := .nil
  exact hnil.merge (fun _ a => a) es

/-- The values that are left when one is put are those before, or this one too. -/
theorem mem_values_of_put {k : κ} {a b : α} {t : List (κ × α)} (h : b ∈ values (put k a t)) :
    b ∈ values t ∨ b = a := by
  induction t with
  | nil => exact .inr (List.mem_singleton.mp h)
  | cons e t ih =>
    unfold put at h
    split at h
    · rcases List.mem_cons.mp h with h | h
      · exact .inr h
      · exact .inl (List.mem_cons_of_mem _ h)
    · rcases List.mem_cons.mp h with h | h
      · exact .inl (h ▸ List.mem_cons_self)
      · exact (ih h).imp_left (List.mem_cons_of_mem _)

/-- The table of a list of pairs has no other values. -/
theorem values_ofList_subset (es : List (κ × α)) : values (ofList es) ⊆ values es := by
  induction es using List.reverseRecOn with
  | nil => exact List.nil_subset _
  | append_singleton es e ih =>
    intro b hb
    have hput : ofList (es ++ [e]) = put e.1 e.2 (ofList es) := by
      simp [ofList, putAll]
    have hvalues : values (es ++ [e]) = values es ++ [e.2] := List.map_append
    rw [hput] at hb
    rw [hvalues]
    rcases mem_values_of_put hb with hb | rfl
    · exact List.mem_append_left _ (ih hb)
    · exact List.mem_append_right _ List.mem_cons_self

end Table

end Switchboard
