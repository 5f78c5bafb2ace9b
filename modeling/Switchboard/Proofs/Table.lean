import Mathlib.Data.List.Nodup
import Switchboard.Table

/-!
# What the operations on tables do

`find?` is the view of a table: each operation is described by what it finds, and by the keys it
leaves in which order. Keys are told apart by `==`, which need not be equality: as settings have it,
`1` and `true` are one key. A table whose keys are told apart (`Distinct`) is its keys in their
order with what is found at each (`Distinct.filterMap_keys`), so this is all there is to know about
it.

The keys of a table that is built from the empty one by `put`, `putLast` and `drop` are distinct;
`Filed` says so, and that every value stands under a key of its own, which is how entities are kept
by their ids and reactions by their emojis.
-/

namespace Switchboard.Table

variable {κ α β : Type}

section

variable [BEq κ]

/-! ## Keys that are alike -/

@[simp] theorem find?_nil (k : κ) : find? k ([] : List (κ × α)) = none := rfl

/-- Nothing is found at a key exactly when no key of the table is like it. -/
theorem find?_eq_none {k : κ} {t : List (κ × α)} :
    find? k t = none ↔ ∀ k' ∈ keys t, (k' == k) = false := by
  induction t with
  | nil => exact iff_of_true rfl fun _ hk => absurd hk List.not_mem_nil
  | cons e t ih =>
    unfold find?
    -- The first entry is found, or the search goes on behind it.
    split
    · rename_i he
      exact iff_of_false nofun fun h => by simp [h e.1 List.mem_cons_self] at he
    · rename_i he
      rw [ih]
      have hhead : (e.1 == k) = false := Bool.eq_false_iff.mpr he
      exact ⟨fun h => List.forall_mem_cons.mpr ⟨hhead, h⟩,
        fun h k' hk' => h k' (List.mem_cons_of_mem _ hk')⟩

/-- What is found is at a key like the one that is asked for. -/
theorem exists_of_find? {k : κ} {a : α} {t : List (κ × α)} (h : find? k t = some a) :
    ∃ k', (k', a) ∈ t ∧ (k' == k) = true := by
  induction t with
  | nil => cases h
  | cons e t ih =>
    unfold find? at h
    split at h
    · rename_i he
      cases h
      exact ⟨e.1, List.mem_cons_self, he⟩
    · obtain ⟨k', hin, hk'⟩ := ih h
      exact ⟨k', List.mem_cons_of_mem _ hin, hk'⟩

/-- A key is not there when nothing is found at it. -/
theorem has_eq_false {k : κ} {t : List (κ × α)} : has k t = false ↔ find? k t = none := by
  rw [has, Option.isSome_eq_false_iff, Option.isNone_iff_eq_none]

/-- A key of a table is there. -/
theorem has_of_mem [ReflBEq κ] {k : κ} {t : List (κ × α)} (h : k ∈ keys t) : has k t = true := by
  refine Option.isSome_iff_ne_none.mpr fun hnone => ?_
  have hne := find?_eq_none.mp hnone k h
  rw [BEq.rfl] at hne
  cases hne

/-- A key that is there keeps its place when it is given a value, and another one comes last. -/
theorem keys_put (k : κ) (a : α) (t : List (κ × α)) :
    keys (put k a t) = if has k t then keys t else keys t ++ [k] := by
  induction t with
  | nil => rfl
  | cons e t ih =>
    unfold put has find?
    split
    · rfl
    · show e.1 :: keys (put k a t) = _
      rw [ih]
      unfold has
      split <;> rfl

/-- The keys that are left when a value is put are those before, or the new one too. -/
theorem mem_keys_of_put {k k' : κ} {a : α} {t : List (κ × α)} (h : k' ∈ keys (put k a t)) :
    k' ∈ keys t ∨ k' = k := by
  rw [keys_put] at h
  split at h
  · exact .inl h
  · exact (List.mem_append.mp h).imp_right List.mem_singleton.mp

/-- The keys keep their places when a value is put. -/
theorem keys_prefix_put (k : κ) (a : α) (t : List (κ × α)) : keys t <+: keys (put k a t) := by
  rw [keys_put]
  split
  · exact List.prefix_rfl
  · exact List.prefix_append _ _

/-- Dropping a key leaves the other keys in their order. -/
theorem keys_drop (k : κ) (t : List (κ × α)) : keys (drop k t) = (keys t).filter (!· == k) := by
  simp only [keys, drop, List.filter_map]
  rfl

/-- No key is like one before it. -/
def Distinct (t : List (κ × α)) : Prop := (keys t).Pairwise fun k k' => (k == k') = false

instance (t : List (κ × α)) : Decidable (Distinct t) :=
  inferInstanceAs (Decidable (List.Pairwise _ _))

/-- Keys that are told apart stay so when a value is put. -/
theorem Distinct.put {t : List (κ × α)} (h : Distinct t) (k : κ) (a : α) :
    Distinct (put k a t) := by
  induction t with
  | nil => exact List.pairwise_singleton _ _
  | cons e t ih =>
    obtain ⟨hhead, htail⟩ := List.pairwise_cons.mp h
    -- The key is that of the first entry, or goes into the rest.
    unfold Table.put
    split
    · exact h
    · rename_i hk
      refine List.pairwise_cons.mpr ⟨fun k' hk' => ?_, ih htail⟩
      rcases mem_keys_of_put hk' with hk' | rfl
      · exact hhead k' hk'
      · exact Bool.eq_false_iff.mpr hk

/-- A table whose keys are told apart is its keys, each with what is found there. -/
theorem Distinct.filterMap_keys [ReflBEq κ] {t : List (κ × α)} (h : Distinct t) :
    (keys t).filterMap (fun k => (find? k t).map (Prod.mk k)) = t := by
  induction t with
  | nil => rfl
  | cons e t ih =>
    obtain ⟨hhead, htail⟩ := List.pairwise_cons.mp h
    -- The first entry is found at its own key and is not seen from the others.
    have hfirst : find? e.1 (e :: t) = some e.2 := by simp [find?]
    have hrest : ∀ k ∈ keys t, (find? k (e :: t)).map (Prod.mk k) = (find? k t).map (Prod.mk k) :=
      fun k hk => by simp [find?, hhead k hk]
    show (e.1 :: keys t).filterMap _ = _
    rw [List.filterMap_cons, hfirst, List.filterMap_congr hrest, ih htail]
    rfl

/-- Tables in which the same is found, with the same keys in the same order, are the same. -/
theorem Distinct.ext [ReflBEq κ] {t u : List (κ × α)} (ht : Distinct t) (hu : Distinct u)
    (hkeys : keys t = keys u) (hfind : ∀ k, find? k t = find? k u) : t = u := by
  rw [← ht.filterMap_keys, ← hu.filterMap_keys, hkeys]
  simp only [hfind]

/-- Tables in which the same is found, with the same keys, are the same but for the order. -/
theorem Distinct.perm [ReflBEq κ] {t u : List (κ × α)} (ht : Distinct t) (hu : Distinct u)
    (hkeys : (keys t).Perm (keys u)) (hfind : ∀ k, find? k t = find? k u) : t.Perm u := by
  rw [← ht.filterMap_keys, ← hu.filterMap_keys]
  simp only [hfind]
  exact hkeys.filterMap _

section

variable [EquivBEq κ]

/-- The same is found at keys that are alike. -/
theorem find?_congr {k k' : κ} (h : (k == k') = true) (t : List (κ × α)) :
    find? k t = find? k' t := by
  induction t with
  | nil => rfl
  | cons e t ih =>
    have hsame : (e.1 == k) = (e.1 == k') := BEq.congr_right h
    rw [find?, find?, hsame, ih]

/-- What is found after a value is put. -/
theorem find?_put (k k' : κ) (a : α) (t : List (κ × α)) :
    find? k (put k' a t) = if k' == k then some a else find? k t := by
  induction t with
  | nil => rfl
  | cons e t ih =>
    unfold put
    -- The value goes into the first entry, or into the rest.
    split
    · rename_i he
      have hsame : (e.1 == k) = (k' == k) := BEq.congr_left he
      simp only [find?, hsame]
      split <;> rfl
    · rename_i he
      simp only [find?, ih]
      by_cases hk : (k' == k) = true
      · -- The entry is at a key unlike the new one.
        have hne : ¬ (e.1 == k) = true := fun h => he (BEq.trans h (BEq.symm hk))
        rw [if_neg hne, if_pos hk, if_pos hk]
      · rw [if_neg hk, if_neg hk]

/-- A key is there after a value is put if it is the new one or was there. -/
theorem has_put (k k' : κ) (a : α) (t : List (κ × α)) :
    has k (put k' a t) = (k' == k || has k t) := by
  rw [has, find?_put]
  split
  · rename_i hk
    rw [hk]
    rfl
  · rename_i hk
    rw [Bool.eq_false_iff.mpr hk]
    rfl

end

end

section

variable [BEq κ] [LawfulBEq κ]

/-! ## Finding -/

/-- A value that is put is found at its key. -/
@[simp] theorem find?_put_self (k : κ) (a : α) (t : List (κ × α)) :
    find? k (put k a t) = some a := by
  rw [find?_put, if_pos BEq.rfl]

/-- Putting a value changes nothing at other keys. -/
theorem find?_put_of_ne {k k' : κ} (h : k' ≠ k) (a : α) (t : List (κ × α)) :
    find? k' (put k a t) = find? k' t := by
  rw [find?_put, if_neg fun hk => h (eq_of_beq hk).symm]

/-- A key that is dropped is not found. -/
@[simp] theorem find?_drop_self (k : κ) (t : List (κ × α)) : find? k (drop k t) = none := by
  induction t with
  | nil => rfl
  | cons e t ih =>
    obtain ⟨k', a⟩ := e
    unfold drop at ih ⊢
    by_cases h : k' = k
    · simpa [h] using ih
    · simpa [h, find?] using ih

/-- Dropping a key changes nothing at other keys. -/
theorem find?_drop_of_ne {k k' : κ} (h : k' ≠ k) (t : List (κ × α)) :
    find? k' (drop k t) = find? k' t := by
  induction t with
  | nil => rfl
  | cons e t ih =>
    obtain ⟨k₀, a⟩ := e
    unfold drop at ih ⊢
    by_cases h₀ : k₀ = k
    · subst h₀
      simpa [find?, h.symm] using ih
    · simp [find?, h₀, ih]

/-- What is found is an entry. -/
theorem mem_of_find? {k : κ} {a : α} {t : List (κ × α)} (h : find? k t = some a) : (k, a) ∈ t := by
  obtain ⟨k', hin, hk'⟩ := exists_of_find? h
  exact eq_of_beq hk' ▸ hin

/-- What is found is one of the values. -/
theorem mem_values_of_find? {k : κ} {a : α} {t : List (κ × α)} (h : find? k t = some a) :
    a ∈ values t :=
  List.mem_map_of_mem (mem_of_find? h)

/-- A key is found nowhere exactly when it is none of the keys. -/
theorem find?_eq_none_iff {k : κ} {t : List (κ × α)} : find? k t = none ↔ k ∉ keys t := by
  rw [find?_eq_none]
  exact ⟨fun h hk => by simpa using h k hk,
    fun h k' hk' => beq_false_of_ne fun he => h (he ▸ hk')⟩

/-- A key is found exactly when it is one of the keys. -/
theorem isSome_find?_iff {k : κ} {t : List (κ × α)} : (find? k t).isSome ↔ k ∈ keys t := by
  rw [← not_iff_not, ← find?_eq_none_iff]
  simp

/-- With distinct keys every entry is found. -/
theorem find?_of_mem {k : κ} {a : α} {t : List (κ × α)} (hn : (keys t).Nodup) (h : (k, a) ∈ t) :
    find? k t = some a := by
  induction t with
  | nil => simp at h
  | cons e t ih =>
    obtain ⟨k', a'⟩ := e
    simp only [keys, List.map_cons, List.nodup_cons] at hn
    rcases List.mem_cons.mp h with h | h
    · cases h
      simp [find?]
    · have hk : k' ≠ k := fun hk => hn.1 (hk ▸ List.mem_map_of_mem h)
      simp [find?, hk, ih hn.2 h]

/-- A filter that goes by the keys keeps those that it lets pass and hides the others. -/
theorem find?_filter_keys (p : κ → Bool) (k : κ) (t : List (κ × α)) :
    find? k (t.filter fun e => p e.1) = if p k then find? k t else none := by
  induction t with
  | nil => simp
  | cons e t ih =>
    obtain ⟨k', a⟩ := e
    -- An entry with the key is let pass or not; one with another key does not matter.
    by_cases hk : k' = k
    · subst hk
      cases hp : p k' with
      | true => simp [hp, find?]
      | false => simpa [hp] using ih
    · cases hp : p k' with
      | true => simpa [hp, find?, hk] using ih
      | false => simpa [hp, find?, hk] using ih

/-- With distinct keys a filter keeps what it lets pass and hides the rest. -/
theorem find?_filter (p : κ × α → Bool) (k : κ) {t : List (κ × α)} (hn : (keys t).Nodup) :
    find? k (t.filter p) = (find? k t).filter fun a => p (k, a) := by
  induction t with
  | nil => rfl
  | cons e t ih =>
    obtain ⟨k', a⟩ := e
    simp only [keys, List.map_cons, List.nodup_cons] at hn
    -- The first entry with the key is the only one.
    by_cases hk : k' = k
    · subst hk
      have hnone : find? k' t = none := find?_eq_none_iff.mpr hn.1
      by_cases hp : p (k', a)
      · simp [find?, hp, Option.filter]
      · simp [hp, ih hn.2, hnone, find?, Option.filter]
    · by_cases hp : p (k', a)
      · simp [find?, hp, hk, ih hn.2]
      · simp [find?, hp, hk, ih hn.2]

/-! ## Keys -/

/-- A key that is there keeps its place when it is given a value. -/
theorem keys_put_of_mem {k : κ} (a : α) {t : List (κ × α)} (h : k ∈ keys t) :
    keys (put k a t) = keys t := by
  rw [keys_put, if_pos (has_of_mem h)]

/-- A new key comes last. -/
theorem put_of_not_mem {k : κ} (a : α) {t : List (κ × α)} (h : k ∉ keys t) :
    put k a t = t ++ [(k, a)] := by
  induction t with
  | nil => rfl
  | cons e t ih =>
    obtain ⟨k', a'⟩ := e
    simp only [keys, List.map_cons, List.mem_cons, not_or] at h
    simp [put, Ne.symm h.1, ih h.2]

/-- A new key comes after the others. -/
theorem keys_put_of_not_mem {k : κ} (a : α) {t : List (κ × α)} (h : k ∉ keys t) :
    keys (put k a t) = keys t ++ [k] := by
  rw [put_of_not_mem a h]
  exact List.map_append

/-- To put what is found is to change nothing. -/
theorem put_of_find? {k : κ} {a : α} {t : List (κ × α)} (h : find? k t = some a) :
    put k a t = t := by
  induction t with
  | nil => simp at h
  | cons e t ih =>
    obtain ⟨k', a'⟩ := e
    by_cases hk : k' = k
    · have ha : a' = a := by simpa [find?, hk] using h
      simp [put, hk, ha]
    · simp [put, hk, ih (by simpa [find?, hk] using h)]

/-- A value that is put adds at most one entry. -/
theorem length_put_le (k : κ) (a : α) (t : List (κ × α)) : (put k a t).length ≤ t.length + 1 := by
  by_cases h : k ∈ keys t
  · have hkeys := congrArg List.length (keys_put_of_mem a h)
    simp only [keys, List.length_map] at hkeys
    omega
  · have hlast := congrArg List.length (put_of_not_mem a h)
    rw [List.length_append, List.length_singleton] at hlast
    exact Nat.le_of_eq hlast

/-- To put a value last is to drop its key and put it. -/
theorem putLast_eq (k : κ) (a : α) (t : List (κ × α)) : putLast k a t = put k a (drop k t) :=
  (put_of_not_mem a (find?_eq_none_iff.mp (find?_drop_self k t))).symm

/-- A value that is put last is found at its key. -/
@[simp] theorem find?_putLast_self (k : κ) (a : α) (t : List (κ × α)) :
    find? k (putLast k a t) = some a := by
  rw [putLast_eq, find?_put_self]

/-- Putting a value last changes nothing at other keys. -/
theorem find?_putLast_of_ne {k k' : κ} (h : k' ≠ k) (a : α) (t : List (κ × α)) :
    find? k' (putLast k a t) = find? k' t := by
  rw [putLast_eq, find?_put_of_ne h, find?_drop_of_ne h]

/-- A value that is put last adds at most one entry. -/
theorem length_putLast_le (k : κ) (a : α) (t : List (κ × α)) :
    (putLast k a t).length ≤ t.length + 1 := by
  rw [putLast_eq]
  exact Nat.le_trans (length_put_le k a _) (Nat.succ_le_succ (List.length_filter_le _ t))

/-- The keys after a value is put are the old ones and its own. -/
theorem mem_keys_put {k k' : κ} {a : α} {t : List (κ × α)} :
    k' ∈ keys (put k a t) ↔ k' = k ∨ k' ∈ keys t := by
  rw [← isSome_find?_iff, ← isSome_find?_iff]
  by_cases h : k' = k
  · simp [h]
  · simp [find?_put_of_ne h, h]

/-- A value that is put hides no key. -/
theorem isSome_find?_put {k k' : κ} {a : α} {t : List (κ × α)} (h : (find? k' t).isSome) :
    (find? k' (put k a t)).isSome :=
  isSome_find?_iff.mpr (mem_keys_put.mpr (.inr (isSome_find?_iff.mp h)))

/-- The keys after a value is put last are the old ones and its own. -/
theorem mem_keys_putLast {k k' : κ} {a : α} {t : List (κ × α)} :
    k' ∈ keys (putLast k a t) ↔ k' = k ∨ k' ∈ keys t := by
  have hkeys : keys (putLast k a t) = keys (drop k t) ++ [k] := by simp [keys, putLast]
  rw [hkeys, keys_drop, List.mem_append, List.mem_filter, List.mem_singleton]
  by_cases h : k' = k
  · simp [h]
  · simp [h]

/-- An entry after a value is put is the new one or an old one. -/
theorem mem_of_mem_put {k : κ} {a : α} {t : List (κ × α)} {e : κ × α} (h : e ∈ put k a t) :
    e = (k, a) ∨ e ∈ t := by
  induction t with
  | nil => exact .inl (by simpa [put] using h)
  | cons e' t ih =>
    obtain ⟨k', a'⟩ := e'
    -- The new entry takes the place of the first one, or goes into the rest.
    by_cases hk : k' = k
    · simp only [put, hk, beq_self_eq_true, if_true, List.mem_cons] at h
      exact h.imp id (List.mem_cons_of_mem _)
    · simp only [put, beq_eq_false_iff_ne.mpr hk, Bool.false_eq_true, if_false,
        List.mem_cons] at h
      rcases h with h | h
      · exact .inr (h ▸ List.mem_cons_self)
      · exact (ih h).imp id (List.mem_cons_of_mem _)

/-- Keys that are told apart by equality are distinct. -/
theorem distinct_iff_nodup {t : List (κ × α)} : Distinct t ↔ (keys t).Nodup := by
  simp only [Distinct, List.Nodup, beq_eq_false_iff_ne]

/-- Distinct keys stay distinct when a value is put. -/
theorem nodup_keys_put {k : κ} {a : α} {t : List (κ × α)} (hn : (keys t).Nodup) :
    (keys (put k a t)).Nodup :=
  distinct_iff_nodup.mp ((distinct_iff_nodup.mpr hn).put k a)

/-- Two tables are the same when they have the same keys in the same order, no key twice, and the
same is found at each. -/
theorem ext_of_find? {t u : List (κ × α)} (hk : keys t = keys u) (hn : (keys t).Nodup)
    (h : ∀ k, find? k t = find? k u) : t = u :=
  (distinct_iff_nodup.mpr hn).ext (distinct_iff_nodup.mpr (hk ▸ hn)) hk h

/-- A new value that agrees with the one it replaces in some respect leaves the list of values as it
was in that respect. -/
theorem map_values_put {k : κ} {a b : α} (f : α → β) {t : List (κ × α)} (hk : find? k t = some b)
    (hf : f a = f b) : (values (put k a t)).map f = (values t).map f := by
  induction t with
  | nil => simp at hk
  | cons e t ih =>
    obtain ⟨k', a'⟩ := e
    unfold values at ih ⊢
    -- The value is replaced in the first entry or in the rest.
    by_cases h : k' = k
    · have hb : a' = b := by simpa [find?, h] using hk
      simp [put, h, hf, hb]
    · have hk' : find? k t = some b := by simpa [find?, h] using hk
      simp [put, h, ih hk']

end

/-! ## Values under keys of their own -/

/-- The keys are distinct, and every value stands under its own key. -/
structure Filed (key : α → κ) (t : List (κ × α)) : Prop where
  /-- No key occurs twice. -/
  nodup : (keys t).Nodup
  /-- The key of an entry is that of its value. -/
  own : ∀ e ∈ t, key e.2 = e.1

namespace Filed

variable {key : α → κ} {t u : List (κ × α)}

/-- The empty table. -/
theorem nil : Filed key ([] : List (κ × α)) := ⟨List.nodup_nil, by simp⟩

/-- Part of a table in the same order. -/
theorem sublist (h : Filed key t) (hu : u.Sublist t) : Filed key u :=
  ⟨h.nodup.sublist (hu.map _), fun e he => h.own e (hu.subset he)⟩

/-- The values have the keys as their own. -/
theorem map_values (h : Filed key t) : (values t).map key = keys t := by
  rw [values, keys, List.map_map]
  exact List.map_congr_left h.own

/-- No value occurs twice. -/
theorem nodup_values (h : Filed key t) : (values t).Nodup :=
  .of_map key (h.map_values ▸ h.nodup)

variable [BEq κ]

/-- A key dropped. -/
theorem drop (h : Filed key t) (k : κ) : Filed key (drop k t) := h.sublist List.filter_sublist

variable [LawfulBEq κ]

/-- A value that is found stands under its own key. -/
theorem key_of_find? (h : Filed key t) {k : κ} {a : α} (hk : find? k t = some a) : key a = k :=
  h.own _ (mem_of_find? hk)

/-- Every value is found at its own key. -/
theorem find?_key (h : Filed key t) {a : α} (ha : a ∈ values t) : find? (key a) t = some a := by
  obtain ⟨⟨k, a'⟩, he, rfl⟩ := List.mem_map.mp ha
  have hk : key a' = k := h.own _ he
  subst hk
  exact find?_of_mem h.nodup he

/-- A value put under its own key. -/
theorem put (h : Filed key t) (a : α) : Filed key (put (key a) a t) where
  nodup := nodup_keys_put h.nodup
  own e he := by
    rcases mem_of_mem_put he with rfl | he
    · rfl
    · exact h.own e he

/-- A value put last under its own key. -/
theorem putLast (h : Filed key t) (a : α) : Filed key (putLast (key a) a t) := by
  rw [putLast_eq]
  exact (h.drop (key a)).put a

end Filed

end Switchboard.Table
