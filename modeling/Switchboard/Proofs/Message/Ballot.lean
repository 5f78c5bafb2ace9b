import Mathlib.Data.Finset.Insert
import Mathlib.Data.Prod.Lex
import Mathlib.Data.Set.Card
import Switchboard.Proofs.Message

/-!
# Reactions as sets of users

A `Ballot` says of every emoji key which users have reacted under it, as a set, and since when the
key has users without a break. It knows nothing of records and their order: a call inserts a user
into a set, takes one out, or takes other sets in place of all. A message `Shows` a ballot when it
has a record for exactly the keys with users, holding just these, and the records stand in the order
in which their keys came to have users. Every history of calls makes a message show the ballot that
counts the same calls, and every call is answered as the ballot says (`afterAll_shows`).
-/

namespace Switchboard

/-! ## Increasing lists of users -/

/-- Adding a user to a list adds it and nobody else. -/
theorem mem_insertUser_iff {u v : Snowflake} {us : List Snowflake} :
    v ∈ insertUser u us ↔ v = u ∨ v ∈ us := by
  induction us with
  | nil => simp [insertUser]
  | cons w ws ih =>
    unfold insertUser
    split
    · simp
    · split
      · rename_i h
        subst h
        simp
      · simp [ih, or_left_comm]

/-- A list of users stays increasing when one is added. -/
theorem pairwise_insertUser (u : Snowflake) {us : List Snowflake} (h : us.Pairwise (· < ·)) :
    (insertUser u us).Pairwise (· < ·) := by
  induction us with
  | nil => simp [insertUser]
  | cons w ws ih =>
    obtain ⟨hw, hws⟩ := List.pairwise_cons.mp h
    -- Where the user is put: here, nowhere, or further on.
    unfold insertUser
    split
    · rename_i hu
      refine List.pairwise_cons.mpr ⟨fun v hv => ?_, h⟩
      rcases List.mem_cons.mp hv with rfl | hv
      · exact hu
      · exact hu.trans (hw v hv)
    · rename_i hu
      split
      · exact h
      · rename_i hne
        refine List.pairwise_cons.mpr ⟨fun v hv => ?_, ih hws⟩
        rcases mem_insertUser_iff.mp hv with rfl | hv
        · exact lt_of_le_of_ne (not_lt.mp hu) (Ne.symm hne)
        · exact hw v hv

/-- A record as it is sent and kept: its users in increasing order, so none twice. -/
def Reaction.Proper (r : Reaction) : Prop := r.users.Pairwise (· < ·)

instance : DecidablePred Reaction.Proper := fun r =>
  inferInstanceAs (Decidable (r.users.Pairwise (· < ·)))

/-- The record made of any list of users is proper. -/
theorem Reaction.proper_ofUsers (e : Emoji) (us : List Snowflake) : (ofUsers e us).Proper := by
  unfold Proper ofUsers
  induction us with
  | nil => exact .nil
  | cons u us ih => exact pairwise_insertUser u ih

namespace ReactionCall

/-- The records that a call brings are proper. -/
def Proper : ReactionCall → Prop
  | replace rs => ∀ r ∈ rs, r.Proper
  | _ => True

instance : DecidablePred Proper
  | replace rs => inferInstanceAs (Decidable (∀ r ∈ rs, r.Proper))
  | add .. | remove .. | dropEmoji _ | removeAll | get _ | contains .. => .isTrue trivial

end ReactionCall

/-! ## Ballots -/

/-- Who has reacted under which emoji key. -/
structure Ballot where
  /-- The users of a key; a key without users is absent. -/
  users : String → Finset Snowflake
  /-- When the key last went from absent to present: the number of the call that brought it, and the
  place of the first record that did. -/
  since : String → ℕ ×ₗ ℕ
  /-- The number of calls so far. -/
  calls : ℕ

namespace Ballot

/-- Nobody has reacted. -/
def empty : Ballot := ⟨fun _ => ∅, fun _ => toLex (0, 0), 0⟩

/-- The record has users and belongs to the key. -/
def counts (key : String) (r : Reaction) : Bool := !r.users.isEmpty && r.emoji.key == key

/-- The users of the last record that counts for a key. -/
def lastUsers (rs : List Reaction) (key : String) : Finset Snowflake :=
  ((rs.filter (counts key)).getLast?.map fun r => r.users.toFinset).getD ∅

/-- Since when the keys have users once the given key has some: from the present call on if it had
none, and as before otherwise. -/
def sinceWith (b : Ballot) (key : String) : String → ℕ ×ₗ ℕ :=
  if b.users key = ∅ then Function.update b.since key (toLex (b.calls, 0)) else b.since

/-- The ballot after a call. -/
def after (b : Ballot) (call : ReactionCall) : Ballot :=
  let b' := { b with calls := b.calls + 1 }
  match call with
  | .add e u =>
    { b' with
      users := Function.update b.users e.key (insert u (b.users e.key))
      since := b.sinceWith e.key }
  | .remove e u => { b' with users := Function.update b.users e.key ((b.users e.key).erase u) }
  | .dropEmoji e => { b' with users := Function.update b.users e.key ∅ }
  | .removeAll => { b' with users := fun _ => ∅ }
  | .replace rs =>
    { b' with
      users := lastUsers rs
      since := fun key => toLex (b.calls, rs.findIdx (counts key)) }
  | .get _ | .contains _ _ => b'

/-- The ballot after calls; one that needs a key that cannot be written does not count. -/
def afterAll (b : Ballot) (calls : List ReactionCall) : Ballot :=
  calls.foldl (fun b call => if call.hasKeys then b.after call else b) b

end Ballot

namespace Reaction

/-- The record of a key with some users. -/
structure Tallies (r : Reaction) (k : String) (us : Finset Snowflake) : Prop where
  key : r.emoji.key = k
  proper : r.Proper
  users : r.users.toFinset = us
  count : r.count = us.card

/-- There is a record for a key when it has users, and it holds just these. -/
def Found (found : Option Reaction) (k : String) (us : Finset Snowflake) : Prop :=
  match found with
  | none => us = ∅
  | some r => us ≠ ∅ ∧ r.Tallies k us

/-- A record tallies with the set of its users. -/
theorem Proper.tallies {r : Reaction} (h : r.Proper) : r.Tallies r.emoji.key r.users.toFinset where
  key := rfl
  proper := h
  users := rfl
  count := (List.toFinset_card_of_nodup (h.imp ne_of_lt)).symm

end Reaction

namespace Ballot

/-- A message shows a ballot: under every key that has users there is a record with these users and
no others, and the records stand in the order in which their keys came to have users. -/
structure Shows (b : Ballot) (m : Message) : Prop where
  /-- Every record stands under the key of its emoji, and no key occurs twice. -/
  filed : Table.Filed (fun r : Reaction => r.emoji.key) m.reactions
  found : ∀ key, Reaction.Found (Table.find? key m.reactions) key (b.users key)
  ordered : (Table.keys m.reactions).Pairwise (b.since · < b.since ·)

/-- The answer of a call, told from the ballot before it. -/
def Answers (b : Ballot) (call : ReactionCall) (answer : ReactionAnswer) : Prop :=
  match call with
  | .add e _ => ∃ r, answer = .record (some r) ∧ r.emoji = e ∧
      r.Tallies e.key ((b.after call).users e.key)
  | .remove e _ => ∃ r, answer = .record r ∧ Reaction.Found r e.key ((b.after call).users e.key)
  | .dropEmoji e | .get e => ∃ r, answer = .record r ∧ Reaction.Found r e.key (b.users e.key)
  | .removeAll => answer = .count {key | b.users key ≠ ∅}.ncard
  | .replace _ => answer = .done
  | .contains e u =>
    answer = .member (if b.users e.key = ∅ then none else some (decide (u ∈ b.users e.key)))

variable {b : Ballot} {m : Message} {k : String}

/-! ## What a message that shows a ballot holds -/

/-- A key is there when it has users. -/
theorem Shows.mem_keys_iff (h : b.Shows m) : k ∈ Table.keys m.reactions ↔ b.users k ≠ ∅ := by
  have hfound := h.found k
  rw [← Table.isSome_find?_iff]
  cases hr : Table.find? k m.reactions with
  | none =>
    rw [hr] at hfound
    simpa [Reaction.Found] using hfound
  | some r =>
    rw [hr] at hfound
    simpa using hfound.1

/-- There are as many records as there are keys with users. -/
theorem Shows.length_reactions (h : b.Shows m) :
    m.reactions.length = {key | b.users key ≠ ∅}.ncard := by
  have hkeys : {key | b.users key ≠ ∅} = ↑(Table.keys m.reactions).toFinset := by
    ext key
    simp [h.mem_keys_iff]
  rw [hkeys, Set.ncard_coe_finset, List.toFinset_card_of_nodup h.filed.nodup]
  simp [Table.keys]

/-- A message shows a ballot, and all its keys have come to have users in a call that was counted.
-/
structure Kept (b : Ballot) (m : Message) : Prop extends Shows b m where
  past : ∀ key ∈ Table.keys m.reactions, (ofLex (b.since key)).1 < b.calls

/-- A call that changes nothing is counted. -/
theorem Kept.later (h : b.Kept m) : Kept { b with calls := b.calls + 1 } m :=
  { h with past := fun key hkey => (h.past key hkey).trans (Nat.lt_succ_self _) }

/-- A key that had users has them since when it had. -/
theorem sinceWith_of_present (h : b.users k ≠ ∅) : b.sinceWith k = b.since := if_neg h

/-- A key that had no users has them since the present call. -/
theorem sinceWith_of_absent (h : b.users k = ∅) : b.sinceWith k k = toLex (b.calls, 0) := by
  simp [sinceWith, h]

/-- The other keys have their users since when they had. -/
theorem sinceWith_of_ne {key : String} (h : key ≠ k) : b.sinceWith k key = b.since key := by
  unfold sinceWith
  split
  · exact Function.update_of_ne h ..
  · rfl

/-- A record is put under its key, which comes last if it had no users. -/
theorem Kept.put (h : b.Kept m) {r : Reaction} {us : Finset Snowflake} (hr : r.Tallies k us)
    (hus : us ≠ ∅) :
    Kept ⟨Function.update b.users k us, b.sinceWith k, b.calls + 1⟩
      { m with reactions := Table.put k r m.reactions } where
  filed := hr.key ▸ h.filed.put r
  -- Found under the key are the users that were put there.
  found key := by
    by_cases hkey : key = k
    · subst hkey
      simpa [Reaction.Found] using ⟨hus, hr⟩
    · simpa [Table.find?_put_of_ne hkey, hkey] using h.found key
  ordered := by
    by_cases hk : b.users k = ∅
    · have hnew : k ∉ Table.keys m.reactions := fun hin => h.mem_keys_iff.mp hin hk
      have hne {key : String} (hin : key ∈ Table.keys m.reactions) : key ≠ k :=
        fun he => hnew (he ▸ hin)
      rw [Table.keys_put_of_not_mem r hnew]
      refine List.pairwise_append.mpr
        ⟨?_, List.pairwise_singleton _ _, fun key hin key' hlast => ?_⟩
      · refine h.ordered.imp_of_mem fun hin hin' hlt => ?_
        simpa only [sinceWith_of_ne (hne hin), sinceWith_of_ne (hne hin')] using hlt
      · -- The other keys have come in earlier calls.
        dsimp only
        rw [List.mem_singleton.mp hlast, sinceWith_of_absent hk, sinceWith_of_ne (hne hin)]
        exact Prod.Lex.lt_iff.mpr (.inl (h.past key hin))
    · -- A key that had users keeps its place and the time since when it has them.
      have hold : k ∈ Table.keys m.reactions := h.mem_keys_iff.mpr hk
      rw [Table.keys_put_of_mem r hold, sinceWith_of_present hk]
      exact h.ordered
  -- A key that has users since this call has them since the last one.
  past key hkey := by
    dsimp only
    have hlater {key : String} (hin : key ∈ Table.keys m.reactions) :
        (ofLex (b.since key)).1 < b.calls + 1 := (h.past key hin).trans (Nat.lt_succ_self _)
    by_cases hk : key = k
    · subst hk
      by_cases hnone : b.users key = ∅
      · rw [sinceWith_of_absent hnone]
        exact Nat.lt_succ_self _
      · rw [sinceWith_of_present hnone]
        exact hlater (h.mem_keys_iff.mpr hnone)
    · rw [sinceWith_of_ne hk]
      exact hlater ((Table.mem_keys_put.mp hkey).resolve_left hk)

/-- A record is dropped. -/
theorem Kept.drop (h : b.Kept m) (k : String) :
    Kept { b with users := Function.update b.users k ∅, calls := b.calls + 1 }
      { m with reactions := Table.drop k m.reactions } where
  filed := h.filed.drop k
  -- Nothing is found under the key any more.
  found key := by
    by_cases hkey : key = k
    · subst hkey
      simp [Reaction.Found]
    · simpa [Table.find?_drop_of_ne hkey, hkey] using h.found key
  ordered := by
    rw [Table.keys_drop]
    exact h.ordered.sublist List.filter_sublist
  past key hkey := by
    rw [Table.keys_drop] at hkey
    exact (h.past key (List.mem_filter.mp hkey).1).trans (Nat.lt_succ_self _)

/-! ## Calls -/

/-- A record is found under a key that has users, and it holds them. -/
theorem Shows.tallies_of_find? (h : b.Shows m) {r : Reaction}
    (hr : Table.find? k m.reactions = some r) : b.users k ≠ ∅ ∧ r.Tallies k (b.users k) := by
  have hfound := h.found k
  rwa [hr] at hfound

/-- No record is found under a key without users. -/
theorem Shows.users_eq_of_find? (h : b.Shows m) (hr : Table.find? k m.reactions = none) :
    b.users k = ∅ := by
  have hfound := h.found k
  rwa [hr] at hfound

/-- A user reacts. -/
theorem Kept.react (h : b.Kept m) (e : Emoji) (u : Snowflake) :
    (b.after (.add e u)).Kept (m.react e u).2 ∧ (m.react e u).1.emoji = e ∧
      (m.react e u).1.Tallies e.key (insert u (b.users e.key)) := by
  -- The users that are there, or none if there is no record.
  have hold : (((m.reaction? e).map Reaction.users).getD []).toFinset = b.users e.key ∧
      (((m.reaction? e).map Reaction.users).getD []).Pairwise (· < ·) := by
    cases hr : m.reaction? e with
    | none => exact ⟨(h.users_eq_of_find? hr).symm, .nil⟩
    | some r =>
      obtain ⟨-, htallies⟩ := h.tallies_of_find? hr
      exact ⟨htallies.users, htallies.proper⟩
  have htallies : (m.react e u).1.Tallies e.key (insert u (b.users e.key)) := by
    have hproper : (m.react e u).1.Proper := pairwise_insertUser u hold.2
    have husers : (m.react e u).1.users.toFinset = insert u (b.users e.key) := by
      rw [← hold.1]
      ext v
      simp [Message.react, mem_insertUser_iff]
    exact husers ▸ hproper.tallies
  exact ⟨h.put htallies (Finset.insert_ne_empty u _), rfl, htallies⟩

/-- A user takes a reaction back. -/
theorem Kept.unreact (h : b.Kept m) (e : Emoji) (u : Snowflake) :
    (b.after (.remove e u)).Kept (m.unreact e u).2 ∧
      Reaction.Found (m.unreact e u).1 e.key ((b.users e.key).erase u) := by
  unfold Message.unreact
  cases hr : m.reaction? e with
  | none =>
    have hnone : b.users e.key = ∅ := h.users_eq_of_find? hr
    have hsame : Function.update b.users e.key ((b.users e.key).erase u) = b.users := by
      simp [hnone]
    refine ⟨?_, by simp [Reaction.Found, hnone]⟩
    simp only [after, hsame]
    exact h.later
  | some r =>
    obtain ⟨hpresent, htallies⟩ := h.tallies_of_find? hr
    have hleft : (r.users.filter (· != u)).toFinset = (b.users e.key).erase u := by
      rw [← htallies.users]
      ext v
      simp [and_comm]
    dsimp only
    split
    · rename_i hempty
      have hgone : (b.users e.key).erase u = ∅ := by
        rw [← hleft, List.isEmpty_iff.mp hempty, List.toFinset_nil]
      refine ⟨?_, by simp [Reaction.Found, hgone]⟩
      simp only [after, hgone]
      exact h.drop e.key
    · rename_i hne
      have hstay : (b.users e.key).erase u ≠ ∅ := by
        rw [← hleft]
        simpa [List.toFinset_eq_empty_iff] using hne
      -- The record keeps its emoji, which has the key that it was found under.
      have hrest : Reaction.Tallies ⟨r.emoji, r.users.filter (· != u)⟩ e.key
          ((b.users e.key).erase u) := by
        have hproper : Reaction.Proper ⟨r.emoji, r.users.filter (· != u)⟩ :=
          htallies.proper.sublist List.filter_sublist
        exact hleft ▸ htallies.key ▸ hproper.tallies
      refine ⟨?_, hstay, hrest⟩
      have hput := h.put hrest hstay
      rwa [sinceWith_of_present hpresent] at hput

/-- All records go. -/
theorem kept_clear (b : Ballot) (m : Message) :
    (b.after .removeAll).Kept m.clearReactions.2 where
  filed := .nil
  found key := rfl
  ordered := .nil
  past key hkey := by cases hkey

/-! ## Records that take the place of others -/

/-- The table of the records with users, later ones at a key taking the place of earlier ones. -/
def table (rs : List Reaction) : List (String × Reaction) :=
  Table.ofList ((rs.filter fun r => !r.users.isEmpty).map fun r => (r.emoji.key, r))

/-- One more record takes the place of those before it, if it has users. -/
theorem table_concat (rs : List Reaction) (r : Reaction) :
    table (rs ++ [r]) =
      if r.users.isEmpty then table rs else Table.put r.emoji.key r (table rs) := by
  unfold table Table.ofList Table.putAll
  rw [List.filter_append, List.map_append, List.foldl_append]
  cases hr : r.users.isEmpty <;> simp [hr]

/-- The records that a list of them leaves: for every key the last one that counts, in the order of
the first ones. -/
structure Replaced (rs : List Reaction) (t : List (String × Reaction)) : Prop where
  filed : Table.Filed (fun r : Reaction => r.emoji.key) t
  found : ∀ key, Reaction.Found (Table.find? key t) key (lastUsers rs key)
  present : ∀ key, key ∈ Table.keys t ↔ ∃ r ∈ rs, counts key r = true
  ordered : (Table.keys t).Pairwise fun key key' =>
    rs.findIdx (counts key) < rs.findIdx (counts key')

/-- The first place at which a record counts for a key does not change when more records come. -/
theorem findIdx_concat_of_exists {rs : List Reaction} (r : Reaction)
    (h : ∃ r ∈ rs, counts k r = true) :
    (rs ++ [r]).findIdx (counts k) = rs.findIdx (counts k) := by
  rw [List.findIdx_append, if_pos (List.findIdx_lt_length.mpr h)]

/-- A record that does not count for a key changes nothing for it. -/
theorem lastUsers_concat_of_not (rs : List Reaction) {r : Reaction} (h : counts k r = false) :
    lastUsers (rs ++ [r]) k = lastUsers rs k := by
  simp [lastUsers, List.filter_append, h]

/-- A record that counts for a key is the last one. -/
theorem lastUsers_concat (rs : List Reaction) {r : Reaction} (h : counts k r = true) :
    lastUsers (rs ++ [r]) k = r.users.toFinset := by
  simp [lastUsers, List.filter_append, h]

/-- One more record that has users takes its place. -/
theorem Replaced.put {rs : List Reaction} {t : List (String × Reaction)} (h : Replaced rs t)
    {r : Reaction} (hr : r.Proper) (hcounts : counts r.emoji.key r = true) :
    Replaced (rs ++ [r]) (Table.put r.emoji.key r t) where
  filed := h.filed.put r
  found key := by
    by_cases hkey : key = r.emoji.key
    · have husers : r.users.toFinset ≠ ∅ := by
        simpa [List.toFinset_eq_empty_iff, counts] using hcounts
      rw [hkey, Table.find?_put_self, lastUsers_concat rs hcounts]
      exact ⟨husers, hr.tallies⟩
    · rw [Table.find?_put_of_ne hkey,
        lastUsers_concat_of_not rs (by simp [counts, Ne.symm hkey])]
      exact h.found key
  present key := by
    rw [Table.mem_keys_put, h.present]
    constructor
    · rintro (rfl | ⟨r', hr', hc⟩)
      · exact ⟨r, by simp, hcounts⟩
      · exact ⟨r', List.mem_append_left _ hr', hc⟩
    · rintro ⟨r', hr', hc⟩
      rcases List.mem_append.mp hr' with hr' | hr'
      · exact .inr ⟨r', hr', hc⟩
      · rw [List.mem_singleton.mp hr'] at hc
        simp only [counts, Bool.and_eq_true, beq_iff_eq] at hc
        exact .inl hc.2.symm
  ordered := by
    have hold : (Table.keys t).Pairwise fun key key' =>
        (rs ++ [r]).findIdx (counts key) < (rs ++ [r]).findIdx (counts key') :=
      h.ordered.imp_of_mem fun hin hin' hlt => by
        rwa [findIdx_concat_of_exists r ((h.present _).mp hin),
          findIdx_concat_of_exists r ((h.present _).mp hin')]
    by_cases hin : r.emoji.key ∈ Table.keys t
    · rwa [Table.keys_put_of_mem r hin]
    · rw [Table.keys_put_of_not_mem r hin]
      refine List.pairwise_append.mpr
        ⟨hold, List.pairwise_singleton _ _, fun key hkey key' hlast => ?_⟩
      -- The new key counts nowhere before, the other keys do.
      have hnew : ¬ rs.findIdx (counts r.emoji.key) < rs.length :=
        fun hlt => hin ((h.present _).mpr (List.findIdx_lt_length.mp hlt))
      have hfirst := (h.present key).mp hkey
      rw [List.mem_singleton.mp hlast, findIdx_concat_of_exists r hfirst, List.findIdx_append,
        if_neg hnew]
      exact (List.findIdx_lt_length.mpr hfirst).trans_le (Nat.le_add_left _ _)

/-- A record without users changes nothing. -/
theorem Replaced.skip {rs : List Reaction} {t : List (String × Reaction)} (h : Replaced rs t)
    {r : Reaction} (hcounts : ∀ key, counts key r = false) : Replaced (rs ++ [r]) t where
  filed := h.filed
  found key := by
    rw [lastUsers_concat_of_not rs (hcounts key)]
    exact h.found key
  present key := by
    simp [h.present, hcounts]
  ordered := h.ordered.imp_of_mem fun hin hin' hlt => by
    rwa [findIdx_concat_of_exists r ((h.present _).mp hin),
      findIdx_concat_of_exists r ((h.present _).mp hin')]

/-- Records that are put one after another leave the last ones with users. -/
theorem replaced_table {rs : List Reaction} (h : ∀ r ∈ rs, r.Proper) : Replaced rs (table rs) := by
  -- The last record is the one that counts, so they are taken from the end.
  induction rs using List.reverseRecOn with
  | nil =>
    exact ⟨.nil, fun _ => rfl, fun key => by simp [table, Table.ofList, Table.putAll, Table.keys],
      .nil⟩
  | append_singleton rs r ih =>
    have hrs := ih fun r' hr' => h r' (List.mem_append_left _ hr')
    rw [table_concat]
    cases hempty : r.users.isEmpty with
    | true => exact hrs.skip fun key => by simp [counts, hempty]
    | false =>
      exact hrs.put (h r (List.mem_append_right _ List.mem_cons_self)) (by simp [counts, hempty])

/-- Records take the place of all that were there. -/
theorem kept_replace (b : Ballot) (m : Message) {rs : List Reaction} (h : ∀ r ∈ rs, r.Proper) :
    (b.after (.replace rs)).Kept (m.withReactions rs) := by
  have hreplaced : Replaced rs (m.withReactions rs).reactions := replaced_table h
  have hordered : (Table.keys (m.withReactions rs).reactions).Pairwise fun key key' =>
      toLex (b.calls, rs.findIdx (counts key)) < toLex (b.calls, rs.findIdx (counts key')) := by
    refine List.Pairwise.imp ?_ hreplaced.ordered
    exact fun hlt => Prod.Lex.toLex_lt_toLex.mpr (.inr ⟨rfl, hlt⟩)
  exact ⟨⟨hreplaced.filed, hreplaced.found, hordered⟩, fun key _ => Nat.lt_succ_self _⟩

/-! ## Histories -/

/-- A call is answered as the ballot says, and the message shows the ballot that counts it. -/
theorem Kept.perform (h : b.Kept m) {call : ReactionCall} (hp : call.Proper)
    (hk : call.hasKeys = true) :
    ∃ answer m', m.perform call = .ok (answer, m') ∧ b.Answers call answer ∧
      (b.after call).Kept m' := by
  -- The calls that name an emoji succeed because it has a key.
  have hkey {e : Emoji} (he : e.hasKey = true) : e.key? = .ok e.key := if_pos he
  cases call with
  | add e u =>
    obtain ⟨hkept, hemoji, htallies⟩ := h.react e u
    have husers : (b.after (.add e u)).users e.key = insert u (b.users e.key) :=
      Function.update_self ..
    exact ⟨_, _, bind_eq_ok.mpr ⟨_, hkey hk, rfl⟩, ⟨_, rfl, hemoji, husers ▸ htallies⟩, hkept⟩
  | remove e u =>
    obtain ⟨hkept, hfound⟩ := h.unreact e u
    have husers : (b.after (.remove e u)).users e.key = (b.users e.key).erase u :=
      Function.update_self ..
    exact ⟨_, _, bind_eq_ok.mpr ⟨_, hkey hk, rfl⟩, ⟨_, rfl, husers ▸ hfound⟩, hkept⟩
  | dropEmoji e =>
    exact ⟨_, _, bind_eq_ok.mpr ⟨_, hkey hk, rfl⟩, ⟨_, rfl, h.found e.key⟩, h.drop e.key⟩
  | removeAll => exact ⟨_, _, rfl, congrArg _ h.length_reactions, kept_clear b m⟩
  | get e => exact ⟨_, _, bind_eq_ok.mpr ⟨_, hkey hk, rfl⟩, ⟨_, rfl, h.found e.key⟩, h.later⟩
  | replace rs => exact ⟨_, _, if_pos hk, rfl, kept_replace b m hp⟩
  | contains e u =>
    refine ⟨_, _, bind_eq_ok.mpr ⟨_, hkey hk, rfl⟩, congrArg _ ?_, h.later⟩
    have hfound := h.found e.key
    cases hr : m.reaction? e with
    | none => simp [h.users_eq_of_find? hr]
    | some r =>
      obtain ⟨hpresent, htallies⟩ := h.tallies_of_find? hr
      rw [if_neg hpresent, ← htallies.users]
      simp [Reaction.contains]

/-- A message without reactions shows the empty ballot. -/
theorem kept_empty (hm : m.reactions = []) : empty.Kept m where
  filed := hm ▸ .nil
  found key := by
    rw [hm]
    rfl
  ordered := by
    rw [hm]
    exact .nil
  past key hkey := by
    rw [hm] at hkey
    cases hkey

/-- What one call does to a message and to a ballot that it shows. -/
theorem Kept.step (h : b.Kept m) {call : ReactionCall} (hp : call.Proper) :
    (if call.hasKeys then b.after call else b).Kept (m.after call) := by
  unfold Message.after
  cases hk : call.hasKeys with
  | true =>
    obtain ⟨answer, m', hperform, -, hkept⟩ := h.perform hp hk
    rw [hperform]
    exact hkept
  | false =>
    rw [m.perform_keyless hk]
    exact h

/-- A whole history of calls. -/
theorem Kept.afterAll (h : b.Kept m) {calls : List ReactionCall}
    (hp : ∀ call ∈ calls, call.Proper) :
    (b.afterAll calls).Kept (calls.foldl Message.after m) := by
  induction calls generalizing b m with
  | nil => exact h
  | cons call calls ih =>
    exact ih (h.step (hp call List.mem_cons_self)) fun c hc => hp c (List.mem_cons_of_mem call hc)

end Ballot

namespace Message

/-- After any calls on a message that had no reactions, in whatever order, the message shows the
ballot that counts these calls: it has a record for exactly the keys that have users there, with
these users, their number, and an emoji of that key, and the records stand in the order in which
their keys last came to have users. A further call is answered as that ballot says; but one with an
emoji whose id is too long to write is refused. -/
theorem afterAll_shows {m : Message} (hm : m.reactions = []) {calls : List ReactionCall}
    (hp : ∀ call ∈ calls, call.Proper) (call : ReactionCall) (hcall : call.Proper) :
    (Ballot.empty.afterAll calls).Shows (calls.foldl after m) ∧
      if call.hasKeys then
        ∃ answer m', (calls.foldl after m).perform call = .ok (answer, m') ∧
          (Ballot.empty.afterAll calls).Answers call answer
      else (calls.foldl after m).perform call = .error .tooLongToWrite := by
  -- The ballot counts all calls, the refused ones as calls without effect.
  have hkept : (Ballot.empty.afterAll calls).Kept (calls.foldl after m) :=
    (Ballot.kept_empty hm).afterAll hp
  refine ⟨hkept.toShows, ?_⟩
  cases hk : call.hasKeys with
  | true =>
    obtain ⟨answer, m', hperform, hanswers, -⟩ := hkept.perform hcall hk
    exact ⟨answer, m', hperform, hanswers⟩
  | false => exact Message.perform_keyless _ hk

/-- Two users react and one takes it back, other records take the place of all, one of them without
users and two under one key, a key goes and comes back; then the last user of a key goes. -/
theorem afterAll_shows_mixed : ∃ (m : Message) (calls : List ReactionCall) (call : ReactionCall),
    m.reactions = [] ∧ (∀ call ∈ calls, call.Proper) ∧ call.Proper ∧
      (Ballot.empty.afterAll calls).Shows (calls.foldl after m) ∧
      (calls.foldl after m).reactions =
        [("5", ⟨⟨some "new", some 5⟩, [2, 8]⟩), ("ok", ⟨⟨some "ok", none⟩, [4]⟩),
          ("no", ⟨⟨some "no", none⟩, [7]⟩)] ∧
      (Ballot.empty.afterAll calls).users "5" = {2, 8} ∧
      (Ballot.empty.afterAll calls).users "no" = {7} ∧
      ∃ m', (calls.foldl after m).perform call = .ok (.record none, m') ∧
        (Ballot.empty.afterAll calls).Answers call (.record none) := by
  -- The two emojis, the records that take the place of all, and the calls.
  let ok : Emoji := ⟨some "ok", none⟩
  let no : Emoji := ⟨some "no", none⟩
  let replaced : List Reaction :=
    [.ofUsers no [3], .ofUsers ⟨some "old", some 5⟩ [6], .ofUsers ok [], .ofUsers ok [4],
      .ofUsers ⟨some "new", some 5⟩ [8, 2, 8]]
  let calls : List ReactionCall :=
    [.add ok 9, .add ok 7, .remove ok 9, .replace replaced, .dropEmoji no, .add no 7]
  have hcalls : ∀ call ∈ calls, call.Proper := by decide +kernel
  have hm : ({ id := 1, channel := 2 } : Message).reactions = [] := rfl
  obtain ⟨hshows, answer, m', hperform, hanswers⟩ := afterAll_shows hm hcalls (.remove no 7) trivial
  -- What the last call answers is found by running the calls.
  have hanswer : answer = .record none := by
    have hrecord : (perform (calls.foldl after { id := 1, channel := 2 }) (.remove no 7)).map
        Prod.fst = .ok (.record none) := by decide +kernel
    rw [hperform] at hrecord
    cases hrecord
    rfl
  subst hanswer
  exact ⟨_, calls, .remove no 7, hm, hcalls, trivial, hshows, by decide +kernel,
    by decide +kernel, by decide +kernel, m', hperform, hanswers⟩

end Message

end Switchboard
