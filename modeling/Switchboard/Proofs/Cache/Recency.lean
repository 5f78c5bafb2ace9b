import Mathlib.Data.List.Dedup
import Mathlib.Data.List.DropRight
import Switchboard.Proofs.Cache

/-!
# The most recent messages

The messages of a cache are a recency list. To keep a message moves its id to the end and cuts the
list down to the room there is (`keys_keepMessage`), so after any messages were kept one after
another the ids are those that were kept last, each once and in the order in which they were kept
last (`keepAll_recent`). To cut the list down at every message comes to the same as to cut it down
once at the end (`rtake_moveLast`).
-/

namespace Switchboard.Cache

/-! ## Ends of lists -/

section

variable {α : Type}

/-- The last entries of a list are those of an end of it that is long enough. -/
theorem rtake_append {front back : List α} {n : Nat} (h : front = [] ∨ n ≤ back.length) :
    (front ++ back).rtake n = back.rtake n := by
  rcases h with rfl | h
  · rfl
  · rw [List.rtake_eq_reverse_take_reverse, List.rtake_eq_reverse_take_reverse,
      List.reverse_append, List.take_append_of_le_length (by rwa [List.length_reverse])]

/-- The entries of a list without repetitions that are not among those from a place on are those
before it. -/
theorem filter_notMem_drop [DecidableEq α] {l : List α} (h : l.Nodup) (n : Nat) :
    (l.filter fun a => a ∉ l.drop n) = l.take n := by
  have hparts : (l.take n ++ l.drop n).Nodup := by rwa [List.take_append_drop]
  have hfront : (l.take n).filter (fun a => decide (a ∉ l.drop n)) = l.take n :=
    List.filter_eq_self.mpr fun a ha =>
      decide_eq_true fun hb => (List.nodup_append.mp hparts).2.2 a ha a hb rfl
  have hback : (l.drop n).filter (fun a => decide (a ∉ l.drop n)) = [] :=
    List.filter_eq_nil_iff.mpr fun a ha => by simpa using ha
  calc l.filter (fun a => decide (a ∉ l.drop n))
      = (l.take n ++ l.drop n).filter (fun a => decide (a ∉ l.drop n)) := by
        rw [List.take_append_drop]
    _ = l.take n := by rw [List.filter_append, hfront, hback, List.append_nil]

variable [BEq α] [LawfulBEq α]

/-- A list without repetitions loses at most one entry when an entry is taken out. -/
theorem length_le_length_filter {l : List α} (h : l.Nodup) (a : α) :
    l.length ≤ (l.filter (!· == a)).length + 1 := by
  have herase : l.filter (!· == a) = l.erase a := (h.erase_eq_filter a).symm
  rw [herase, List.length_erase]
  split <;> omega

/-- An entry is moved to the end of a list that is then cut down to its last entries. It does not
matter if the list is cut down before that, too. -/
theorem rtake_moveLast {l : List α} (h : l.Nodup) (a : α) (n : Nat) :
    ((l.rtake n).filter (!· == a) ++ [a]).rtake n = (l.filter (!· == a) ++ [a]).rtake n := by
  -- Taking the entry out acts on the part that is cut off and on the rest.
  have hsplit : l.filter (!· == a) =
      (l.take (l.length - n)).filter (!· == a) ++ (l.rtake n).filter (!· == a) := by
    rw [← List.filter_append, List.rtake, List.take_append_drop]
  rw [hsplit, List.append_assoc]
  refine (rtake_append ?_).symm
  rcases Nat.le_total l.length n with hle | hle
  · -- Nothing is cut off.
    left
    rw [Nat.sub_eq_zero_of_le hle, List.take_zero, List.filter_nil]
  · -- The end is as long as wanted, and one entry at most is taken out before one is put in.
    right
    have hend : (l.rtake n).length = n := by
      rw [List.rtake, List.length_drop]
      omega
    have hloss : (l.rtake n).length ≤ ((l.rtake n).filter (!· == a)).length + 1 :=
      length_le_length_filter (h.sublist (List.drop_sublist _ _)) a
    rw [hend] at hloss
    rwa [List.length_append, List.length_singleton]

/-- The last occurrences in a list are those before its last entry, without that entry, and the
last entry itself. -/
theorem dedup_concat [DecidableEq α] (l : List α) (a : α) :
    (l ++ [a]).dedup = l.dedup.filter (!· == a) ++ [a] := by
  -- The induction is on the front of the list; the last entry is never dropped.
  induction l with
  | nil => rfl
  | cons b l ih =>
    by_cases hb : b ∈ l
    · have hb' : b ∈ l ++ [a] := List.mem_append_left _ hb
      rw [List.cons_append, List.dedup_cons_of_mem hb', List.dedup_cons_of_mem hb, ih]
    · rw [List.cons_append, List.dedup_cons_of_notMem hb]
      by_cases hba : b = a
      · have hb' : b ∈ l ++ [a] := hba ▸ List.mem_append_right l (List.mem_singleton_self b)
        rw [List.dedup_cons_of_mem hb', ih]
        simp [hba]
      · have hb' : b ∉ l ++ [a] := by simp [hb, hba]
        rw [List.dedup_cons_of_notMem hb', ih]
        simp [hba]

end

/-! ## One message -/

/-- To keep a message does not change the room there is. -/
@[simp] theorem keepMessage_capacity (c : Cache) (m : Message) :
    (c.keepMessage m).2.capacity = c.capacity := by
  rcases c.keepMessage_cases m with ⟨-, h⟩ | ⟨n, -, -, h⟩ <;> rw [h]

/-- To keep a message moves its id to the end and cuts the ids down to the room there is. -/
theorem keys_keepMessage {c : Cache} (h : 1 ≤ c.capacity) (m : Message) :
    Table.keys (c.keepMessage m).2.messages =
      ((Table.keys c.messages).filter (!· == m.id) ++ [m.id]).rtake c.capacity.toNat := by
  rcases c.keepMessage_cases m with ⟨hnone, -⟩ | ⟨n, -, rfl, he⟩
  · omega
  · have hall : Table.keys (Table.putLast m.id m c.messages) =
        (Table.keys c.messages).filter (!· == m.id) ++ [m.id] := by
      rw [← Table.keys_drop]
      exact List.map_append
    have hlength : (Table.keys (Table.putLast m.id m c.messages)).length =
        (Table.putLast m.id m c.messages).length := List.length_map _
    rw [he, ← hall, List.rtake, hlength]
    exact List.map_drop

/-- Another message that is still cached when a message is kept is the one that was cached. -/
theorem Filed.message?_keepMessage_of_ne {c : Cache} (hf : c.Filed) {m : Message} {id : Snowflake}
    (hid : id ∈ Table.keys (c.keepMessage m).2.messages) (hne : id ≠ m.id) :
    (c.keepMessage m).2.message? id = c.message? id := by
  rcases c.keepMessage_cases m with ⟨-, he⟩ | ⟨n, -, -, he⟩
  · rw [he]
  · rw [he] at hid ⊢
    obtain ⟨found, hfound⟩ := Option.isSome_iff_exists.mp (Table.isSome_find?_iff.mpr hid)
    have hin : (id, found) ∈ Table.putLast m.id m c.messages :=
      List.mem_of_mem_drop (Table.mem_of_find? hfound)
    have hbefore := Table.find?_of_mem (hf.messages.putLast m).nodup hin
    rw [Table.find?_putLast_of_ne hne] at hbefore
    exact hfound.trans hbefore.symm

/-- The messages with other ids make room from the oldest on, and the message that is kept comes
after those that stay. -/
theorem Filed.values_keepMessage {c : Cache} (hf : c.Filed) (h : 1 ≤ c.capacity) (m : Message) :
    ∃ n, (c.keepMessage m).1 = ((Table.values c.messages).filter (·.id ≠ m.id)).take n ∧
      Table.values (c.keepMessage m).2.messages =
        ((Table.values c.messages).filter (·.id ≠ m.id)).drop n ++ [m] := by
  rcases c.keepMessage_cases m with ⟨hnone, -⟩ | ⟨n, -, hn, he⟩
  · omega
  · have hothers : (Table.values c.messages).filter (·.id ≠ m.id) =
        Table.values (Table.drop m.id c.messages) := by
      rw [Table.values, Table.values, Table.drop, List.filter_map]
      refine congrArg _ (List.filter_congr fun e he => ?_)
      rw [Function.comp_apply, hf.messages.own e he]
      by_cases hid : e.1 = m.id <;> simp [hid]
    -- There is room for one message, so the new one is none of those that go.
    have hlength : n ≤ (Table.drop m.id c.messages).length := by
      have hlast : (Table.putLast m.id m c.messages).length =
          (Table.drop m.id c.messages).length + 1 := by simp [Table.putLast]
      omega
    refine ⟨n, ?_, ?_⟩
    · rw [he, hothers, Table.putLast, List.take_append_of_le_length hlength]
      exact List.map_take
    · rw [he, hothers, Table.putLast, List.drop_append_of_le_length hlength, Table.values,
        List.map_append, List.map_drop]
      rfl

/-- What makes room for a message are the messages with other ids that are not cached any more, in
their order. -/
theorem Filed.keepMessage_fst {c : Cache} (hf : c.Filed) (h : 1 ≤ c.capacity) (m : Message) :
    (c.keepMessage m).1 = (Table.values c.messages).filter fun m' =>
      m'.id ≠ m.id ∧ m' ∉ Table.values (c.keepMessage m).2.messages := by
  -- The messages that stay are the end of those with other ids, so the others are the rest of them.
  obtain ⟨n, hgone, hrest⟩ := hf.values_keepMessage h m
  have hnodup := hf.messages.nodup_values.filter fun m' => m'.id ≠ m.id
  calc (c.keepMessage m).1
      = ((Table.values c.messages).filter (·.id ≠ m.id)).filter fun m' =>
          m' ∉ ((Table.values c.messages).filter (·.id ≠ m.id)).drop n := by
        rw [hgone, filter_notMem_drop hnodup]
    _ = _ := by
        rw [List.filter_filter, hrest]
        refine List.filter_congr fun m' _ => ?_
        by_cases hid : m'.id = m.id
        · simp [hid]
        · have hne : m' ≠ m := fun he => hid (congrArg Message.id he)
          simp [hid, hne]

/-! ## One message after another -/

/-- Keeps messages, each as the newest one when it comes. -/
def keepAll (c : Cache) (ms : List Message) : Cache := ms.foldl (fun c m => (c.keepMessage m).2) c

/-- The last message is kept after the others. -/
theorem keepAll_concat (c : Cache) (ms : List Message) (m : Message) :
    c.keepAll (ms ++ [m]) = ((c.keepAll ms).keepMessage m).2 := by
  simp [keepAll]

/-- The cache holds the messages that were kept last, as many as there is room for. -/
structure Recent (c : Cache) (capacity : Int) (ms : List Message) : Prop where
  filed : c.Filed
  room : c.capacity = capacity
  /-- The ids are those that were kept last, in the order in which they were. -/
  ids : Table.keys c.messages = (ms.map Message.id).dedup.rtake capacity.toNat
  /-- A message is the last one of its id that was kept. -/
  last : ∀ id ∈ Table.keys c.messages, c.message? id = ms.reverse.find? (·.id == id)

namespace Recent

variable {c : Cache} {capacity : Int} {ms : List Message}

/-- An empty cache. -/
theorem empty (capacity : Int) : Recent { capacity } capacity [] where
  filed := .empty capacity
  room := rfl
  ids := (List.rtake_nil _).symm
  last id hid := by cases hid

/-- One more message is kept. -/
theorem keepMessage (h : Recent c capacity ms) (hc : 1 ≤ capacity) (m : Message) :
    Recent (c.keepMessage m).2 capacity (ms ++ [m]) := by
  -- The order of the ids is the closed form's, whether the list is cut down once or each time.
  have hroom : 1 ≤ c.capacity := h.room ▸ hc
  refine ⟨h.filed.keepMessage m, by rw [keepMessage_capacity, h.room], ?_, fun id hid => ?_⟩
  · calc Table.keys (c.keepMessage m).2.messages
        = (((ms.map Message.id).dedup.rtake capacity.toNat).filter (!· == m.id) ++
            [m.id]).rtake capacity.toNat := by rw [keys_keepMessage hroom, h.ids, h.room]
      _ = ((ms.map Message.id).dedup.filter (!· == m.id) ++ [m.id]).rtake capacity.toNat :=
          rtake_moveLast (List.nodup_dedup _) _ _
      _ = ((ms ++ [m]).map Message.id).dedup.rtake capacity.toNat := by
          rw [List.map_append, List.map_singleton, dedup_concat]
  · -- The message that was kept last under an id is the new one or the one before.
    rw [List.reverse_append, List.reverse_singleton, List.singleton_append, List.find?_cons]
    by_cases hne : id = m.id
    · rw [hne, message?_keepMessage c m hroom]
      simp
    · -- The id of another message was there before.
      have hbefore : id ∈ Table.keys c.messages := by
        rw [keys_keepMessage hroom] at hid
        have hin := List.mem_of_mem_drop hid
        simp only [List.mem_append, List.mem_filter, List.mem_singleton, hne, or_false] at hin
        exact hin.1
      rw [h.filed.message?_keepMessage_of_ne hid hne, h.last id hbefore,
        beq_eq_false_iff_ne.mpr (Ne.symm hne)]

end Recent

/-- When messages are kept one after another, the most recent ones are cached. -/
theorem recent_keepAll {capacity : Int} (h : 1 ≤ capacity) (ms : List Message) :
    Recent (keepAll { capacity } ms) capacity ms := by
  induction ms using List.reverseRecOn with
  | nil => exact .empty capacity
  | append_singleton ms m ih =>
    rw [keepAll_concat]
    exact ih.keepMessage h m

/-- When messages are kept one after another, the ids that are cached are the last ones that were
kept, as many as there is room for, each at the place where it was kept last, and under each of them
stands the message that was kept last under it. The next message makes those go, oldest first, that
were cached under other ids and are not cached any more; it is cached itself, and nothing else goes
but an older message with its id. -/
theorem keepAll_recent {capacity : Int} (h : 1 ≤ capacity) (ms : List Message) (m : Message) :
    let c := keepAll { capacity } ms
    Table.keys c.messages = (ms.map Message.id).dedup.rtake capacity.toNat ∧
      (Table.values c.messages).map Message.id = Table.keys c.messages ∧
      (∀ id ∈ Table.keys c.messages, c.message? id = ms.reverse.find? (·.id == id)) ∧
      (c.keepMessage m).1 = (Table.values c.messages).filter (fun m' =>
        m'.id ≠ m.id ∧ m' ∉ Table.values (c.keepMessage m).2.messages) ∧
      (c.keepMessage m).2.message? m.id = some m ∧
      ∀ m' ∈ Table.values c.messages, m' ∉ Table.values (c.keepMessage m).2.messages →
        m' ∈ (c.keepMessage m).1 ∨ m'.id = m.id := by
  intro c
  have hrecent : Recent c capacity ms := recent_keepAll h ms
  have hroom : 1 ≤ c.capacity := hrecent.room ▸ h
  have hgone := hrecent.filed.keepMessage_fst hroom m
  refine ⟨hrecent.ids, hrecent.filed.messages.map_values, hrecent.last, hgone,
    message?_keepMessage c m hroom, fun m' hm' hnot => ?_⟩
  -- An entry leaves because there is no room for it, or because it is replaced.
  by_cases hid : m'.id = m.id
  · exact .inr hid
  · left
    rw [hgone, List.mem_filter]
    exact ⟨hm', decide_eq_true ⟨hid, hnot⟩⟩

/-- There is room for two messages. The first one is kept once more after the second one, so the
second one is the oldest when the third one comes. -/
theorem keepAll_recent_again :
    let first : Message := { id := 1, channel := 100 }
    let second : Message := { id := 2, channel := 100 }
    let again : Message := { first with content := "edited" }
    let third : Message := { id := 3, channel := 100 }
    let c := keepAll { capacity := 2 } [first, second, again]
    1 ≤ (2 : Int) ∧ Table.keys c.messages = [2, 1] ∧ c.message? 1 = some again ∧
      (c.keepMessage third).1 = [second] ∧ (c.keepMessage third).2.message? 3 = some third := by
  intro first second again third c
  -- The general statement for these three messages; what is left are closed terms.
  obtain ⟨hids, -, hlast, hgone, hnew, -⟩ :=
    @keepAll_recent 2 (by decide) [first, second, again] third
  have hkeys : Table.keys c.messages = [2, 1] := hids.trans (by decide)
  refine ⟨by decide, hkeys, ?_, hgone.trans (by decide), hnew⟩
  exact (hlast 1 (by rw [hkeys]; decide)).trans (by decide)

end Switchboard.Cache
