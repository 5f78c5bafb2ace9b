import Switchboard.Proofs.Cache
import Switchboard.Proofs.Message

/-!
# Coherent caches

A cache is `Coherent` when its entities stand under their own ids, it holds no more messages than it
may, every message belongs to a cached channel, the messages stand in the order in which they
entered, and their reactions are tidy. Each operation of the cache that frames and sweeps use keeps
it so; a message may be kept when its channel is cached and it enters no earlier than the others.

In a coherent cache the messages that are too old are the first ones (`Coherent.dropUntil_split`).
-/

namespace Switchboard.Cache

/-- What holds of a cache that is changed only by frames and sweeps. -/
structure Coherent (c : Cache) : Prop where
  filed : c.Filed
  bounded : (c.messages.length : Int) ≤ max 0 c.capacity
  housed : ∀ m ∈ Table.values c.messages, (c.channel? m.channel).isSome
  ordered : ((Table.values c.messages).map Message.createdAt).Pairwise (· ≤ ·)
  tidy : ∀ m ∈ Table.values c.messages, m.Tidy

/-- No message entered after an instant. -/
def Until (c : Cache) (t : Instant) : Prop := ∀ m ∈ Table.values c.messages, m.createdAt ≤ t

/-- No message entered after a later instant. -/
theorem Until.mono {c : Cache} {t t' : Instant} (h : c.Until t) (ht : t ≤ t') : c.Until t' :=
  fun m hm => Int.le_trans (h m hm) ht

/-- The values of a part of a table are a part of its values. -/
theorem values_sublist {α : Type} {t u : List (Snowflake × α)} (h : u.Sublist t) :
    (Table.values u).Sublist (Table.values t) :=
  h.map _

/-- No message of a part of the messages entered after an instant. -/
theorem Until.sublist {c c' : Cache} {t : Instant} (h : c.Until t)
    (hm : c'.messages.Sublist c.messages) : c'.Until t :=
  fun m hm' => h m ((values_sublist hm).subset hm')

namespace Coherent

variable {c c' : Cache} {t now : Instant}

/-- An empty cache is coherent. -/
theorem empty (capacity : Int) : Coherent { capacity } where
  filed := .empty capacity
  bounded := Int.le_max_left 0 capacity
  housed m hm := by cases hm
  ordered := List.Pairwise.nil
  tidy m hm := by cases hm

/-- A part of the messages in the same order, all of which have their channels. -/
theorem sublist (h : c.Coherent) (hf : c'.Filed) (hm : c'.messages.Sublist c.messages)
    (hcap : c'.capacity = c.capacity)
    (hc : ∀ m ∈ Table.values c'.messages, (c'.channel? m.channel).isSome) : c'.Coherent where
  filed := hf
  bounded := by
    have hlen := hm.length_le
    have hold := h.bounded
    rw [hcap]
    omega
  housed := hc
  ordered := h.ordered.sublist ((values_sublist hm).map _)
  tidy m hm' := h.tidy m ((values_sublist hm).subset hm')

/-- The same messages, whose channels are all still there. -/
theorem of_same (h : c.Coherent) (hf : c'.Filed) (hm : c'.messages = c.messages)
    (hcap : c'.capacity = c.capacity)
    (hc : ∀ id, (c.channel? id).isSome → (c'.channel? id).isSome) : c'.Coherent :=
  h.sublist hf (hm ▸ List.Sublist.refl _) hcap fun m hm' => hc _ (h.housed m (hm ▸ hm'))

/-- A server is kept. -/
theorem keepServer (h : c.Coherent) (s : Server) : (c.keepServer s).Coherent :=
  h.of_same (h.filed.keepServer s) rfl rfl fun _ hc => hc

/-- A user is kept. -/
theorem keepUser (h : c.Coherent) (u : User) : (c.keepUser u).Coherent :=
  h.of_same (h.filed.keepUser u) rfl rfl fun _ hc => hc

/-- Channels are kept. -/
theorem keepChannels (h : c.Coherent) (chs : List Channel) : (c.keepChannels chs).Coherent :=
  h.of_same (h.filed.keepChannels chs) (keepChannels_messages c chs) (keepChannels_capacity c chs)
    fun _ hc => isSome_channel?_keepChannels c chs hc

/-- A message is kept: its channel is cached, it enters no earlier than the others and its reactions
are tidy. -/
theorem keepMessage (h : c.Coherent) (ht : c.Until t) {m : Message} (hm : t ≤ m.createdAt)
    (hc : (c.channel? m.channel).isSome) (htidy : m.Tidy) :
    (c.keepMessage m).2.Coherent ∧ (c.keepMessage m).2.Until m.createdAt ∧
      (c.keepMessage m).2.capacity = c.capacity := by
  rcases c.keepMessage_cases m with ⟨-, he⟩ | ⟨n, hpos, hn, he⟩
  · rw [he]
    exact ⟨h, ht.mono hm, rfl⟩
  · have hfiled := h.filed.keepMessage m
    rw [he] at hfiled ⊢
    -- The new message stands behind those that were cached, without the one it replaces.
    have hvalues : Table.values (Table.putLast m.id m c.messages) =
        Table.values (Table.drop m.id c.messages) ++ [m] := by
      simp [Table.values, Table.putLast]
    have hold : (Table.values (Table.drop m.id c.messages)).Sublist (Table.values c.messages) :=
      values_sublist List.filter_sublist
    have hall (m' : Message) (hm' : m' ∈ Table.values (Table.putLast m.id m c.messages)) :
        m' ∈ Table.values c.messages ∨ m' = m := by
      rw [hvalues, List.mem_append, List.mem_singleton] at hm'
      exact hm'.imp (fun h => hold.subset h) id
    have hpart : (Table.values ((Table.putLast m.id m c.messages).drop n)).Sublist
        (Table.values (Table.putLast m.id m c.messages)) := values_sublist (List.drop_sublist _ _)
    have hafter : Until { c with messages := (Table.putLast m.id m c.messages).drop n }
        m.createdAt := by
      intro m' hm'
      rcases hall m' (hpart.subset hm') with hin | rfl
      · exact Int.le_trans (ht m' hin) hm
      · exact Int.le_refl _
    refine ⟨⟨hfiled, ?_, ?_, ?_, ?_⟩, hafter, rfl⟩
    · -- As many messages make room as there are too many.
      have hcap : (c.capacity.toNat : Int) = c.capacity := Int.toNat_of_nonneg (by omega)
      rw [List.length_drop, hn]
      show _ ≤ max 0 c.capacity
      omega
    · intro m' hm'
      rcases hall m' (hpart.subset hm') with hin | rfl
      · exact h.housed m' hin
      · exact hc
    · -- The new message is the last one and entered no earlier than the others.
      refine List.Pairwise.sublist (hpart.map _) ?_
      rw [hvalues, List.map_append, List.pairwise_append]
      refine ⟨h.ordered.sublist (hold.map _), List.pairwise_singleton _ _, fun a ha b hb => ?_⟩
      obtain ⟨m', hm', rfl⟩ := List.mem_map.mp ha
      rw [List.mem_singleton.mp hb]
      exact Int.le_trans (ht m' (hold.subset hm')) hm
    · intro m' hm'
      rcases hall m' (hpart.subset hm') with hin | rfl
      · exact h.tidy m' hin
      · exact htidy

/-- A cached message is changed in its reactions only. -/
theorem updateMessage (h : c.Coherent) (ht : c.Until t) {m m' : Message}
    (hm : c.message? m'.id = some m) (hchan : m'.channel = m.channel)
    (htime : m'.createdAt = m.createdAt) (htidy : m'.Tidy) :
    (c.updateMessage m').Coherent ∧ (c.updateMessage m').Until t := by
  -- The message stands at its old place, with its old time.
  have hkeys : Table.keys (c.updateMessage m').messages = Table.keys c.messages :=
    Table.keys_put_of_mem m' (Table.isSome_find?_iff.mp (by
      rw [Cache.message?] at hm
      simp [hm]))
  have htimes : (Table.values (c.updateMessage m').messages).map Message.createdAt =
      (Table.values c.messages).map Message.createdAt :=
    Table.map_values_put Message.createdAt hm htime
  have hin : m ∈ Table.values c.messages := Table.mem_values_of_find? hm
  -- So nothing but this message is new.
  have hall (m₁ : Message) (hm₁ : m₁ ∈ Table.values (c.updateMessage m').messages) :
      m₁ ∈ Table.values c.messages ∨ m₁ = m' := by
    obtain ⟨e, he, rfl⟩ := List.mem_map.mp hm₁
    rcases Table.mem_of_mem_put he with rfl | he
    · exact .inr rfl
    · exact .inl (List.mem_map_of_mem he)
  refine ⟨⟨h.filed.updateMessage m', ?_, ?_, ?_, ?_⟩, ?_⟩
  · -- As many messages as before.
    have hlen := congrArg List.length hkeys
    simp only [Table.keys, List.length_map] at hlen
    have hold := h.bounded
    have hcap : (c.updateMessage m').capacity = c.capacity := rfl
    rw [hlen, hcap]
    exact hold
  · -- Each is in a cached channel.
    intro m₁ hm₁
    rcases hall m₁ hm₁ with hold | rfl
    · exact h.housed m₁ hold
    · rw [hchan]
      exact h.housed m hin
  · -- They stand in the order of their times.
    rw [htimes]
    exact h.ordered
  · -- Their reactions are tidy.
    intro m₁ hm₁
    rcases hall m₁ hm₁ with hold | rfl
    · exact h.tidy m₁ hold
    · exact htidy
  · -- None is from later than `t`.
    intro m₁ hm₁
    rcases hall m₁ hm₁ with hold | rfl
    · exact ht m₁ hold
    · rw [htime]
      exact ht m hin

/-- A message is dropped. -/
theorem dropMessage (h : c.Coherent) (id : Snowflake) : (c.dropMessage id).2.Coherent :=
  h.sublist (h.filed.dropMessage id) List.filter_sublist rfl fun m hm =>
    h.housed m ((values_sublist List.filter_sublist).subset hm)

/-- Channels are dropped, and what was sent in them. -/
theorem dropChannels (h : c.Coherent) (ids : List Snowflake) : (c.dropChannels ids).Coherent := by
  refine h.sublist (h.filed.dropChannels ids) ?_ (dropChannels_capacity c ids) fun m hm => ?_
  · rw [dropChannels_messages]
    exact List.filter_sublist
  · rw [dropChannels_messages] at hm
    obtain ⟨e, he, rfl⟩ := List.mem_map.mp hm
    obtain ⟨hmem, hnot⟩ := List.mem_filter.mp he
    have hid : e.2.channel ∉ ids := by simpa using hnot
    rw [h.filed.channel?_dropChannels, if_neg hid]
    exact h.housed e.2 (List.mem_map_of_mem hmem)

/-- A server is dropped, with its channels and what was sent in them. -/
theorem dropServer (h : c.Coherent) (id : Snowflake) : (c.dropServer id).2.Coherent := by
  have hserver : Coherent { c with servers := Table.drop id c.servers } :=
    h.of_same { h.filed with servers := h.filed.servers.drop id } rfl rfl fun _ hc => hc
  exact hserver.dropChannels _

/-- Old messages are dropped. -/
theorem dropUntil (h : c.Coherent) (cutoff : Instant) : (c.dropUntil cutoff).2.Coherent :=
  h.sublist (h.filed.dropUntil cutoff) List.filter_sublist rfl fun m hm =>
    h.housed m ((values_sublist List.filter_sublist).subset hm)

end Coherent

/-! ## Old messages -/

/-- In a list that is ordered by a measure the entries up to a bound are the first ones. -/
theorem filter_le_split {α : Type} (f : α → Int) (bound : Int) {l : List α}
    (h : (l.map f).Pairwise (· ≤ ·)) :
    ∃ n, (l.filter fun a => f a ≤ bound) = l.take n ∧
      (l.filter fun a => !decide (f a ≤ bound)) = l.drop n := by
  induction l with
  | nil => exact ⟨0, rfl, rfl⟩
  | cons a l ih =>
    rw [List.map_cons, List.pairwise_cons] at h
    by_cases ha : f a ≤ bound
    · -- One more entry up to the bound.
      obtain ⟨n, hfirst, hrest⟩ := ih h.2
      exact ⟨n + 1, by simp [ha, hfirst], by simp [ha, hrest]⟩
    · -- What follows an entry beyond the bound is beyond it, too.
      have hlate : ∀ b ∈ l, ¬ f b ≤ bound := fun b hb hle =>
        ha (Int.le_trans (h.1 (f b) (List.mem_map_of_mem hb)) hle)
      refine ⟨0, ?_, ?_⟩
      · rw [List.filter_eq_nil_iff.mpr, List.take_zero]
        intro b hb
        rcases List.mem_cons.mp hb with rfl | hb
        · simpa using ha
        · simpa using hlate b hb
      · rw [List.filter_eq_self.mpr, List.drop_zero]
        intro b hb
        rcases List.mem_cons.mp hb with rfl | hb
        · simpa using ha
        · simpa using hlate b hb

/-- The messages of a coherent cache that are too old are the first ones. -/
theorem Coherent.dropUntil_split {c : Cache} (h : c.Coherent) (cutoff : Instant) :
    ∃ n, (c.dropUntil cutoff).1 = Table.values (c.messages.take n) ∧
      (c.dropUntil cutoff).2.messages = c.messages.drop n := by
  have hordered : (c.messages.map fun e => e.2.createdAt).Pairwise (· ≤ ·) := by
    have hold := h.ordered
    rwa [Table.values, List.map_map] at hold
  obtain ⟨n, hfirst, hrest⟩ :=
    filter_le_split (fun e : Snowflake × Message => e.2.createdAt) cutoff hordered
  refine ⟨n, ?_, hrest⟩
  rw [← hfirst]
  simp only [Cache.dropUntil, Table.values, List.filter_map]
  rfl

end Switchboard.Cache
