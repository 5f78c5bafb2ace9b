import Switchboard.Cache
import Switchboard.Proofs.Table

/-!
# What the cache keeps and what it drops

Entities are `Filed` under their own ids, and every operation of the cache keeps it so. What an
operation drops is told by lookups: `Loses` says that the messages that an operation gives as
dropped are exactly those that were cached and are no more, and `dropChannels` drops the channels of
a list and what was sent in them.
-/

namespace Switchboard.Cache

/-- Every entity stands under its own id. -/
structure Filed (c : Cache) : Prop where
  servers : Table.Filed Server.id c.servers
  channels : Table.Filed Channel.id c.channels
  users : Table.Filed User.id c.users
  messages : Table.Filed Message.id c.messages

/-! ## Channels -/

section

variable (c : Cache) (chs : List Channel) (ids : List Snowflake)

/-- Keeping channels leaves the servers alone. -/
@[simp] theorem keepChannels_servers : (c.keepChannels chs).servers = c.servers := by
  unfold keepChannels
  induction chs generalizing c with
  | nil => rfl
  | cons ch chs ih => exact ih _

/-- Keeping channels leaves the messages alone. -/
@[simp] theorem keepChannels_messages : (c.keepChannels chs).messages = c.messages := by
  unfold keepChannels
  induction chs generalizing c with
  | nil => rfl
  | cons ch chs ih => exact ih _

/-- Keeping channels does not change the number of messages that are kept at most. -/
@[simp] theorem keepChannels_capacity : (c.keepChannels chs).capacity = c.capacity := by
  unfold keepChannels
  induction chs generalizing c with
  | nil => rfl
  | cons ch chs ih => exact ih _

/-- A channel that is cached stays so when channels are kept. -/
theorem isSome_channel?_keepChannels {id : Snowflake} (h : (c.channel? id).isSome) :
    ((c.keepChannels chs).channel? id).isSome := by
  unfold keepChannels
  induction chs generalizing c with
  | nil => exact h
  | cons ch chs ih => exact ih _ (Table.isSome_find?_put h)

/-- Dropping channels leaves the servers alone. -/
@[simp] theorem dropChannels_servers : (c.dropChannels ids).servers = c.servers := by
  unfold dropChannels
  induction ids generalizing c with
  | nil => rfl
  | cons id ids ih => exact ih _

/-- Dropping channels leaves the users alone. -/
@[simp] theorem dropChannels_users : (c.dropChannels ids).users = c.users := by
  unfold dropChannels
  induction ids generalizing c with
  | nil => rfl
  | cons id ids ih => exact ih _

/-- Dropping channels does not change the number of messages that are kept at most. -/
@[simp] theorem dropChannels_capacity : (c.dropChannels ids).capacity = c.capacity := by
  unfold dropChannels
  induction ids generalizing c with
  | nil => rfl
  | cons id ids ih => exact ih _

/-- The channels that stay are those with other ids. -/
theorem dropChannels_channels :
    (c.dropChannels ids).channels = c.channels.filter fun e => !ids.contains e.1 := by
  unfold dropChannels
  induction ids generalizing c with
  | nil => simp
  | cons id ids ih =>
    rw [List.foldl_cons, ih]
    simp only [dropChannel, Table.drop, List.filter_filter]
    refine List.filter_congr fun e _ => ?_
    rw [List.contains_cons, Bool.not_or, Bool.and_comm]

/-- The messages that stay are those sent in other channels. -/
theorem dropChannels_messages :
    (c.dropChannels ids).messages = c.messages.filter fun e => !ids.contains e.2.channel := by
  unfold dropChannels
  induction ids generalizing c with
  | nil => simp
  | cons id ids ih =>
    rw [List.foldl_cons, ih]
    simp only [dropChannel, List.filter_filter]
    refine List.filter_congr fun e _ => ?_
    rw [List.contains_cons, Bool.not_or, Bool.and_comm]

end

/-- A new message takes the last place, and the oldest ones go until the rest has room; without any
room nothing changes. -/
theorem keepMessage_cases (c : Cache) (m : Message) :
    (c.capacity ≤ 0 ∧ c.keepMessage m = ([], c)) ∨
      ∃ n, 0 < c.capacity ∧ n = (Table.putLast m.id m c.messages).length - c.capacity.toNat ∧
        c.keepMessage m = (Table.values ((Table.putLast m.id m c.messages).take n),
          { c with messages := (Table.putLast m.id m c.messages).drop n }) := by
  unfold keepMessage
  split
  · rename_i h
    exact .inl ⟨h, rfl⟩
  · rename_i h
    exact .inr ⟨_, by omega, rfl, rfl⟩

/-- A message is found once it is kept, if any are. -/
theorem message?_keepMessage (c : Cache) (m : Message) (h : 1 ≤ c.capacity) :
    (c.keepMessage m).2.message? m.id = some m := by
  rcases c.keepMessage_cases m with ⟨hnone, -⟩ | ⟨n, -, hn, he⟩
  · omega
  · -- The new message stands last, and at least the last one stays.
    have hlength : n ≤ (Table.drop m.id c.messages).length := by
      have hlast : (Table.putLast m.id m c.messages).length =
          (Table.drop m.id c.messages).length + 1 := by simp [Table.putLast]
      omega
    have hrest : (Table.putLast m.id m c.messages).drop n =
        (Table.drop m.id c.messages).drop n ++ [(m.id, m)] := by
      rw [Table.putLast, List.drop_append_of_le_length hlength]
    have hnew : m.id ∉ Table.keys ((Table.drop m.id c.messages).drop n) := fun hin => by
      have hgone : m.id ∉ Table.keys (Table.drop m.id c.messages) :=
        Table.find?_eq_none_iff.mp (Table.find?_drop_self _ _)
      exact hgone (((List.drop_sublist _ _).map _).subset hin)
    rw [he, message?, hrest, ← Table.put_of_not_mem m hnew, Table.find?_put_self]

/-! ## Entities under their own ids -/

namespace Filed

variable {c : Cache}

/-- The empty cache. -/
theorem empty (capacity : Int) : Filed { capacity } := ⟨.nil, .nil, .nil, .nil⟩

/-- A cache in which other messages are kept at most. -/
theorem withCapacity (h : c.Filed) (capacity : Int) : Filed { c with capacity } :=
  ⟨h.servers, h.channels, h.users, h.messages⟩

/-- A server is kept. -/
theorem keepServer (h : c.Filed) (s : Server) : (c.keepServer s).Filed :=
  { h with servers := h.servers.put s }

/-- A channel is kept. -/
theorem keepChannel (h : c.Filed) (ch : Channel) : (c.keepChannel ch).Filed :=
  { h with channels := h.channels.put ch }

/-- Channels are kept. -/
theorem keepChannels (h : c.Filed) (chs : List Channel) : (c.keepChannels chs).Filed := by
  unfold Cache.keepChannels
  induction chs generalizing c with
  | nil => exact h
  | cons ch chs ih => exact ih (h.keepChannel ch)

/-- A user is kept. -/
theorem keepUser (h : c.Filed) (u : User) : (c.keepUser u).Filed :=
  { h with users := h.users.put u }

/-- A message is kept. -/
theorem keepMessage (h : c.Filed) (m : Message) : (c.keepMessage m).2.Filed := by
  rcases c.keepMessage_cases m with ⟨-, he⟩ | ⟨n, -, -, he⟩
  · rw [he]
    exact h
  · rw [he]
    exact { h with messages := (h.messages.putLast m).sublist (List.drop_sublist _ _) }

/-- A message is changed. -/
theorem updateMessage (h : c.Filed) (m : Message) : (c.updateMessage m).Filed :=
  { h with messages := h.messages.put m }

/-- A message is dropped. -/
theorem dropMessage (h : c.Filed) (id : Snowflake) : (c.dropMessage id).2.Filed :=
  { h with messages := h.messages.drop id }

/-- Channels are dropped. -/
theorem dropChannels (h : c.Filed) (ids : List Snowflake) : (c.dropChannels ids).Filed where
  servers := by
    rw [dropChannels_servers]
    exact h.servers
  channels := by
    rw [dropChannels_channels]
    exact h.channels.sublist List.filter_sublist
  users := by
    rw [dropChannels_users]
    exact h.users
  messages := by
    rw [dropChannels_messages]
    exact h.messages.sublist List.filter_sublist

/-- A channel is dropped. -/
theorem dropChannel (h : c.Filed) (id : Snowflake) : (c.dropChannel id).2.Filed :=
  h.dropChannels [id]

/-- A server is dropped. -/
theorem dropServer (h : c.Filed) (id : Snowflake) : (c.dropServer id).2.Filed := by
  have hs : Filed { c with servers := Table.drop id c.servers } :=
    { h with servers := h.servers.drop id }
  exact hs.dropChannels _

/-- Old messages are dropped. -/
theorem dropUntil (h : c.Filed) (cutoff : Instant) : (c.dropUntil cutoff).2.Filed :=
  { h with messages := h.messages.sublist List.filter_sublist }

/-- A channel goes when it is one of those that are dropped. -/
theorem channel?_dropChannels (h : c.Filed) (ids : List Snowflake) (id : Snowflake) :
    (c.dropChannels ids).channel? id = if id ∈ ids then none else c.channel? id := by
  have hfind := Table.find?_filter (fun e => !ids.contains e.1) id h.channels.nodup
  rw [Cache.channel?, dropChannels_channels, hfind]
  by_cases hid : id ∈ ids
  · cases hc : Table.find? id c.channels <;> simp [hid, Option.filter]
  · cases hc : Table.find? id c.channels <;> simp [hid, hc, Option.filter, Cache.channel?]

/-- A message goes when its channel is one of those that are dropped. -/
theorem message?_dropChannels (h : c.Filed) (ids : List Snowflake) (id : Snowflake) :
    (c.dropChannels ids).message? id =
      (c.message? id).filter fun m => !ids.contains m.channel := by
  rw [Cache.message?, dropChannels_messages]
  exact Table.find?_filter (fun e => !ids.contains e.2.channel) id h.messages.nodup

end Filed

/-! ## Messages that are lost -/

/-- The messages of a list are those that were cached and are no more; everything else stays. -/
structure Loses (c c' : Cache) (gone : List Message) : Prop where
  servers : c'.servers = c.servers
  channels : c'.channels = c.channels
  /-- A lost message is not cached. -/
  absent : ∀ m ∈ gone, c'.message? m.id = none
  /-- A message that is not cached any more is lost. -/
  listed : ∀ id, (c.message? id).isSome → c'.message? id = none → ∃ m ∈ gone, m.id = id

/-- The messages that make room for a new one are lost. -/
theorem Filed.loses_keepMessage {c : Cache} (h : c.Filed) (m : Message) :
    c.Loses (c.keepMessage m).2 (c.keepMessage m).1 := by
  rcases c.keepMessage_cases m with ⟨-, he⟩ | ⟨n, -, -, he⟩
  · rw [he]
    exact ⟨rfl, rfl, by simp, fun id hs hn => by simp [hn] at hs⟩
  · rw [he]
    have hall := h.messages.putLast m
    generalize hall' : Table.putLast m.id m c.messages = all at hall ⊢
    have hsplit : Table.keys all = Table.keys (all.take n) ++ Table.keys (all.drop n) := by
      rw [Table.keys, Table.keys, Table.keys, ← List.map_append, List.take_append_drop]
    have hown (e : Snowflake × Message) (he : e ∈ all.take n) : e.2.id = e.1 :=
      hall.own e (List.mem_of_mem_take he)
    refine ⟨rfl, rfl, fun m' hm' => ?_, fun id hs hn => ?_⟩
    · obtain ⟨e, he, rfl⟩ := List.mem_map.mp hm'
      rw [hown e he]
      -- The keys are distinct, so a key that goes is not one of those that stay.
      have hdis := (List.nodup_append.mp (hsplit ▸ hall.nodup)).2.2
      refine Table.find?_eq_none_iff.mpr fun hk => ?_
      exact hdis e.1 (List.mem_map_of_mem he) e.1 hk rfl
    · -- A key that was there is among all of them, so it goes when it is not one that stays.
      have hold : id ∈ Table.keys c.messages := Table.isSome_find?_iff.mp hs
      have hkey : id ∈ Table.keys all := by
        rw [← hall']
        exact Table.mem_keys_putLast.mpr (.inr hold)
      have hnot : id ∉ Table.keys (all.drop n) := Table.find?_eq_none_iff.mp hn
      rw [hsplit] at hkey
      obtain ⟨e, he, rfl⟩ := List.mem_map.mp ((List.mem_append.mp hkey).resolve_right hnot)
      exact ⟨e.2, List.mem_map_of_mem he, hown e he⟩

/-- The messages that are too old are lost. -/
theorem Filed.loses_dropUntil {c : Cache} (h : c.Filed) (cutoff : Instant) :
    c.Loses (c.dropUntil cutoff).2 (c.dropUntil cutoff).1 := by
  -- A message that is left is found as before, since no two have the same key.
  have hfind (id : Snowflake) : (c.dropUntil cutoff).2.message? id =
      (c.message? id).filter fun m => !m.createdAt ≤ cutoff :=
    Table.find?_filter _ id h.messages.nodup
  refine ⟨rfl, rfl, fun m hm => ?_, fun id hs hn => ?_⟩
  · -- A message that goes is not found any more.
    obtain ⟨hv, hage⟩ := List.mem_filter.mp hm
    have hm' : c.message? m.id = some m := h.messages.find?_key hv
    rw [hfind, hm']
    simp_all [Option.filter]
  · -- A message that is not found any more was too old.
    obtain ⟨m, hm⟩ := Option.isSome_iff_exists.mp hs
    rw [hfind, hm] at hn
    have hage : m.createdAt ≤ cutoff := by
      by_contra hlate
      simp [Option.filter, hlate] at hn
    refine ⟨m, List.mem_filter.mpr ⟨Table.mem_values_of_find? hm, by simpa using hage⟩, ?_⟩
    exact h.messages.key_of_find? hm

end Switchboard.Cache
