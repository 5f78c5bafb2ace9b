import Switchboard.Proofs.Emoji
import Switchboard.Proofs.Message
import Switchboard.Proofs.Snowflake.Spelling

/-!
# Which emojis share a record

A custom emoji is the `Same` as another one with its id, and a unicode emoji as another one with its
name. Records are filed under keys, and a key is a text: the numeral of an id, or a name. Both are
told apart by their keys among themselves. But a unicode emoji whose name `Spells` the id of a
custom one has the key of that one (`key_eq_iff`), and the two share a record. A call about an emoji
leaves the records of all other emojis as they are, if it does not share one with them
(`decode_identity`).
-/

namespace Switchboard

/-- The one emoji that a call is about. -/
def ReactionCall.emoji? : ReactionCall → Option Emoji
  | add e _ | remove e _ | dropEmoji e | get e | contains e _ => some e
  | removeAll | replace _ => none

namespace Emoji

variable {e f : Emoji}

/-- Both are custom and have one id, or both are unicode and have one name. -/
def Same (e f : Emoji) : Prop :=
  (∃ n, e.id = some n ∧ f.id = some n) ∨ (e.id = none ∧ f.id = none ∧ e.name = f.name)

/-- The first is unicode, and its name is the numeral of the second one's id. -/
def Spells (e f : Emoji) : Prop := ∃ n, e.id = none ∧ f.id = some n ∧ e.name = some (toString n)

instance : DecidableRel Same := fun e f =>
  match he : e.id, hf : f.id with
  | some n, some n' => decidable_of_iff (n = n') (by simp [Same, he, hf, eq_comm])
  | some _, none => .isFalse (by simp [Same, he, hf])
  | none, some _ => .isFalse (by simp [Same, he, hf])
  | none, none => decidable_of_iff (e.name = f.name) (by simp [Same, he, hf])

/-- The key of a custom emoji is the numeral of its id. -/
theorem key_of_id {n : Snowflake} (h : e.id = some n) : e.key = toString n := by
  rw [key, h]

/-- The key of a unicode emoji is its name. -/
theorem key_of_name {s : String} (h : e.id = none) (hs : e.name = some s) : e.key = s := by
  rw [key, h, hs]
  rfl

/-- A key that can be written is the key. -/
theorem eq_key_of_key? {k : String} (h : e.key? = .ok k) : k = e.key := by
  unfold key? at h
  split at h
  · cases h
    rfl
  · cases h

/-- An emoji that decodes without an id has a name. -/
theorem exists_name_of_decode {type : String} {data : Fields} (h : decode type data = .ok e)
    (he : e.id = none) : ∃ s, e.name = some s := by
  obtain ⟨s, -, -, rfl⟩ := (decode_ok_iff (get_id_of_decode h he)).mp h
  exact ⟨_, rfl⟩

/-- Two emojis have one key when they are the same, or when the name of one spells the id of the
other. -/
theorem key_eq_iff (he : e.id = none → ∃ s, e.name = some s)
    (hf : f.id = none → ∃ s, f.name = some s) :
    e.key = f.key ↔ e.Same f ∨ e.Spells f ∨ f.Spells e := by
  -- An id is spelled in one way only, so two custom emojis have one key if they have one id.
  cases hi : e.id with
  | some n =>
    cases hj : f.id with
    | some n' =>
      rw [key_of_id hi, key_of_id hj, Snowflake.toString_inj]
      simp [Same, Spells, hi, hj, eq_comm]
    | none =>
      obtain ⟨s, hs⟩ := hf hj
      rw [key_of_id hi, key_of_name hj hs]
      simp [Same, Spells, hi, hj, hs, eq_comm]
  | none =>
    obtain ⟨s, hs⟩ := he hi
    cases hj : f.id with
    | some n =>
      rw [key_of_name hi hs, key_of_id hj]
      simp [Same, Spells, hi, hj, hs]
    | none =>
      obtain ⟨t, ht⟩ := hf hj
      rw [key_of_name hi hs, key_of_name hj ht]
      simp [Same, Spells, hi, hj, hs, ht]

end Emoji

namespace Message

/-- A call about an emoji leaves what is found under any other key as it is. -/
theorem reaction?_after_of_ne {m : Message} {call : ReactionCall} {e f : Emoji}
    (hc : call.emoji? = some e) (hk : f.key ≠ e.key) :
    (m.after call).reaction? f = m.reaction? f := by
  unfold after
  split
  · -- A call that succeeds writes under the key of its emoji at most.
    rename_i answer m' hp
    cases call with
    | add e' u =>
      obtain ⟨-, -, hp⟩ := bind_eq_ok.mp hp
      cases hc
      cases hp
      exact Table.find?_put_of_ne hk ..
    | remove e' u =>
      -- The record of `e'` is dropped with its last user, and written otherwise.
      obtain ⟨-, -, hp⟩ := bind_eq_ok.mp hp
      cases hc
      have hm : m' = (m.unreact e u).2 := (congrArg Prod.snd (Except.ok.inj hp)).symm
      rw [hm, unreact]
      split
      · rfl
      · dsimp only
        split
        · exact Table.find?_drop_of_ne hk _
        · exact Table.find?_put_of_ne hk ..
    | dropEmoji e' =>
      obtain ⟨-, -, hp⟩ := bind_eq_ok.mp hp
      cases hc
      cases hp
      exact Table.find?_drop_of_ne hk _
    | get e' | contains e' u =>
      obtain ⟨-, -, hp⟩ := bind_eq_ok.mp hp
      cases hp
      rfl
    | removeAll | replace => cases hc
  · -- A refused call leaves the message as it was.
    rfl

/-- The keys of two emojis that were decoded, which they have if their objects can be written, are
equal when the emojis are the same, and otherwise only when the name of one spells the id of the
other. A call about an emoji leaves the record of another one as it is when neither is the case. -/
theorem decode_identity {type type' : String} {data data' : Fields} {e f : Emoji}
    (he : Emoji.decode type data = .ok e) (hf : Emoji.decode type' data' = .ok f) :
    (Value.entriesWritable data = true → ∃ k, e.key? = .ok k) ∧
      (∀ k k', e.key? = .ok k → f.key? = .ok k' →
        (k = k' ↔ e.Same f ∨ e.Spells f ∨ f.Spells e)) ∧
      ∀ (m : Message) (call : ReactionCall), call.emoji? = some e →
        ¬ e.Same f → ¬ e.Spells f → ¬ f.Spells e → (m.after call).reaction? f = m.reaction? f := by
  -- Emojis that were decoded have a name where they have no id.
  have hiff := Emoji.key_eq_iff (Emoji.exists_name_of_decode he) (Emoji.exists_name_of_decode hf)
  refine ⟨fun hw => ⟨_, if_pos (Emoji.hasKey_of_decode hw he)⟩, fun k k' hk hk' => ?_,
    fun m call hc hsame hspells hspells' => reaction?_after_of_ne hc fun hkey => ?_⟩
  · rw [← hiff, ← Emoji.eq_key_of_key? hk, ← Emoji.eq_key_of_key? hk']
  · -- Each way to share a key is excluded.
    rcases hiff.mp hkey.symm with h | h | h
    · exact hsame h
    · exact hspells h
    · exact hspells' h

/-- A custom emoji and a unicode emoji of the same name have two keys, and to drop the one leaves
the record of the other. -/
theorem decode_identity_namesakes : ∃ (data data' : Fields) (e f : Emoji),
    Emoji.decode "X" data = .ok e ∧ Emoji.decode "X" data' = .ok f ∧ e.name = f.name ∧
      (∃ k, e.key? = .ok k ∧ f.key? ≠ .ok k) ∧
      ∀ m : Message, (m.after (.dropEmoji e)).reaction? f = m.reaction? f := by
  let data : Fields := [(.text "id", .text "42"), (.text "name", .text "party")]
  let data' : Fields := [(.text "name", .text "party\uFE0F")]
  have he : Emoji.decode "X" data = .ok ⟨some "party", some 42⟩ := by decide +kernel
  have hf : Emoji.decode "X" data' = .ok ⟨some "party", none⟩ := by decide +kernel
  obtain ⟨hkeyed, hkeys, hcalls⟩ := decode_identity he hf
  obtain ⟨k, hk⟩ := hkeyed rfl
  -- Neither spells the other, as the name is no digit text.
  have hsame : ¬ Emoji.Same ⟨some "party", some 42⟩ ⟨some "party", none⟩ := by decide +kernel
  have hspells : ¬ Emoji.Spells ⟨some "party", some 42⟩ ⟨some "party", none⟩ := by
    rintro ⟨n, hid, -⟩
    cases hid
  have hspells' : ¬ Emoji.Spells ⟨some "party", none⟩ ⟨some "party", some 42⟩ := by
    rintro ⟨n, -, hid, hname⟩
    cases hid
    exact absurd hname (by decide +kernel)
  refine ⟨data, data', _, _, he, hf, rfl, ⟨k, hk, fun hk' => ?_⟩,
    fun m => hcalls m (.dropEmoji _) rfl hsame hspells hspells'⟩
  rcases (hkeys k k hk hk').mp rfl with h | h | h
  · exact hsame h
  · exact hspells h
  · exact hspells' h

/-- A custom emoji and a unicode emoji that has its id for a name share a record, so the record of
the one goes when the other is dropped. -/
theorem decode_clash : ∃ (e f : Emoji) (m : Message),
    Emoji.decode "X" [(.text "id", .text "42"), (.text "name", .text "party")] = .ok e ∧
      Emoji.decode "X" [(.text "name", .text "42")] = .ok f ∧ ¬ e.Same f ∧
      e.key? = .ok "42" ∧ f.key? = .ok "42" ∧
      m.reaction? e = some ⟨e, [7]⟩ ∧ (m.after (.dropEmoji f)).reaction? e = none := by
  let e : Emoji := ⟨some "party", some 42⟩
  let f : Emoji := ⟨some "42", none⟩
  let m : Message := { id := 1, channel := 2, reactions := [("42", ⟨e, [7]⟩)] }
  exact ⟨e, f, m, by decide +kernel, by decide +kernel, by decide +kernel, by decide +kernel,
    by decide +kernel, by decide +kernel, by decide +kernel⟩

end Message

end Switchboard
