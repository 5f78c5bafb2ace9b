import Switchboard.Notice
import Switchboard.Proofs.Value

/-!
# What comes out of a frame

A dispatch frame is an object that holds the type and the payload of its packet
(`Packet.fields_of_ofFrame`). A notice is `Keyed` when every emoji in it has a key, so that reaction
records can be filed under it. The payload of a frame that can be written can be written
(`Packet.writable_of_ofFrame`), and what is decoded from such a payload is keyed
(`Notice.keyed_of_decode`).
-/

namespace Switchboard

/-- The emojis that a notice names. -/
def Notice.emojis : Notice → List Emoji
  | reactionAdd _ _ _ e | reactionRemove _ _ _ e | reactionRemoveEmoji _ _ e => [e]
  | messageCreate _ _ _ _ reactions => reactions.map Reaction.emoji
  | _ => []

/-- Every emoji of the notice has a key. -/
def Notice.Keyed (n : Notice) : Prop := ∀ e ∈ n.emojis, e.hasKey = true

namespace Packet

open Value (areWritable entriesWritable areWritable_iff isWritable_get)

variable {p : Packet}

/-- A payload is the object in its field, and has no fields where no object stands. -/
theorem eq_of_payload {type : String} {d : Value} {data : Fields}
    (h : payload type d = .ok data) : d = .map data ∨ (data = [] ∧ d.fields? = none) := by
  unfold payload at h
  split at h
  · -- A payload that is given has to be an object.
    split at h
    · cases h
      exact .inl rfl
    · cases h
  · -- What counts as not given is an object without fields or no object.
    rename_i hgiven
    cases h
    cases d with
    | map es =>
      have hempty : es = [] := by simpa [Value.isGiven] using hgiven
      exact .inl (by rw [hempty])
    | scalar a => exact .inr ⟨rfl, rfl⟩
    | list xs => exact .inr ⟨rfl, rfl⟩

/-- A dispatch frame is an object with the type and the payload of its packet. -/
theorem fields_of_ofFrame {frame : Value} (h : ofFrame frame = .ok (some p)) :
    ∃ es : Fields, frame = .map es ∧ es.get "t" = .text p.type ∧
      (es.get "d" = .map p.data ∨ (p.data = [] ∧ (es.get "d").fields? = none)) := by
  unfold ofFrame at h
  split at h
  · rename_i es
    dsimp only at h
    split at h
    · -- The opcode is zero, so the other fields are read.
      obtain ⟨p', hp, h⟩ := map_eq_ok.mp h
      cases h
      refine ⟨es, rfl, ?_⟩
      -- The type is a text that is not empty, and the payload an object or nothing.
      unfold ofFields at hp
      split at hp
      · rename_i type htype
        split at hp
        · cases hp
        · obtain ⟨data, hdata, hp⟩ := bind_eq_ok.mp hp
          obtain ⟨sequence, -, hp⟩ := bind_eq_ok.mp hp
          cases hp
          exact ⟨htype, eq_of_payload hdata⟩
      · cases hp
    · cases h
  · cases h

/-- A field that must be there is the one that is read. -/
theorem eq_field_of_required {name : String} {v : Value} (h : p.required name = .ok v) :
    v = p.field name := by
  unfold required at h
  split at h
  · cases h
  · exact (Except.ok.inj h).symm

/-- An object is what stands in its field. -/
theorem field_of_object {name : String} {es : Fields} (h : p.object name = .ok es) :
    p.field name = .map es := by
  obtain ⟨v, hv, h⟩ := bind_eq_ok.mp h
  rw [← eq_field_of_required hv]
  split at h
  · cases h
    rfl
  · cases h

/-- An array is what stands in its field, unless it is empty. -/
theorem field_of_array {name : String} {xs : List Value} (h : p.array name = .ok xs) :
    xs = [] ∨ p.field name = .list xs := by
  unfold array at h
  split at h
  · exact .inl (Except.ok.inj h).symm
  · rename_i xs' hx
    cases h
    exact .inr hx
  · cases h

/-- An object field can be written. -/
theorem writable_of_object (hp : entriesWritable p.data = true) {name : String} {es : Fields}
    (h : p.object name = .ok es) : entriesWritable es = true := by
  have hv : (p.field name).isWritable = true := isWritable_get hp name
  rw [field_of_object h] at hv
  exact hv

/-- The items of an array field can be written. -/
theorem writable_of_array (hp : entriesWritable p.data = true) {name : String} {xs : List Value}
    (h : p.array name = .ok xs) : areWritable xs = true := by
  have hv : (p.field name).isWritable = true := isWritable_get hp name
  rcases field_of_array h with rfl | hlist
  · rfl
  · rw [hlist] at hv
    exact hv

/-- The emoji of a reaction object has a key. -/
theorem hasKey_of_reactionIn {es : Fields} (hes : entriesWritable es = true) {r : Reaction}
    (h : p.reactionIn es = .ok (some r)) : r.emoji.hasKey = true := by
  have hv : (es.get "emoji").isWritable = true := isWritable_get hes "emoji"
  unfold reactionIn at h
  -- The emoji is an object that can be written; without users it is not decoded.
  split at h
  · rename_i emoji he
    obtain ⟨users, -, h⟩ := bind_eq_ok.mp h
    split at h
    · cases h
    · obtain ⟨e, hdecode, h⟩ := bind_eq_ok.mp h
      cases h
      rw [he] at hv
      exact Emoji.hasKey_of_decode hv hdecode
  · cases h

/-- The emojis of the reactions of a message have keys. -/
theorem hasKey_of_reactions (hp : entriesWritable p.data = true) {rs : List Reaction}
    (h : p.reactions = .ok rs) : ∀ r ∈ rs, r.emoji.hasKey = true := by
  obtain ⟨xs, hxs, h⟩ := bind_eq_ok.mp h
  obtain ⟨found, hfound, h⟩ := bind_eq_ok.mp h
  cases h
  intro r hr
  have hr : some r ∈ found := by simpa using hr
  obtain ⟨x, hx, hdecode⟩ := exists_of_mapM_ok hfound hr
  have hxw : x.isWritable = true := areWritable_iff.mp (writable_of_array hp hxs) x hx
  split at hdecode
  · exact hasKey_of_reactionIn hxw hdecode
  · cases hdecode

/-- The emoji of an emoji field has a key. -/
theorem hasKey_of_emoji (hp : entriesWritable p.data = true) {name : String} {e : Emoji}
    (h : p.emoji name = .ok e) : e.hasKey = true := by
  obtain ⟨es, hes, h⟩ := bind_eq_ok.mp h
  exact Emoji.hasKey_of_decode (writable_of_object hp hes) h

end Packet

/-- What is decoded from a payload that can be written is keyed. -/
theorem Notice.keyed_of_decode {p : Packet} (hp : Value.entriesWritable p.data = true) {t : Topic}
    {n : Notice} (h : decode p t = .ok n) : n.Keyed := by
  -- Three topics and the reaction objects of a message carry emojis; the others carry none.
  have hone {e : Emoji} (he : p.emoji "emoji" = .ok e) : ∀ e' ∈ [e], e'.hasKey = true := by
    simpa using Packet.hasKey_of_emoji hp he
  have hnone : ∀ e ∈ ([] : List Emoji), e.hasKey = true := by simp
  cases t with
  | reactionAdd =>
    obtain ⟨c, -, h⟩ := bind_eq_ok.mp h
    obtain ⟨m, -, h⟩ := bind_eq_ok.mp h
    obtain ⟨u, -, h⟩ := bind_eq_ok.mp h
    obtain ⟨e, he, h⟩ := bind_eq_ok.mp h
    cases h
    exact hone he
  | reactionRemove =>
    obtain ⟨c, -, h⟩ := bind_eq_ok.mp h
    obtain ⟨m, -, h⟩ := bind_eq_ok.mp h
    obtain ⟨u, -, h⟩ := bind_eq_ok.mp h
    obtain ⟨e, he, h⟩ := bind_eq_ok.mp h
    cases h
    exact hone he
  | reactionRemoveAll =>
    obtain ⟨c, -, h⟩ := bind_eq_ok.mp h
    obtain ⟨m, -, h⟩ := bind_eq_ok.mp h
    cases h
    exact hnone
  | reactionRemoveEmoji =>
    obtain ⟨c, -, h⟩ := bind_eq_ok.mp h
    obtain ⟨m, -, h⟩ := bind_eq_ok.mp h
    obtain ⟨e, he, h⟩ := bind_eq_ok.mp h
    cases h
    exact hone he
  | messageCreate =>
    obtain ⟨m, -, h⟩ := bind_eq_ok.mp h
    obtain ⟨c, -, h⟩ := bind_eq_ok.mp h
    obtain ⟨author, -, h⟩ := bind_eq_ok.mp h
    obtain ⟨content, -, h⟩ := bind_eq_ok.mp h
    obtain ⟨rs, hrs, h⟩ := bind_eq_ok.mp h
    cases h
    intro e he
    obtain ⟨r, hr, rfl⟩ := List.mem_map.mp he
    exact Packet.hasKey_of_reactions hp hrs r hr
  | messageDelete =>
    obtain ⟨m, -, h⟩ := bind_eq_ok.mp h
    obtain ⟨c, -, h⟩ := bind_eq_ok.mp h
    cases h
    exact hnone
  | channelCreate =>
    obtain ⟨ch, -, h⟩ := map_eq_ok.mp h
    cases h
    exact hnone
  | channelDelete =>
    obtain ⟨c, -, h⟩ := map_eq_ok.mp h
    cases h
    exact hnone
  | ready =>
    obtain ⟨user, -, h⟩ := bind_eq_ok.mp h
    obtain ⟨channels, -, h⟩ := bind_eq_ok.mp h
    cases h
    exact hnone
  | serverCreate =>
    obtain ⟨g, -, h⟩ := bind_eq_ok.mp h
    obtain ⟨name, -, h⟩ := bind_eq_ok.mp h
    obtain ⟨channels, -, h⟩ := bind_eq_ok.mp h
    cases h
    exact hnone
  | serverDelete =>
    obtain ⟨g, -, h⟩ := bind_eq_ok.mp h
    cases h
    exact hnone

end Switchboard
