import Switchboard.Proofs.Notice
import Switchboard.Proofs.Snowflake.Spelling

/-!
# Why a packet does not decode

A packet that does not decode is `Malformed`: the failure is a decode error that names the type of
the packet. There are two failures beside that one, both of them because something in the payload is
`TooLong`: a text of more than `digitLimit` digits that is read as an id, and an integer of more
digits than that in a value that is quoted in a message. Every typed reader of a value fails in one
of these ways, for a cause that lies in the value that it reads (`Failure.DueTo`).
-/

namespace Switchboard

/-! ## Parts of values -/

namespace Value

/-- A value is another one or a part of it, at any depth. -/
inductive Within (w : Value) : Value → Prop
  | self : Within w w
  | item {xs : List Value} {x : Value} (hx : x ∈ xs) (h : Within w x) : Within w (.list xs)
  | entry {es : Fields} {k : Scalar} {x : Value} (hx : (k, x) ∈ es) (h : Within w x) :
    Within w (.map es)

/-- What is within a part is within the whole. -/
theorem Within.trans {u v w : Value} (huv : u.Within v) (hvw : v.Within w) : u.Within w := by
  induction hvw with
  | self => exact huv
  | item hx _ ih => exact .item hx ih
  | entry hx _ ih => exact .entry hx ih

/-- The parts of a value that can be written can be written. -/
theorem Within.isWritable {w v : Value} (h : w.Within v) (hv : v.isWritable = true) :
    w.isWritable = true := by
  -- The values of a map are parts of it.
  have hentry {es : Fields} (hes : entriesWritable es = true) {k : Scalar} {x : Value}
      (hx : (k, x) ∈ es) : x.isWritable = true := by
    induction es with
    | nil => cases hx
    | cons e es ih =>
      simp only [entriesWritable, Bool.and_eq_true] at hes
      rcases List.mem_cons.mp hx with rfl | hx
      · exact hes.1.2
      · exact ih hes.2 hx
  -- The part is the value, or a part of an item or of an entry.
  induction h with
  | self => exact hv
  | item hx _ ih => exact ih (areWritable_iff.mp hv _ hx)
  | entry hx _ ih => exact ih (hentry hv hx)

/-- A text of so many digits and of nothing else is within the value. -/
def HoldsDigits (v : Value) (count : Nat) : Prop :=
  ∃ s ds, (text s).Within v ∧ Snowflake.digits? s.toList = some ds ∧ ds.length = count

end Value

/-- A field of a map is within the map, or missing. -/
theorem Fields.within_get (es : Fields) (name : String) :
    (es.get name).Within (.map es) ∨ es.get name = .null := by
  -- What is found under a key stands there.
  have hfound {v : Value} (h : Table.find? (Scalar.text name) es = some v) :
      ∃ k, (k, v) ∈ es := by
    induction es with
    | nil => cases h
    | cons e es ih =>
      obtain ⟨k, w⟩ := e
      unfold Table.find? at h
      split at h
      · cases h
        exact ⟨k, List.mem_cons_self⟩
      · obtain ⟨k', hk'⟩ := ih h
        exact ⟨k', List.mem_cons_of_mem _ hk'⟩
  unfold Fields.get
  cases h : Table.find? (Scalar.text name) es with
  | none => exact .inr rfl
  | some v =>
    obtain ⟨k, hk⟩ := hfound h
    exact .inl (.entry hk .self)

/-! ## Causes -/

namespace Failure

/-- A decode error of a packet of a type. -/
def Malformed (type : String) : Failure → Prop
  | decode e => e.packetType = type
  | _ => False

/-- A value holds a text of too many digits, or an integer that is too long to write. -/
def TooLong (v : Value) : Failure → Prop
  | tooManyDigits n => digitLimit < n ∧ v.HoldsDigits n
  | tooLongToWrite => v.isWritable = false
  | _ => False

/-- A failure to decode a value in a packet of a type. -/
def DueTo (type : String) (v : Value) (f : Failure) : Prop := f.Malformed type ∨ f.TooLong v

variable {type : String} {f : Failure}

/-- What is too long in a part is too long in the whole. -/
theorem TooLong.of_within {w v : Value} (h : f.TooLong w) (hw : w.Within v) : f.TooLong v := by
  cases f with
  | tooManyDigits n =>
    obtain ⟨hn, s, ds, hs, hds⟩ := h
    exact ⟨hn, s, ds, hs.trans hw, hds⟩
  | tooLongToWrite =>
    refine Bool.eq_false_iff.mpr fun hv => ?_
    rw [TooLong, hw.isWritable hv] at h
    cases h
  | _ => exact h.elim

/-- Nothing is too long in null. -/
theorem not_tooLong_null : ¬ f.TooLong .null := by
  intro h
  cases f with
  | tooManyDigits n =>
    obtain ⟨-, s, ds, hs, -⟩ := h
    cases hs
  | tooLongToWrite => cases h
  | _ => exact h

/-- A failure to decode a part is one to decode the whole. -/
theorem DueTo.of_within {w v : Value} (h : f.DueTo type w) (hw : w.Within v) : f.DueTo type v :=
  h.imp_right fun hlong => hlong.of_within hw

/-- A failure to decode a field is one to decode the map. -/
theorem DueTo.of_get {es : Fields} {name : String} (h : f.DueTo type (es.get name)) :
    f.DueTo type (.map es) := by
  rcases es.within_get name with hw | hnull
  · exact h.of_within hw
  · -- A missing field reads as null, in which nothing is too long.
    rw [hnull] at h
    exact .inl (h.resolve_right not_tooLong_null)

end Failure

open Failure (DueTo Malformed)

/-! ## Ids and emojis -/

/-- An id fails to decode for what stands in its place. -/
theorem Snowflake.failsAs_decode (type field : String) (v : Value) :
    FailsAs (DueTo type v) (decode type field v) := by
  -- A value is refused with its text, or for it if it has none.
  have hrefuse (v : Value) : (refuse type field v).DueTo type v := by
    unfold refuse Value.shown?
    cases hv : v.isWritable with
    | true => exact .inl rfl
    | false => exact .inr hv
  unfold decode
  -- An integer, a text or something else stands in the place of the id.
  split
  · exact failsAs_error (.inl rfl)
  · exact failsAs_ok _
  · rename_i s
    -- A text of digits only fails to be read if there are too many of them.
    split
    · rename_i ds hds
      unfold ofDigits?
      split
      · rename_i hlong
        exact failsAs_error (.inr ⟨hlong, s, ds, .self, hds, rfl⟩)
      · exact failsAs_ok _
    · exact failsAs_error (hrefuse _)
  · exact failsAs_error (hrefuse _)

/-- An id in an object fails to decode for what stands in the object. -/
theorem Snowflake.failsAs_decode_get (type field : String) (data : Fields) (key : String) :
    FailsAs (DueTo type (.map data)) (decode type field (data.get key)) :=
  (failsAs_decode _ _ _).mono fun _ => .of_get

/-- A row of too many zeros fails to decode for its number of digits. -/
theorem Snowflake.decode_zeros (type field : String) {count : Nat} (hlong : digitLimit < count) :
    decode type field (.text (String.ofList (List.replicate count '0'))) =
      .error (.tooManyDigits count) := by
  have hlength : (String.ofList (List.replicate count '0')).length = count := by
    rw [String.length_ofList, List.length_replicate]
  have hnumeral : Numeral (String.ofList (List.replicate count '0')) := by
    -- The last zero is a numeral by itself.
    obtain ⟨n, rfl⟩ := Nat.exists_eq_add_one_of_ne_zero (Nat.ne_zero_of_lt hlong)
    rw [List.replicate_succ', String.ofList_append]
    exact numeral_zeros n (by decide)
  rw [decode_of_numeral type field hnumeral, hlength, if_pos hlong]

/-- An emoji fails to decode for what stands in its object. -/
theorem Emoji.failsAs_decode (type : String) (data : Fields) :
    FailsAs (DueTo type (.map data)) (decode type data) := by
  have hid := Snowflake.failsAs_decode_get type "emoji.id" data "id"
  unfold decode
  dsimp only
  split
  -- An id that is no integer and no text is not refused for its value.
  case h_3 => exact failsAs_error (.inl rfl)
  all_goals
    refine (failsAs_ok _).bind fun name _ => ?_
    split
    · -- Without an id there has to be a name.
      split
      · split
        · exact failsAs_error (.inl rfl)
        · exact failsAs_ok _
      · exact failsAs_error (.inl rfl)
    · exact hid.bind fun n _ => failsAs_ok _

/-! ## Fields -/

namespace Packet

variable {p : Packet}

/-- A field that must be there fails to be read when it is missing. -/
theorem failsAs_required (p : Packet) (name : String) :
    FailsAs (Malformed p.type) (p.required name) := by
  unfold required
  split
  · exact failsAs_error rfl
  · exact failsAs_ok _

/-- An id is decoded from its field, which must be there. -/
theorem snowflake_of_required {name : String} {v : Value} (h : p.required name = .ok v) :
    p.snowflake name = Snowflake.decode p.type name v := by
  rw [snowflake, h]
  rfl

/-- An id fails to decode for what stands in its field. -/
theorem failsAs_snowflake (p : Packet) (name : String) :
    FailsAs (DueTo p.type (p.field name)) (p.snowflake name) := by
  refine ((p.failsAs_required name).mono fun _ => .inl).bind fun v hv => ?_
  rw [eq_field_of_required hv]
  exact Snowflake.failsAs_decode _ _ _

/-- So does one that may be missing. -/
theorem failsAs_snowflake? (p : Packet) (name : String) :
    FailsAs (DueTo p.type (p.field name)) (p.snowflake? name) := by
  unfold snowflake?
  split
  · exact failsAs_ok _
  · exact (Snowflake.failsAs_decode _ _ _).map _

/-- A text fails to be read when its field is missing or holds no text. -/
theorem failsAs_string (p : Packet) (name : String) :
    FailsAs (Malformed p.type) (p.string name) := by
  refine (p.failsAs_required name).bind fun v _ => ?_
  split
  · exact failsAs_ok _
  · exact failsAs_error rfl

/-- A text that may be missing fails to be read when its field holds no text. -/
theorem failsAs_string? (p : Packet) (name : String) :
    FailsAs (Malformed p.type) (p.string? name) := by
  unfold string?
  split
  · exact failsAs_ok _
  · exact failsAs_ok _
  · exact failsAs_error rfl

/-- An object fails to be read when its field is missing or holds no object. -/
theorem failsAs_object (p : Packet) (name : String) :
    FailsAs (Malformed p.type) (p.object name) := by
  refine (p.failsAs_required name).bind fun v _ => ?_
  split
  · exact failsAs_ok _
  · exact failsAs_error rfl

/-- An array fails to be read when its field holds no array. -/
theorem failsAs_array (p : Packet) (name : String) :
    FailsAs (Malformed p.type) (p.array name) := by
  unfold array
  split
  · exact failsAs_ok _
  · exact failsAs_ok _
  · exact failsAs_error rfl

/-- The items of an array stand in its field. -/
theorem within_of_array {name : String} {xs : List Value} (h : p.array name = .ok xs) {x : Value}
    (hx : x ∈ xs) : x.Within (p.field name) := by
  rcases field_of_array h with rfl | hlist
  · cases hx
  · rw [hlist]
    exact .item hx .self

/-- An emoji fails to decode for what stands in its field. -/
theorem failsAs_emoji (p : Packet) (name : String) :
    FailsAs (DueTo p.type (p.field name)) (p.emoji name) := by
  refine ((p.failsAs_object name).mono fun _ => .inl).bind fun es hes => ?_
  rw [field_of_object hes]
  exact Emoji.failsAs_decode _ _

/-- The typed readers of a field fail with a decode error of the packet, or, where ids are read,
because something in the field is too long. -/
structure Readable (p : Packet) (name : String) : Prop where
  snowflake : FailsAs (DueTo p.type (p.field name)) (p.snowflake name)
  snowflake? : FailsAs (DueTo p.type (p.field name)) (p.snowflake? name)
  string : FailsAs (Malformed p.type) (p.string name)
  string? : FailsAs (Malformed p.type) (p.string? name)
  object : FailsAs (Malformed p.type) (p.object name)
  array : FailsAs (Malformed p.type) (p.array name)
  emoji : FailsAs (DueTo p.type (p.field name)) (p.emoji name)

/-- Every field is read so. -/
theorem readable (p : Packet) (name : String) : p.Readable name where
  snowflake := p.failsAs_snowflake name
  snowflake? := p.failsAs_snowflake? name
  string := p.failsAs_string name
  string? := p.failsAs_string? name
  object := p.failsAs_object name
  array := p.failsAs_array name
  emoji := p.failsAs_emoji name

/-! ## Parts of a payload -/

/-- A name fails to be read when it is no text. -/
theorem failsAs_nameIn (p : Packet) (data : Fields) (key field : String) :
    FailsAs (Malformed p.type) (p.nameIn data key field) := by
  unfold nameIn
  dsimp only
  split
  · split
    · exact failsAs_ok _
    · exact failsAs_error rfl
  · exact failsAs_ok _

/-- A user fails to decode for what stands in its field. -/
theorem failsAs_user (p : Packet) (name : String) :
    FailsAs (DueTo p.type (p.field name)) (p.user name) := by
  refine ((p.failsAs_object name).mono fun _ => .inl).bind fun data hdata => ?_
  rw [field_of_object hdata]
  refine ((p.failsAs_nameIn _ _ _).mono fun _ => .inl).bind fun username _ => ?_
  exact (Snowflake.failsAs_decode_get _ _ _ _).bind fun id _ => failsAs_ok _

/-- A channel fails to decode for what stands in its object. -/
theorem failsAs_channelIn (p : Packet) (data : Fields) (server : Option Snowflake) :
    FailsAs (DueTo p.type (.map data)) (p.channelIn data server) := by
  refine ((p.failsAs_nameIn _ _ _).mono fun _ => .inl).bind fun name _ => ?_
  have hid := Snowflake.failsAs_decode_get p.type "id" data "id"
  have hserver := Snowflake.failsAs_decode_get p.type "guild_id" data "guild_id"
  dsimp only
  split
  · exact (failsAs_ok server).bind fun s _ => hid.bind fun id _ => failsAs_ok _
  · exact (hserver.map some).bind fun s _ => hid.bind fun id _ => failsAs_ok _

/-- Channels fail to decode for what stands in their field. -/
theorem failsAs_channels (p : Packet) (name : String) (server : Option Snowflake) :
    FailsAs (DueTo p.type (p.field name)) (p.channels name server) := by
  refine ((p.failsAs_array name).mono fun _ => .inl).bind fun xs hxs => ?_
  refine .mapM fun x hx => ?_
  have hw := within_of_array hxs hx
  split
  · exact (p.failsAs_channelIn _ _).mono fun f hf => hf.of_within hw
  · exact failsAs_error (.inl rfl)

/-- The users of a reaction fail to decode for what stands in its object. -/
theorem failsAs_reactionUsers (p : Packet) (data : Fields) :
    FailsAs (DueTo p.type (.map data)) (p.reactionUsers data) := by
  unfold reactionUsers
  dsimp only
  split
  · split
    · rename_i us hus
      -- Each user is due to an item of the list.
      refine .mapM fun u hu f hf => ?_
      have hdue : f.DueTo p.type (data.get "user_ids") := by
        rw [hus]
        exact (Snowflake.failsAs_decode _ _ u f hf).of_within (.item hu .self)
      exact hdue.of_get
    · exact failsAs_error (.inl rfl)
  · exact failsAs_ok _

/-- A reaction fails to decode for what stands in its object. -/
theorem failsAs_reactionIn (p : Packet) (data : Fields) :
    FailsAs (DueTo p.type (.map data)) (p.reactionIn data) := by
  unfold reactionIn
  split
  · rename_i emoji hemoji
    -- The emoji is due to the object in its field.
    have hdecode : FailsAs (DueTo p.type (.map data)) (Emoji.decode p.type emoji) := fun f hf => by
      have hdue : f.DueTo p.type (data.get "emoji") := by
        rw [hemoji]
        exact Emoji.failsAs_decode _ emoji f hf
      exact hdue.of_get
    refine (p.failsAs_reactionUsers data).bind fun users _ => ?_
    split
    · exact failsAs_ok _
    · exact hdecode.bind fun e _ => failsAs_ok _
  · exact failsAs_error (.inl rfl)

/-- Reactions fail to decode for what stands in their field. -/
theorem failsAs_reactions (p : Packet) :
    FailsAs (DueTo p.type (p.field "reactions")) p.reactions := by
  refine ((p.failsAs_array "reactions").mono fun _ => .inl).bind fun xs hxs => ?_
  refine FailsAs.bind (.mapM fun x hx => ?_) fun found _ => failsAs_ok _
  have hw := within_of_array hxs hx
  split
  · exact (p.failsAs_reactionIn _).mono fun f hf => hf.of_within hw
  · exact failsAs_error (.inl rfl)

end Packet

/-! ## Notices -/

/-- A packet of a topic fails to decode for what stands in its payload. -/
theorem Notice.failsAs_decode (p : Packet) (t : Topic) :
    FailsAs (DueTo p.type (.map p.data)) (decode p t) := by
  have hfield {α : Type} {x : Except Failure α} {name : String}
      (h : FailsAs (DueTo p.type (p.field name)) x) : FailsAs (DueTo p.type (.map p.data)) x :=
    h.mono fun f hf => DueTo.of_get hf
  -- The fields are read one after another, so the decoder fails as the first reader that does.
  have hid (name : String) := hfield (p.failsAs_snowflake name)
  have hemoji := hfield (p.failsAs_emoji "emoji")
  have htext (name : String) : FailsAs (DueTo p.type (.map p.data)) (p.string? name) :=
    (p.failsAs_string? name).mono fun _ => .inl
  cases t with
  | reactionAdd | reactionRemove =>
    refine (hid "channel_id").bind fun c _ => (hid "message_id").bind fun m _ => ?_
    exact (hid "user_id").bind fun u _ => hemoji.bind fun e _ => failsAs_ok _
  | reactionRemoveAll =>
    exact (hid "channel_id").bind fun c _ => (hid "message_id").bind fun m _ => failsAs_ok _
  | reactionRemoveEmoji =>
    refine (hid "channel_id").bind fun c _ => (hid "message_id").bind fun m _ => ?_
    exact hemoji.bind fun e _ => failsAs_ok _
  | messageCreate =>
    refine (hid "id").bind fun m _ => (hid "channel_id").bind fun c _ => ?_
    refine (hfield (p.failsAs_user "author")).bind fun author _ => ?_
    refine (htext "content").bind fun content _ => ?_
    exact (hfield p.failsAs_reactions).bind fun rs _ => failsAs_ok _
  | messageDelete =>
    exact (hid "id").bind fun m _ => (hid "channel_id").bind fun c _ => failsAs_ok _
  | channelCreate => exact (p.failsAs_channelIn p.data none).map _
  | channelDelete => exact (hid "id").map _
  | ready =>
    refine (hfield (p.failsAs_user "user")).bind fun user _ => ?_
    exact (hfield (p.failsAs_channels "private_channels" none)).bind fun chs _ => failsAs_ok _
  | serverCreate =>
    refine (hid "id").bind fun g _ => (htext "name").bind fun name _ => ?_
    exact (hfield (p.failsAs_channels "channels" (some g))).bind fun chs _ => failsAs_ok _
  | serverDelete => exact (hid "id").bind fun g _ => failsAs_ok _

end Switchboard
