import Switchboard.Packet
import Switchboard.Proofs.Attempt
import Switchboard.Proofs.Table

/-!
# Frames and their packets

A frame is one of three things. It is `Foreign` when it is an object with an opcode other than zero;
it `Carries` a packet when it is an object without such an opcode whose fields are those of the
packet; otherwise it is malformed. `Packet.ofFrame` tells the three apart: it passes over the first,
gives the packet of the second and refuses the third (`ofFrame_exact`). It looks at four entries of
an object and at no other (`ofFrame_filter`), and it undoes `Packet.frame`, which writes a packet as
a frame (`ofFrame_frame`).

What counts as zero and what counts as not given are properties of values (`Value.IsZero` and
`Value.Unset`), said case by case over the kinds of values.
-/

namespace Switchboard

/-- A double equals the integer zero when it is a zero, of either sign. -/
theorem Binary64.sameInt_zero (x : Binary64) : x.sameInt 0 = x.isZero := by
  rw [sameInt, isZero, Int.zero_mul]

namespace Value

/-- Numerically zero: the integer, a double of either sign, or the truth value that counts as it. -/
inductive IsZero : Value → Prop
  | int : IsZero (.int 0)
  | bool : IsZero (.bool false)
  | float {x : Binary64} (hx : x.isZero = true) : IsZero (.float x)

/-- Null, zero or empty. -/
inductive Unset : Value → Prop
  | null : Unset .null
  | zero {v : Value} (hv : v.IsZero) : Unset v
  | text : Unset (.text "")
  | list : Unset (.list [])
  | map : Unset (.map [])

/-- A value is not given when it is null, zero or empty. -/
theorem isGiven_eq_false_iff {v : Value} : v.isGiven = false ↔ v.Unset := by
  constructor
  · intro h
    -- Of each kind there is one value that is not given, and two among the doubles.
    cases v with
    | scalar s =>
      cases s with
      | null => exact .null
      | bool b =>
        obtain rfl : b = false := h
        exact .zero .bool
      | int n =>
        obtain rfl : n = 0 := by simpa [isGiven] using h
        exact .zero .int
      | float x =>
        have hx : x.isZero = true := by simpa [isGiven] using h
        exact .zero (.float hx)
      | text s =>
        obtain rfl : s = "" := by simpa [isGiven] using h
        exact .text
    | list xs =>
      obtain rfl : xs = [] := by simpa [isGiven] using h
      exact .list
    | map es =>
      obtain rfl : es = [] := by simpa [isGiven] using h
      exact .map
  · rintro (_ | ⟨_ | _ | hx⟩ | _ | _ | _)
    case float => simp [isGiven, hx]
    all_goals rfl

/-- An object counts as given unless it is empty, which is then the empty object. -/
theorem eq_nil_of_unset {es : Fields} (h : (Value.map es).Unset) : es = [] := by
  cases h with
  | zero hv => cases hv
  | map => rfl

end Value

/-- Leaving out entries does not change what is found at a key, if none of them is at it. -/
theorem Table.find?_filter_of_keeps {κ α : Type} [BEq κ] {k : κ} {p : κ × α → Bool}
    (h : ∀ e, (e.1 == k) = true → p e = true) (t : List (κ × α)) :
    find? k (t.filter p) = find? k t := by
  induction t with
  | nil => rfl
  | cons e t ih =>
    rw [List.filter_cons]
    by_cases he : (e.1 == k) = true
    · simp [h e he, find?, he]
    · -- The first entry is at another key, so it does not matter whether it is left out.
      split
      · simp [find?, he, ih]
      · simp [find?, he, ih]

namespace Packet

open Value (IsZero Unset)

variable {es : Fields} {v : Value} {p : Packet} {type : String}

/-! ## The fields of a frame -/

/-- The opcode of a dispatch frame is zero. -/
theorem isDispatch_iff : isDispatch v = true ↔ v.IsZero := by
  have hfloat (x : Binary64) : isDispatch (.float x) = x.isZero := x.sameInt_zero
  constructor
  · intro h
    -- The only values that are equal to zero are `False`, the integer and the two zeros of doubles.
    cases v with
    | scalar s =>
      cases s with
      | bool b =>
        cases b
        · exact .bool
        · cases h
      | int n =>
        obtain rfl : n = 0 := eq_of_beq (show (n == 0) = true from h)
        exact .int
      | float x => exact .float (hfloat x ▸ h)
      | null => cases h
      | text s => cases h
    | list xs => cases h
    | map es => cases h
  · rintro (_ | _ | hx)
    · rfl
    · rfl
    · rw [hfloat]
      exact hx

/-- The payload in a field is its object; a field that is not given has no fields. -/
theorem payload_eq_ok {d : Value} {data : Fields} :
    payload type d = .ok data ↔ d = .map data ∨ d.Unset ∧ data = [] := by
  unfold payload
  split
  · rename_i hgiven
    -- What is given is an object, or it is refused.
    have hset : ¬ d.Unset := fun h => by
      rw [Value.isGiven_eq_false_iff.mpr h] at hgiven
      cases hgiven
    split
    · simp [hset]
    · rename_i hother
      constructor
      · intro h
        cases h
      · rintro (hd | ⟨hd, -⟩)
        · exact (hother data hd).elim
        · exact absurd hd hset
  · rename_i hgiven
    have hunset : d.Unset := Value.isGiven_eq_false_iff.mp (Bool.eq_false_iff.mpr hgiven)
    constructor
    · intro h
      cases h
      exact .inr ⟨hunset, rfl⟩
    · rintro (rfl | ⟨-, rfl⟩)
      · rw [Value.eq_nil_of_unset hunset]
      · rfl

/-- The sequence number in a field is an integer, or the field is null. -/
theorem sequenceNumber_eq_ok {s : Value} {sequence : Option Int} :
    sequenceNumber type s = .ok sequence ↔
      s = .null ∧ sequence = none ∨ ∃ n, s = .int n ∧ sequence = some n := by
  unfold sequenceNumber
  -- Null, an integer, or something else, which is refused.
  split
  · simp [eq_comm]
  · simp [eq_comm]
  · rename_i hnull hint
    constructor
    · intro h
      cases h
    · rintro (⟨hs, -⟩ | ⟨n, hs, -⟩)
      · exact (hnull hs).elim
      · exact (hint n hs).elim

/-! ## Frames -/

/-- An object with an opcode that is not zero. -/
def Foreign (v : Value) : Prop :=
  ∃ es op, v = .map es ∧ Table.find? (.text "op") es = some op ∧ ¬ op.IsZero

/-- An object carries a packet. Its opcode may be missing, and so may the sequence number and the
payload, which may be given as another value that is empty or zero, too. -/
structure Carries (es : Fields) (p : Packet) : Prop where
  opcode : ∀ op, Table.find? (.text "op") es = some op → op.IsZero
  tag : es.get "t" = .text p.type
  named : p.type ≠ ""
  payload : es.get "d" = .map p.data ∨ (es.get "d").Unset ∧ p.data = []
  sequence : es.get "s" = .null ∧ p.sequence = none ∨
    ∃ n, es.get "s" = .int n ∧ p.sequence = some n

/-- A packet as a frame. -/
def frame (p : Packet) : Value :=
  .map (Fields.ofList [("op", .int 0), ("t", .text p.type), ("s", p.sequence.elim .null .int),
    ("d", .map p.data)])

/-- The entry is at one of the keys of a frame that are looked at. -/
def isPart (e : Scalar × Value) : Bool := ["op", "t", "s", "d"].any fun name => e.1 == .text name

/-- The packet of an object that is a dispatch frame has its fields. -/
theorem ofFields_eq_ok :
    ofFields es = .ok p ↔ es.get "t" = .text p.type ∧ p.type ≠ "" ∧
      (es.get "d" = .map p.data ∨ (es.get "d").Unset ∧ p.data = []) ∧
      (es.get "s" = .null ∧ p.sequence = none ∨
        ∃ n, es.get "s" = .int n ∧ p.sequence = some n) := by
  unfold ofFields
  split
  · rename_i type htype
    rw [htype]
    split
    · rename_i hempty
      -- A type without characters is none.
      obtain rfl : type = "" := by simpa using hempty
      constructor
      · intro h
        cases h
      · rintro ⟨htag, hnamed, -⟩
        exact absurd (Scalar.text.inj (Value.scalar.inj htag)).symm hnamed
    · rename_i hnamed
      have hnamed : type ≠ "" := by simpa using hnamed
      rw [bind_eq_ok]
      constructor
      · rintro ⟨data, hdata, h⟩
        obtain ⟨sequence, hsequence, h⟩ := bind_eq_ok.mp h
        cases h
        exact ⟨rfl, hnamed, payload_eq_ok.mp hdata, sequenceNumber_eq_ok.mp hsequence⟩
      · rintro ⟨htag, -, hdata, hsequence⟩
        obtain rfl : type = p.type := Scalar.text.inj (Value.scalar.inj htag)
        exact ⟨p.data, payload_eq_ok.mpr hdata,
          bind_eq_ok.mpr ⟨p.sequence, sequenceNumber_eq_ok.mpr hsequence, rfl⟩⟩
  · rename_i hother
    constructor
    · intro h
      cases h
    · rintro ⟨htag, -⟩
      exact (hother p.type htag).elim

/-- An object whose opcode is missing or zero has the packet of its fields. -/
theorem ofFrame_of_opcode (h : ∀ op, Table.find? (.text "op") es = some op → op.IsZero) :
    ofFrame (.map es) = (ofFields es).map some := by
  have hop : isDispatch ((Table.find? (Scalar.text "op") es).getD (.int 0)) = true := by
    cases hfind : Table.find? (Scalar.text "op") es with
    | none => rfl
    | some op => exact isDispatch_iff.mpr (h op hfind)
  show (if _ then _ else _) = _
  rw [if_pos hop]

/-- An object with another opcode has none. -/
theorem ofFrame_of_foreign (h : Foreign v) : ofFrame v = .ok none := by
  obtain ⟨es, op, rfl, hfind, hop⟩ := h
  have hop : ¬ isDispatch ((Table.find? (Scalar.text "op") es).getD (.int 0)) = true := by
    rw [hfind]
    exact fun h => hop (isDispatch_iff.mp h)
  show (if _ then _ else _) = _
  rw [if_neg hop]

/-- A frame is foreign, or an object whose opcode is missing or zero, or no object. -/
theorem frame_cases (v : Value) : Foreign v ∨
    (∃ es : Fields, v = .map es ∧ ∀ op, Table.find? (.text "op") es = some op → op.IsZero) ∨
    ∃ e, (∀ es, v ≠ .map es) ∧ ofFrame v = .error e := by
  cases v with
  | map es =>
    by_cases h : ∀ op, Table.find? (.text "op") es = some op → op.IsZero
    · exact .inr (.inl ⟨es, rfl, h⟩)
    · push Not at h
      obtain ⟨op, hfind, hop⟩ := h
      exact .inl ⟨es, op, rfl, hfind, hop⟩
  | scalar s => exact .inr (.inr ⟨_, by simp, rfl⟩)
  | list xs => exact .inr (.inr ⟨_, by simp, rfl⟩)

/-- A frame is passed over exactly when it is foreign. -/
theorem ofFrame_eq_none_iff : ofFrame v = .ok none ↔ Foreign v := by
  constructor
  · intro h
    rcases frame_cases v with hforeign | ⟨es, rfl, hop⟩ | ⟨e, -, he⟩
    · exact hforeign
    · rw [ofFrame_of_opcode hop] at h
      obtain ⟨p, -, hp⟩ := map_eq_ok.mp h
      cases hp
    · rw [he] at h
      cases h
  · exact ofFrame_of_foreign

/-- A frame gives a packet exactly when it is an object that carries it. -/
theorem ofFrame_eq_some_iff :
    ofFrame v = .ok (some p) ↔ ∃ es, v = .map es ∧ Carries es p := by
  constructor
  · intro h
    -- A frame is foreign, carries the opcode zero, or is refused before its opcode is looked at.
    rcases frame_cases v with hforeign | ⟨es, rfl, hop⟩ | ⟨e, -, he⟩
    · rw [ofFrame_of_foreign hforeign] at h
      cases h
    · rw [ofFrame_of_opcode hop] at h
      obtain ⟨p', hp, he⟩ := map_eq_ok.mp h
      cases he
      obtain ⟨htag, hnamed, hpayload, hsequence⟩ := ofFields_eq_ok.mp hp
      exact ⟨es, rfl, hop, htag, hnamed, hpayload, hsequence⟩
    · rw [he] at h
      cases h
  · -- The four conditions are those that are checked after the opcode.
    rintro ⟨es, rfl, hop, htag, hnamed, hpayload, hsequence⟩
    rw [ofFrame_of_opcode hop]
    exact map_eq_ok.mpr ⟨p, ofFields_eq_ok.mpr ⟨htag, hnamed, hpayload, hsequence⟩, rfl⟩

/-- Entries at other keys than those that are looked at may be left out. -/
theorem ofFrame_filter (es : Fields) : ofFrame (.map (es.filter isPart)) = ofFrame (.map es) := by
  have hfind (name : String) (hname : name ∈ ["op", "t", "s", "d"]) :
      Table.find? (Scalar.text name) (es.filter isPart) = Table.find? (Scalar.text name) es :=
    Table.find?_filter_of_keeps (p := isPart)
      (fun _ he => List.any_eq_true.mpr ⟨name, hname, he⟩) es
  simp only [ofFrame, ofFields, Fields.get, hfind "op" (by simp), hfind "t" (by simp),
    hfind "s" (by simp), hfind "d" (by simp)]

/-- A packet with a type is read back from its frame. -/
theorem ofFrame_frame (h : p.type ≠ "") : ofFrame p.frame = .ok (some p) := by
  refine ofFrame_eq_some_iff.mpr ⟨_, rfl, ⟨fun op hop => ?_, rfl, h, .inl rfl, ?_⟩⟩
  · cases hop
    exact .int
  · -- A missing sequence number is written as null.
    cases hs : p.sequence with
    | none => exact .inl ⟨rfl, rfl⟩
    | some n => exact .inr ⟨n, rfl, rfl⟩

/-- A frame is passed over exactly when it is an object with an opcode other than zero; it gives a
packet exactly when it is an object with no such opcode that has a type, a payload and a sequence
number as they should be, and then this is its packet; in every other case it is refused as
malformed. So every packet with a type is read back from its frame, and entries of an object at
other keys make no difference. -/
theorem ofFrame_exact (v : Value) :
    (ofFrame v = .ok none ↔ Foreign v) ∧
      (∀ p, ofFrame v = .ok (some p) ↔ ∃ es, v = .map es ∧ Carries es p) ∧
      ((∃ e, ofFrame v = .error e) ↔ ¬ Foreign v ∧ ∀ es p, v = .map es → ¬ Carries es p) ∧
      (∀ p : Packet, p.type ≠ "" → ofFrame p.frame = .ok (some p)) ∧
      ∀ es, ofFrame (.map (es.filter isPart)) = ofFrame (.map es) := by
  refine ⟨ofFrame_eq_none_iff, fun p => ofFrame_eq_some_iff, ?_, fun p => ofFrame_frame,
    ofFrame_filter⟩
  constructor
  · rintro ⟨e, he⟩
    refine ⟨fun hforeign => ?_, fun es p hv hcarries => ?_⟩
    · rw [ofFrame_of_foreign hforeign] at he
      cases he
    · rw [ofFrame_eq_some_iff.mpr ⟨es, hv, hcarries⟩] at he
      cases he
  · rintro ⟨hforeign, hcarries⟩
    -- What is neither passed over nor gives a packet is refused.
    cases h : ofFrame v with
    | error e => exact ⟨e, rfl⟩
    | ok o =>
      cases o with
      | none => exact absurd (ofFrame_eq_none_iff.mp h) hforeign
      | some p =>
        obtain ⟨es, hv, hp⟩ := ofFrame_eq_some_iff.mp h
        exact absurd hp (hcarries es p hv)

/-- A frame whose opcode is the negative zero of doubles, whose payload is an empty text and which
has one entry more gives the packet without payload, as the frame of this packet does. -/
theorem ofFrame_exact_loose : ∃ (p : Packet) (loose : Fields),
    p.type ≠ "" ∧ ofFrame p.frame = .ok (some p) ∧ Carries loose p ∧
      ofFrame (.map loose) = .ok (some p) ∧ loose.filter isPart ≠ loose ∧
      ofFrame (.map (loose.filter isPart)) = .ok (some p) := by
  let p : Packet := ⟨"READY", [], some 7⟩
  let loose : Fields := Fields.ofList [("op", .float (.zero true)), ("t", .text "READY"),
    ("trace", .list []), ("s", .int 7), ("d", .text "")]
  have hnamed : p.type ≠ "" := by decide
  -- A negative zero is a zero, and an empty text is no payload.
  have hcarries : Carries loose p := by
    refine ⟨fun op hop => ?_, rfl, hnamed, .inr ⟨.text, rfl⟩, .inr ⟨7, rfl, rfl⟩⟩
    cases hop
    exact .float (by decide +kernel)
  -- Giving the packet is carrying it, and does not depend on other entries.
  obtain ⟨-, hgives, -, hframe, hextra⟩ := ofFrame_exact (.map loose)
  have hloose : ofFrame (.map loose) = .ok (some p) := (hgives p).mpr ⟨loose, rfl, hcarries⟩
  have hfewer : (loose.filter isPart).length < loose.length := by decide +kernel
  refine ⟨p, loose, hnamed, hframe p hnamed, hcarries, hloose, fun he => ?_, ?_⟩
  · rw [he] at hfewer
    exact absurd hfewer (Nat.lt_irrefl _)
  · rw [hextra]
    exact hloose

end Packet

end Switchboard
