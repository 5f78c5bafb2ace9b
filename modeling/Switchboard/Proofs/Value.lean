import Switchboard.Emoji
import Switchboard.Proofs.Attempt

/-!
# Values that can be written

An integer of at most `digitLimit` digits can be written as text, and a value can be written when
all its integers can. Parts of such a value can be written too, so the ids that are decoded from it
can (`Snowflake.isWritable_of_decode`), and an emoji that is decoded from it has a key
(`Emoji.hasKey_of_decode`). Whether two values are equal is decided.
-/

namespace Switchboard

/-! ## Numbers -/

/-- An ASCII digit is less than ten. -/
theorem asciiDigit?_lt {c : Char} {d : Nat} (h : asciiDigit? c = some d) : d < 10 := by
  unfold asciiDigit? at h
  split at h
  · rename_i hc
    have hle : c.toNat ≤ 0x39 := by
      simp only [Bool.and_eq_true, decide_eq_true_eq] at hc
      exact UInt32.le_iff_toNat_le.mp hc.2
    cases h
    omega
  · cases h

/-- Digits after a number multiply it by ten each. -/
theorem ofDigits_lt {ds : List Nat} (h : ∀ d ∈ ds, d < 10) (acc : Nat) :
    ofDigits acc ds < (acc + 1) * Nat.pow 10 ds.length := by
  induction ds generalizing acc with
  | nil =>
    show acc < (acc + 1) * 1
    omega
  | cons d ds ih =>
    have hd : d < 10 := h d List.mem_cons_self
    have hacc : 10 * acc + d + 1 ≤ (acc + 1) * 10 := by omega
    -- The next digit makes ten times the number, and the rest counts from there.
    calc ofDigits acc (d :: ds)
        < (10 * acc + d + 1) * Nat.pow 10 ds.length :=
          ih (fun d' hd' => h d' (List.mem_cons_of_mem d hd')) _
      _ ≤ (acc + 1) * 10 * Nat.pow 10 ds.length := Nat.mul_le_mul_right _ hacc
      _ = (acc + 1) * (Nat.pow 10 ds.length * 10) := by
          rw [Nat.mul_assoc, Nat.mul_comm 10]

/-- A number and its opposite have the same digits. -/
theorem isWritable_neg (n : Int) : isWritable (-n) = isWritable n := by
  simp only [isWritable, Int.natAbs_neg]

/-- A number with few enough digits can be written. -/
theorem isWritable_ofDigits {ds : List Nat} (h : ∀ d ∈ ds, d < 10) (hl : ds.length ≤ digitLimit) :
    isWritable (ofDigits 0 ds) := by
  have hlt : ofDigits 0 ds < Nat.pow 10 ds.length := by
    have hdigits := ofDigits_lt h 0
    rwa [Nat.zero_add, Nat.one_mul] at hdigits
  have hle (m : Nat) (hm : ds.length ≤ m) : Nat.pow 10 ds.length ≤ Nat.pow 10 m :=
    Nat.pow_le_pow_right (by decide) hm
  rw [isWritable, decide_eq_true_iff, Int.natAbs_natCast]
  exact Nat.lt_of_lt_of_le hlt (hle digitLimit hl)

/-! ## Parts of values -/

namespace Value

/-- An integer as a value can be written when the integer can. -/
theorem isWritable_int (n : Int) : (int n).isWritable = Switchboard.isWritable n := by
  simp only [isWritable, Scalar.isWritable]

/-- The items of a list can be written when each of them can. -/
theorem areWritable_iff {xs : List Value} :
    areWritable xs = true ↔ ∀ x ∈ xs, x.isWritable = true := by
  induction xs with
  | nil => simp [areWritable]
  | cons x xs ih => simp [areWritable, ih]

/-- A field of entries that can be written can be written. -/
theorem isWritable_get {es : Fields} (h : entriesWritable es = true) (name : String) :
    (es.get name).isWritable = true := by
  unfold Fields.get
  induction es with
  | nil => rfl
  | cons e es ih =>
    obtain ⟨k, v⟩ := e
    simp only [entriesWritable, Bool.and_eq_true] at h
    unfold Table.find?
    split
    · exact h.1.2
    · exact ih h.2

/-- Entries can be written after another one is put among them that can. -/
theorem entriesWritable_put {es : Fields} (h : entriesWritable es = true) {k : Scalar} {v : Value}
    (hk : k.isWritable = true) (hv : v.isWritable = true) :
    entriesWritable (Table.put k v es) = true := by
  induction es with
  | nil => simp [Table.put, entriesWritable, hk, hv]
  | cons e es ih =>
    obtain ⟨k', v'⟩ := e
    simp only [entriesWritable, Bool.and_eq_true] at h
    unfold Table.put
    split
    · simp [entriesWritable, h, hv]
    · simp [entriesWritable, h, ih h.2]

end Value

/-! ## Equality -/

deriving instance DecidableEq for Scalar

namespace Value

mutual

/-- Whether two values are equal is decided part by part. -/
def decEq : (v w : Value) → Decidable (v = w)
  | .scalar a, .scalar b => decidable_of_iff (a = b) (by simp)
  | .list xs, .list ys =>
    have := decEqItems xs ys
    decidable_of_iff (xs = ys) (by simp)
  | .map es, .map fs =>
    have := decEqEntries es fs
    decidable_of_iff (es = fs) (by simp)
  | .scalar _, .list _ | .scalar _, .map _ | .list _, .scalar _ | .list _, .map _
  | .map _, .scalar _ | .map _, .list _ => .isFalse (by simp)

/-- Whether two lists of values are equal. -/
def decEqItems : (xs ys : List Value) → Decidable (xs = ys)
  | [], [] => .isTrue rfl
  | x :: xs, y :: ys =>
    have := decEq x y
    have := decEqItems xs ys
    decidable_of_iff (x = y ∧ xs = ys) (by simp)
  | [], _ :: _ | _ :: _, [] => .isFalse (by simp)

/-- Whether the entries of two maps are equal. -/
def decEqEntries : (es fs : List (Scalar × Value)) → Decidable (es = fs)
  | [], [] => .isTrue rfl
  | (k, v) :: es, (k', v') :: fs =>
    have := decEq v v'
    have := decEqEntries es fs
    decidable_of_iff ((k = k' ∧ v = v') ∧ es = fs) (by simp)
  | [], _ :: _ | _ :: _, [] => .isFalse (by simp)

end

instance : DecidableEq Value := decEq

end Value

/-! ## What is decoded from values -/

/-- The digits of a text are ASCII digits. -/
theorem Snowflake.digits?_lt {cs : List Char} {ds : List Nat} (h : digits? cs = some ds) :
    ∀ d ∈ ds, d < 10 := by
  unfold digits? at h
  split at h
  · cases h
  · intro d hd
    obtain ⟨c, -, hc⟩ := exists_of_mapM_some h hd
    exact asciiDigit?_lt hc

/-- An id that is decoded from a value that can be written can be written. -/
theorem Snowflake.isWritable_of_decode {type field : String} {v : Value} {n : Snowflake}
    (hv : v.isWritable = true) (h : decode type field v = .ok n) : isWritable n = true := by
  unfold decode at h
  split at h
  · cases h
  · cases h
    exact hv
  · -- A text that is read as an id is not too long, so neither is the id.
    split at h
    · rename_i ds hds
      unfold ofDigits? at h
      split at h
      · cases h
      · rename_i hlen
        cases h
        exact isWritable_ofDigits (digits?_lt hds) (Nat.le_of_not_lt hlen)
    · cases h
  · cases h

/-- An emoji that is decoded from entries that can be written has a key. -/
theorem Emoji.hasKey_of_decode {type : String} {es : Fields} {e : Emoji}
    (hes : Value.entriesWritable es = true) (h : decode type es = .ok e) : e.hasKey = true := by
  unfold decode at h
  dsimp only at h
  split at h
  case h_3 => cases h
  all_goals
    obtain ⟨name, -, h⟩ := bind_eq_ok.mp h
    split at h
    · -- Without an id the key is the name.
      split at h
      · split at h
        · cases h
        · cases h
          rfl
      · cases h
    · -- With an id the key is that, which can be written as the value it is read from.
      obtain ⟨n, hn, h⟩ := bind_eq_ok.mp h
      cases h
      rw [hasKey, Option.all_some]
      exact Snowflake.isWritable_of_decode (Value.isWritable_get hes "id") hn

end Switchboard
