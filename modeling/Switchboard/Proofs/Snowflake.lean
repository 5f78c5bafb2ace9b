import Switchboard.Proofs.Value

/-!
# Plain spellings of ids

A payload may spell one id in many ways: as an integer, and as a text of digits with any number of
zeros in front. A spelling is `Plain` when it is no text with a superfluous zero in front. All plain
spellings of an id have the same text, which is the decimal numeral of the id
(`keyText?_of_names`).
-/

namespace Switchboard

/-! ## Numerals -/

/-- The digit character of an ASCII digit is that digit. -/
theorem digitChar_of_asciiDigit? {c : Char} {d : Nat} (h : asciiDigit? c = some d) :
    d.digitChar = c := by
  have hd : d < 10 := asciiDigit?_lt h
  unfold asciiDigit? at h
  split at h
  · rename_i hc
    -- The character is one of ten that follow each other.
    have hge : 0x30 ≤ c.toNat := by
      simp only [Bool.and_eq_true, decide_eq_true_eq] at hc
      exact UInt32.le_iff_toNat_le.mp hc.1
    cases h
    refine Char.toNat_inj.mp ?_
    rw [Nat.toNat_digitChar_of_lt_ten hd]
    omega
  · cases h

/-- Digits read after a number are those of its numeral from there on. -/
theorem toDigits_ofDigits {cs : List Char} {ds : List Nat} (h : cs.mapM asciiDigit? = some ds)
    {acc : Nat} (hacc : 0 < acc) :
    Nat.toDigits 10 (ofDigits acc ds) = Nat.toDigits 10 acc ++ cs := by
  induction cs generalizing ds acc with
  | nil =>
    cases h
    simp [ofDigits]
  | cons c cs ih =>
    rw [List.mapM_cons] at h
    obtain ⟨d, hd, h⟩ := Option.bind_eq_some_iff.mp h
    obtain ⟨ds', hds, h⟩ := Option.bind_eq_some_iff.mp h
    cases h
    have hlt : d < 10 := asciiDigit?_lt hd
    have hpos : 0 < 10 * acc + d := by omega
    -- One more digit makes ten times the number, and stands at the end of its numeral.
    calc Nat.toDigits 10 (ofDigits acc (d :: ds'))
        = Nat.toDigits 10 (10 * acc + d) ++ cs := ih hds hpos
      _ = Nat.toDigits 10 acc ++ Nat.toDigits 10 d ++ cs := by
          rw [Nat.toDigits_append_toDigits (by decide) hacc hlt]
      _ = Nat.toDigits 10 acc ++ c :: cs := by
          rw [Nat.toDigits_of_lt_base hlt, digitChar_of_asciiDigit? hd]
          simp

/-! ## Spellings -/

namespace Value

/-- The value decodes to an id. -/
def Names (v : Value) (id : Snowflake) : Prop :=
  ∃ type field, Snowflake.decode type field v = .ok id

/-- The value is no text of several characters that begins with a zero. -/
def Plain : Value → Prop
  | text s => ∀ cs, s.toList = '0' :: cs → cs = []
  | _ => True

/-- A plain text of digits is the numeral of its number. -/
theorem toDigits_of_plain {s : String} (hp : (text s).Plain) {ds : List Nat}
    (h : Snowflake.digits? s.toList = some ds) :
    String.ofList (Nat.toDigits 10 (ofDigits 0 ds)) = s := by
  have hp : ∀ cs, s.toList = '0' :: cs → cs = [] := hp
  rw [← String.toList_inj, String.toList_ofList]
  generalize s.toList = cs at h hp
  cases cs with
  | nil => cases h
  -- The first digit is split off, since zeros may not come first.
  | cons c cs =>
    simp only [Snowflake.digits?, List.isEmpty_cons, Bool.false_eq_true, if_false] at h
    rw [List.mapM_cons] at h
    obtain ⟨d, hd, h⟩ := Option.bind_eq_some_iff.mp h
    obtain ⟨ds', hds, h⟩ := Option.bind_eq_some_iff.mp h
    cases h
    have hchar : d.digitChar = c := digitChar_of_asciiDigit? hd
    have hnumeral : Nat.toDigits 10 d = [c] := by
      rw [Nat.toDigits_of_lt_base (asciiDigit?_lt hd), hchar]
    rcases Nat.eq_zero_or_pos d with hzero | hpos
    · -- A zero stands alone.
      subst hzero
      obtain rfl : cs = [] := hp cs (by rw [← hchar]; rfl)
      cases hds
      exact hnumeral
    · -- The other digits go on from the first one.
      have hfirst : ofDigits 0 (d :: ds') = ofDigits d ds' := by simp [ofDigits]
      rw [hfirst, toDigits_ofDigits hds hpos, hnumeral]
      rfl

/-- The text of a plain spelling of an id is the numeral of the id. -/
theorem keyText?_of_names {v : Value} {id : Snowflake} (h : v.Names id) (hp : v.Plain)
    (hw : v.isWritable = true) : v.keyText? = some (toString id) := by
  obtain ⟨type, field, h⟩ := h
  -- An integer is its own text, and a text of digits is the numeral that it spells.
  unfold Snowflake.decode at h
  split at h
  · cases h
  · cases h
    simp [keyText?, shown?, hw, shown, Scalar.shown]
  · rename_i s
    split at h
    · rename_i ds hds
      unfold Snowflake.ofDigits? at h
      split at h
      · cases h
      · cases h
        have hs := toDigits_of_plain hp hds
        rw [keyText?]
        exact congrArg some hs.symm
    · cases h
  · cases h

end Value

end Switchboard
