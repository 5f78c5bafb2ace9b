import Switchboard.Proofs.Snowflake

/-!
# The two spellings of an id

A text spells an id when it is a `Numeral`: it consists of ASCII digits and is not empty. Then it
decodes to the number that it writes, as long as it is not too long, and every other text is refused
(`decode_numeral`, `decode_of_not_numeral`). An integer that is not negative and its numeral decode
alike. The numeral of a negative integer begins with a sign, so the text is refused where the
integer is taken (`decode_spellings`).
-/

namespace Switchboard

/-! ## Digits -/

/-- An ASCII digit stands for its distance from the digit zero. -/
theorem asciiDigit?_eq (c : Char) :
    asciiDigit? c = if c.isDigit then some (c.toNat - '0'.toNat) else none := rfl

/-- Digits are read one by one. -/
theorem mapM_asciiDigit?_of_isDigit {cs : List Char} (h : ∀ c ∈ cs, c.isDigit = true) :
    cs.mapM asciiDigit? = some (cs.map fun c => c.toNat - '0'.toNat) := by
  induction cs with
  | nil => rfl
  | cons c cs ih =>
    have hc : asciiDigit? c = some (c.toNat - '0'.toNat) := by
      rw [asciiDigit?_eq, if_pos (h c List.mem_cons_self)]
    have hcs := ih fun c' hc' => h c' (List.mem_cons_of_mem c hc')
    rw [List.mapM_cons, hc, hcs]
    rfl

/-- Characters that are read as digits are digits. -/
theorem isDigit_of_mapM_asciiDigit? {cs : List Char} {ds : List Nat}
    (h : cs.mapM asciiDigit? = some ds) : ∀ c ∈ cs, c.isDigit = true := by
  induction cs generalizing ds with
  | nil => simp
  | cons c cs ih =>
    rw [List.mapM_cons] at h
    obtain ⟨d, hd, h⟩ := Option.bind_eq_some_iff.mp h
    obtain ⟨ds', hds, -⟩ := Option.bind_eq_some_iff.mp h
    -- A character is the first one or one of the rest.
    intro c' hc'
    rcases List.mem_cons.mp hc' with rfl | hc'
    · rw [asciiDigit?_eq] at hd
      split at hd
      · assumption
      · cases hd
    · exact ih hds c' hc'

/-- The values of digits write the number that the digits write. -/
theorem ofDigits_map (acc : Nat) (cs : List Char) :
    ofDigits acc (cs.map fun c => c.toNat - '0'.toNat) = Nat.ofDigitChars 10 cs acc := by
  rw [ofDigits, List.foldl_map, Nat.ofDigitChars_eq_foldl]

namespace Snowflake

variable {type field : String} {s : String}

/-! ## Numerals -/

/-- The text consists of ASCII digits, of one at least. -/
def Numeral (s : String) : Prop := s ≠ "" ∧ ∀ c ∈ s.toList, c.isDigit = true

instance (s : String) : Decidable (Numeral s) :=
  decidable_of_iff (s ≠ "" ∧ s.toList.all Char.isDigit = true)
    (and_congr Iff.rfl List.all_eq_true)

/-- The digits of a numeral. -/
theorem digits?_of_numeral (h : Numeral s) :
    digits? s.toList = some (s.toList.map fun c => c.toNat - '0'.toNat) := by
  have hne : s.toList.isEmpty = false :=
    List.isEmpty_eq_false_iff.mpr fun he => h.1 (String.toList_eq_nil_iff.mp he)
  rw [digits?, hne, if_neg Bool.false_ne_true]
  exact mapM_asciiDigit?_of_isDigit h.2

/-- A text that has digits is a numeral. -/
theorem numeral_of_digits? {ds : List Nat} (h : digits? s.toList = some ds) : Numeral s := by
  unfold digits? at h
  split at h
  · cases h
  · rename_i hne
    refine ⟨fun he => hne ?_, isDigit_of_mapM_asciiDigit? h⟩
    rw [he]
    rfl

/-- A numeral decodes to the number that it writes, unless it is refused for the number of its
digits. -/
theorem decode_of_numeral (type field : String) (h : Numeral s) :
    decode type field (.text s) =
      if digitLimit < s.length then .error (.tooManyDigits s.length)
      else .ok (Nat.ofDigitChars 10 s.toList 0 : Nat) := by
  have hlength : (s.toList.map fun c => c.toNat - '0'.toNat).length = s.length := by
    rw [List.length_map, String.length_toList]
  simp only [decode, digits?_of_numeral h, ofDigits?, hlength, ofDigits_map]

/-- A numeral that is not too long is not refused. -/
theorem decode_numeral (type field : String) (h : Numeral s) (hs : s.length ≤ digitLimit) :
    decode type field (.text s) = .ok (Nat.ofDigitChars 10 s.toList 0 : Nat) := by
  rw [decode_of_numeral type field h, if_neg (Nat.not_lt.mpr hs)]

/-- A text that is no numeral is refused. -/
theorem decode_of_not_numeral (type field : String) (h : ¬ Numeral s) :
    decode type field (.text s) =
      .error (.decode ⟨type, some field, .notASnowflake (quoted s)⟩) := by
  have hnone : digits? s.toList = none :=
    Option.eq_none_iff_forall_ne_some.mpr fun ds hds => h (numeral_of_digits? hds)
  simp only [decode, hnone]
  -- A text can always be written, so the refusal quotes it.
  rfl

/-- The numeral of a natural number. -/
theorem numeral_toString (n : Nat) : Numeral (toString (n : Int)) := by
  have htext : toString (n : Int) = n.repr := rfl
  rw [htext]
  refine ⟨Nat.repr_ne_empty, fun c hc => ?_⟩
  rw [Nat.toList_repr] at hc
  exact Nat.isDigit_of_mem_toDigits (by decide) (by decide) hc

/-- The numeral of a natural number writes it. -/
theorem ofDigitChars_toString (n : Nat) :
    Nat.ofDigitChars 10 (toString (n : Int)).toList 0 = n := by
  have htext : toString (n : Int) = n.repr := rfl
  rw [htext, Nat.toList_repr, Nat.ofDigitChars_ten_toDigits]

/-- The text of a negative integer is no numeral, for its sign. -/
theorem not_numeral_toString {n : Int} (h : n < 0) : ¬ Numeral (toString n) := by
  obtain ⟨k, rfl⟩ := Int.eq_negSucc_of_lt_zero h
  have htext : toString (Int.negSucc k) = "-" ++ (k + 1).repr := rfl
  rintro ⟨-, hdigits⟩
  have hsign : '-' ∈ (toString (Int.negSucc k)).toList := by
    rw [htext, String.toList_append]
    exact List.mem_append_left _ (by decide)
  exact absurd (hdigits '-' hsign) (by decide)

/-- An integer is known by its text. -/
theorem toString_inj {m n : Int} : toString m = toString n ↔ m = n := by
  have hnat {k k' : Nat} (h : toString (k : Int) = toString (k' : Int)) : k = k' := by
    rw [← ofDigitChars_toString k, h, ofDigitChars_toString]
  refine ⟨fun h => ?_, fun h => h ▸ rfl⟩
  rcases Int.lt_or_le m 0 with hm | hm
  · rcases Int.lt_or_le n 0 with hn | hn
    · -- After the sign stand the numerals of two natural numbers.
      obtain ⟨k, rfl⟩ := Int.eq_negSucc_of_lt_zero hm
      obtain ⟨k', rfl⟩ := Int.eq_negSucc_of_lt_zero hn
      exact congrArg Int.negSucc (Nat.succ_inj.mp (hnat ((String.append_right_inj "-").mp h)))
    · -- Only one of the two has a sign.
      obtain ⟨k', rfl⟩ := Int.eq_ofNat_of_zero_le hn
      exact absurd (h ▸ numeral_toString k') (not_numeral_toString hm)
  · obtain ⟨k, rfl⟩ := Int.eq_ofNat_of_zero_le hm
    rcases Int.lt_or_le n 0 with hn | hn
    · exact absurd (h ▸ numeral_toString k) (not_numeral_toString hn)
    · obtain ⟨k', rfl⟩ := Int.eq_ofNat_of_zero_le hn
      exact congrArg Int.ofNat (hnat h)

/-- A numeral stays one when zeros are put in front of it. -/
theorem numeral_zeros (k : Nat) (h : Numeral s) :
    Numeral (String.ofList (List.replicate k '0') ++ s) := by
  have hchars : (String.ofList (List.replicate k '0') ++ s).toList =
      List.replicate k '0' ++ s.toList := by
    rw [String.toList_append, String.toList_ofList]
  refine ⟨fun he => h.1 ?_, fun c hc => ?_⟩
  · rw [← String.toList_eq_nil_iff, hchars, List.append_eq_nil_iff] at he
    exact String.toList_eq_nil_iff.mp he.2
  · rw [hchars] at hc
    rcases List.mem_append.mp hc with hzero | hc
    · rw [List.eq_of_mem_replicate hzero]
      rfl
    · exact h.2 c hc

/-- Zeros in front of a numeral do not change what it decodes to, as long as it does not get too
long. -/
theorem decode_zeros_append (type field : String) (k : Nat) (h : Numeral s)
    (hs : k + s.length ≤ digitLimit) :
    decode type field (.text (String.ofList (List.replicate k '0') ++ s)) =
      decode type field (.text s) := by
  have hlength : (String.ofList (List.replicate k '0') ++ s).length ≤ digitLimit := by
    rwa [String.length_append, String.length_ofList, List.length_replicate]
  have hshort : s.length ≤ digitLimit := Nat.le_trans (Nat.le_add_left _ k) hs
  rw [decode_numeral type field (numeral_zeros k h) hlength, decode_numeral type field h hshort,
    String.toList_append, String.toList_ofList, Nat.ofDigitChars_append,
    Nat.ofDigitChars_replicate_zero, Nat.mul_zero]

/-! ## Both spellings -/

/-- The text of an integer decodes to the integer when the integer is not negative, and is refused
when it is. -/
theorem decode_toString (type field : String) (n : Int) (h : (toString n).length ≤ digitLimit) :
    decode type field (.text (toString n)) =
      if 0 ≤ n then .ok n
      else .error (.decode ⟨type, some field, .notASnowflake (quoted (toString n))⟩) := by
  rcases Int.lt_or_le n 0 with hneg | hpos
  · rw [if_neg (Int.not_le.mpr hneg)]
    exact decode_of_not_numeral type field (not_numeral_toString hneg)
  · rw [if_pos hpos]
    obtain ⟨k, rfl⟩ := Int.eq_ofNat_of_zero_le hpos
    rw [decode_numeral type field (numeral_toString k) h, ofDigitChars_toString]

/-- An integer is always taken as the id that it is, and its text is taken as the same id exactly
when the integer is not negative; the text of a negative integer is refused as malformed. A text
that is not too long is taken exactly when it is a numeral, as the number that it writes, and
otherwise refused as malformed; and zeros in front of a numeral change nothing. -/
theorem decode_spellings (type field : String) :
    (∀ n : Int, (toString n).length ≤ digitLimit →
      decode type field (.int n) = .ok n ∧
        decode type field (.text (toString n)) =
          if 0 ≤ n then .ok n
          else .error (.decode ⟨type, some field, .notASnowflake (quoted (toString n))⟩)) ∧
      (∀ s : String, s.length ≤ digitLimit →
        decode type field (.text s) =
          if Numeral s then .ok (Nat.ofDigitChars 10 s.toList 0 : Nat)
          else .error (.decode ⟨type, some field, .notASnowflake (quoted s)⟩)) ∧
      ∀ (s : String) (k : Nat), Numeral s → k + s.length ≤ digitLimit →
        decode type field (.text (String.ofList (List.replicate k '0') ++ s)) =
          decode type field (.text s) := by
  refine ⟨fun n h => ⟨rfl, decode_toString type field n h⟩, fun s hs => ?_,
    fun s k h hs => decode_zeros_append type field k h hs⟩
  -- A text is a numeral or is refused for being none.
  split
  · rename_i h
    exact decode_numeral type field h hs
  · rename_i h
    exact decode_of_not_numeral type field h

/-- The integer 42, its text, and the text with two zeros more are one id; a digit of another script
is none. -/
theorem decode_spellings_padded :
    (toString (42 : Int)).length ≤ digitLimit ∧ Numeral "42" ∧ 2 + "42".length ≤ digitLimit ∧
      "\u0663".length ≤ digitLimit ∧
      decode "X" "id" (.int 42) = .ok 42 ∧
      decode "X" "id" (.text "42") = .ok 42 ∧
      decode "X" "id" (.text "0042") = .ok 42 ∧
      decode "X" "id" (.text "\u0663") =
        .error (.decode ⟨"X", some "id", .notASnowflake "'\u0663'"⟩) := by
  -- The general statements for `X` and `id`, and what they need to know of the texts.
  obtain ⟨hint, htext, hzeros⟩ := decode_spellings "X" "id"
  have hlength : (toString (42 : Int)).length ≤ digitLimit := by decide +kernel
  have hnumeral : Numeral "42" := by decide +kernel
  have hroom : 2 + "42".length ≤ digitLimit := by decide +kernel
  have hone : "\u0663".length ≤ digitLimit := by decide +kernel
  have h42 : decode "X" "id" (.text "42") = .ok 42 := (hint 42 hlength).2
  have hpadded : String.ofList (List.replicate 2 '0') ++ "42" = "0042" := by decide +kernel
  have hother : ¬ Numeral "\u0663" := by decide +kernel
  have hquoted : quoted "\u0663" = "'\u0663'" := by decide +kernel
  refine ⟨hlength, hnumeral, hroom, hone, (hint 42 hlength).1, h42, ?_, ?_⟩
  · rw [← hpadded, hzeros "42" 2 hnumeral hroom, h42]
  · rw [htext _ hone, if_neg hother, hquoted]

/-- A negative integer is taken as an id, and its text is refused. -/
theorem decode_negative :
    (toString (-3 : Int)).length ≤ digitLimit ∧ decode "X" "id" (.int (-3)) = .ok (-3) ∧
      decode "X" "id" (.text (toString (-3 : Int))) =
        .error (.decode ⟨"X", some "id", .notASnowflake "'-3'"⟩) := by
  have hquoted : quoted (toString (-3 : Int)) = "'-3'" := by decide +kernel
  refine ⟨by decide +kernel, rfl, ?_⟩
  rw [decode_of_not_numeral "X" "id" (not_numeral_toString (by decide)), hquoted]

end Snowflake

end Switchboard
