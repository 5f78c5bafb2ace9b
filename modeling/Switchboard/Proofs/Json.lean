import Switchboard.Json.Reader
import Switchboard.Proofs.Value

/-!
# What the JSON reader gives

A value is a `Document` when some text reads as it within `digitLimit` digits an integer: these are
the values that a source of frames hands over. Every integer in a document can be written
(`Document.isWritable`), because the reader counts the digits of each. An integer with more of them
is refused (`read_of_digits`).
-/

namespace Switchboard.Json

open Value (areWritable entriesWritable areWritable_iff entriesWritable_put)

/-- A value that a text reads as. -/
def Document (v : Value) : Prop := ∃ text, read (some digitLimit) text = .ok v

/-- The digits at the front are less than ten. -/
theorem spanDigits_lt (cs : List Char) : ∀ d ∈ (spanDigits cs).1, d < 10 := by
  induction cs with
  | nil => simp [spanDigits]
  | cons c cs ih =>
    unfold spanDigits
    split
    · rename_i d hd
      intro d' hd'
      rcases List.mem_cons.mp hd' with rfl | hd'
      · exact asciiDigit?_lt hd
      · exact ih d' hd'
    · simp

/-- The whole part of a number has digits less than ten. -/
theorem spanWhole_lt (cs : List Char) : ∀ d ∈ (spanWhole cs).1, d < 10 := by
  unfold spanWhole
  split
  · simp
  · exact spanDigits_lt _

/-- A number that is read can be written. -/
theorem isWritable_of_readNumber {neg : Bool} {cs rest : List Char} {v : Value}
    (h : readNumber (some digitLimit) neg cs = .ok (v, rest)) : v.isWritable = true := by
  have hwhole := spanWhole_lt cs
  unfold readNumber at h
  dsimp only at h
  generalize spanWhole cs = whole at h hwhole
  -- What is no number is refused, and one with a fraction or an exponent is no integer.
  split at h
  · cases h
  · split at h
    · split at h
      · cases h
      · rename_i hlimit
        cases h
        -- The digits are within the limit, so the integer is.
        have hlen : whole.1.length ≤ digitLimit := by simpa using hlimit
        have hn : isWritable (ofDigits 0 whole.1) = true := isWritable_ofDigits hwhole hlen
        rw [Value.isWritable_int]
        split
        · rw [isWritable_neg, hn]
        · exact hn
    · cases h
      rfl

/-- A word stands for a value that can be written. -/
theorem isWritable_of_word {word cs rest : List Char} {v w : Value} (hw : w.isWritable = true)
    (h : ((afterWord? word cs).map (w, ·)).elim (.error .malformed) .ok =
      (.ok (v, rest) : Except Problem (Value × List Char))) : v.isWritable = true := by
  cases hr : afterWord? word cs with
  | none =>
    rw [hr] at h
    cases h
  | some rest' =>
    rw [hr] at h
    cases h
    exact hw

/-- What the readers of values, of items and of entries give can be written, if what was read before
can. -/
theorem isWritable_of_readers (fuel : Nat) :
    (∀ {cs rest v}, readValue (some digitLimit) fuel cs = .ok (v, rest) → v.isWritable = true) ∧
    (∀ {acc cs rest v}, areWritable acc = true →
      readItems (some digitLimit) fuel acc cs = .ok (v, rest) → v.isWritable = true) ∧
    (∀ {acc cs rest v}, entriesWritable acc = true →
      readEntries (some digitLimit) fuel acc cs = .ok (v, rest) → v.isWritable = true) := by
  induction fuel with
  | zero =>
    refine ⟨fun {cs rest v} h => ?_, fun {acc cs rest v} _ h => ?_, fun {acc cs rest v} _ h => ?_⟩
    · cases h
    · cases h
    · cases h
  | succ fuel ih =>
    obtain ⟨ihvalue, ihitems, ihentries⟩ := ih
    refine ⟨fun {cs rest v} h => ?_, fun {acc cs rest v} hacc h => ?_,
      fun {acc cs rest v} hacc h => ?_⟩
    · unfold readValue at h
      split at h
      · obtain ⟨⟨s, rest'⟩, -, h⟩ := bind_eq_ok.mp h
        cases h
        rfl
      · split at h
        · cases h
          rfl
        · exact ihentries rfl h
      · split at h
        · cases h
          rfl
        · exact ihitems rfl h
      · exact isWritable_of_word rfl h
      · exact isWritable_of_word rfl h
      · exact isWritable_of_word rfl h
      · exact isWritable_of_word rfl h
      · exact isWritable_of_word rfl h
      · split at h
        · cases h
          rfl
        · exact isWritable_of_readNumber h
      · exact isWritable_of_readNumber h
    · unfold readItems at h
      obtain ⟨⟨item, rest'⟩, hitem, h⟩ := bind_eq_ok.mp h
      have hall : areWritable (item :: acc) = true := by
        simp [areWritable, ihvalue hitem, hacc]
      dsimp only at h
      split at h
      · exact ihitems hall h
      · cases h
        -- The items were gathered last first.
        exact areWritable_iff.mpr fun x hx => areWritable_iff.mp hall x (List.mem_reverse.mp hx)
      · cases h
    · unfold readEntries at h
      split at h
      · obtain ⟨⟨key, rest'⟩, -, h⟩ := bind_eq_ok.mp h
        dsimp only at h
        split at h
        · obtain ⟨⟨value, rest''⟩, hvalue, h⟩ := bind_eq_ok.mp h
          have hall : entriesWritable (Table.put (.text key) value acc) = true :=
            entriesWritable_put hacc rfl (ihvalue hvalue)
          dsimp only at h
          split at h
          · exact ihentries hall h
          · cases h
            exact hall
          · cases h
        · cases h
      · cases h

/-- Every integer in a document can be written. -/
theorem Document.isWritable {v : Value} (h : Document v) : v.isWritable = true := by
  obtain ⟨text, h⟩ := h
  obtain ⟨⟨v', rest⟩, hv, h⟩ := bind_eq_ok.mp h
  dsimp only at h
  split at h
  · cases h
    exact (isWritable_of_readers _).1 hv
  · cases h

/-- A row of digits is taken as a whole. -/
theorem spanDigits_of_digits {cs : List Char} (h : ∀ c ∈ cs, (asciiDigit? c).isSome = true) :
    (spanDigits cs).1.length = cs.length ∧ (spanDigits cs).2 = [] := by
  induction cs with
  | nil => exact ⟨rfl, rfl⟩
  | cons c cs ih =>
    obtain ⟨hc, hcs⟩ := List.forall_mem_cons.mp h
    obtain ⟨d, hd⟩ := Option.isSome_iff_exists.mp hc
    obtain ⟨hlength, hrest⟩ := ih hcs
    rw [spanDigits, hd]
    exact ⟨congrArg Nat.succ hlength, hrest⟩

/-- An integer with too many digits is refused with their number. -/
theorem read_of_digits {limit : Nat} {cs : List Char}
    (h : ∀ c ∈ cs, (asciiDigit? c).isSome = true) (hlimit : limit ≤ cs.length) :
    read (some limit) ('1' :: cs) = .error (.tooManyDigits (cs.length + 1)) := by
  -- All of the text is one run of digits.
  have hskip : skip ('1' :: cs) = '1' :: cs := rfl
  have hdigits : ∀ c ∈ '1' :: cs, (asciiDigit? c).isSome = true :=
    List.forall_mem_cons.mpr ⟨by decide, h⟩
  obtain ⟨hlength, hrest⟩ := spanDigits_of_digits hdigits
  -- The run is longer than the limit, so the number is refused.
  have hnumber : readNumber (some limit) false ('1' :: cs) =
      .error (.tooManyDigits (cs.length + 1)) := by
    have hwhole : spanWhole ('1' :: cs) = spanDigits ('1' :: cs) := rfl
    rw [readNumber, hwhole]
    generalize spanDigits ('1' :: cs) = digits at hlength hrest
    obtain ⟨whole, rest⟩ := digits
    cases hrest
    have hsome : whole.isEmpty = false := by
      rw [List.isEmpty_eq_false_iff, ← List.length_pos_iff, hlength]
      exact Nat.succ_pos _
    have hlong : (some limit).any (· < whole.length) = true := by
      rw [hlength]
      exact decide_eq_true (Nat.lt_succ_of_le hlimit)
    dsimp only
    rw [hsome, if_neg Bool.false_ne_true]
    simp only [spanFraction, spanExponent, List.isEmpty_nil, Option.isNone_none, Bool.and_self,
      if_true]
    rw [if_pos hlong, hlength]
    rfl
  -- A text that starts with a digit is read as a number.
  rw [read, hskip]
  have hvalue : readValue (some limit) (2 * ('1' :: cs).length + 2) ('1' :: cs) =
      readNumber (some limit) false ('1' :: cs) := rfl
  rw [hvalue, hnumber]
  rfl

end Switchboard.Json
