import Mathlib.Tactic.IntervalCases
import Switchboard.Text.Octets

/-!
# Octets read back

What is written as octets reads as the same characters (`decode?_encode`). The octet that a
character starts with says how many continuation octets follow and how far the next one may go
(`start_ofNat`); each of them adds six bits (`scan_continuation`). Lines that are written with their
ends read as the same lines (`lines_flatMap`).
-/

namespace Switchboard

namespace Octets

/-- An octet made of a number below 256 is that number. -/
theorem toNat_ofNat {n : Nat} (h : n < 256) : (UInt8.ofNat n).toNat = n :=
  UInt8.toNat_ofNat_of_lt h

/-- A continuation octet within its bounds adds six bits. -/
theorem scan_continuation {p : Pending} {d : Nat} (hd : d < 64) (hlow : p.low.toNat ≤ 0x80 + d)
    (hhigh : 0x80 + d ≤ p.high.toNat) (bs : List UInt8) :
    scan (some p) (UInt8.ofNat (0x80 + d) :: bs) =
      if p.owed = 1 then some (Char.ofNat (p.bits * 64 + d)) :: scan none bs
      else scan (some ⟨p.owed - 1, 0x80, 0xBF, p.bits * 64 + d⟩) bs := by
  have hb : (UInt8.ofNat (0x80 + d)).toNat = 0x80 + d := toNat_ofNat (by omega)
  have hin : (p.low ≤ UInt8.ofNat (0x80 + d) && UInt8.ofNat (0x80 + d) ≤ p.high) = true := by
    simp only [Bool.and_eq_true, decide_eq_true_eq, UInt8.le_iff_toNat_le, hb]
    exact ⟨hlow, hhigh⟩
  simp only [scan, hin, if_true, hb, Nat.add_sub_cancel_left]

/-- The last octet of a character ends it. -/
theorem scan_last {bits d : Nat} (hd : d < 64) (bs : List UInt8) :
    scan (some ⟨1, 0x80, 0xBF, bits⟩) (UInt8.ofNat (0x80 + d) :: bs) =
      some (Char.ofNat (bits * 64 + d)) :: scan none bs := by
  have hhigh : 0x80 + d ≤ (0xBF : UInt8).toNat := Nat.add_le_add_left (Nat.le_of_lt_succ hd) 0x80
  exact scan_continuation (p := ⟨1, 0x80, 0xBF, bits⟩) hd (Nat.le_add_right _ _) hhigh bs

/-- After an octet that is not the last one the next has the usual bounds. -/
theorem scan_next {owed bits d : Nat} {low high : UInt8} (hd : d < 64)
    (hlow : low.toNat ≤ 0x80 + d) (hhigh : 0x80 + d ≤ high.toNat) (bs : List UInt8) :
    scan (some ⟨owed + 2, low, high, bits⟩) (UInt8.ofNat (0x80 + d) :: bs) =
      scan (some ⟨owed + 1, 0x80, 0xBF, bits * 64 + d⟩) bs :=
  (scan_continuation hd hlow hhigh bs).trans (if_neg (Nat.succ_succ_ne_one owed))

/-- A character of one octet. -/
theorem scan_one {n : Nat} (h : n < 0x80) (bs : List UInt8) :
    scan none (UInt8.ofNat n :: bs) = some (Char.ofNat n) :: scan none bs := by
  have hb : (UInt8.ofNat n).toNat = n := toNat_ofNat (by omega)
  simp only [scan, start, hb, if_pos h]
  rfl

/-- The first octet of a character of two. -/
theorem start_two {k : Nat} (h : 2 ≤ k) (h' : k < 0x20) :
    start (UInt8.ofNat (0xC0 + k)) = ([], some ⟨1, 0x80, 0xBF, k⟩) := by
  have hb : (UInt8.ofNat (0xC0 + k)).toNat = 0xC0 + k := toNat_ofNat (by omega)
  simp only [start, hb, if_neg (show ¬ 0xC0 + k < 0x80 by omega),
    if_neg (show ¬ 0xC0 + k < 0xC2 by omega), if_pos (show 0xC0 + k < 0xE0 by omega),
    Nat.add_sub_cancel_left]

/-- The first octet of a character of three. The next one is bounded, so that no character has a
longer form than it needs and no surrogate has one. -/
theorem start_three {k : Nat} (h : k < 0x10) :
    start (UInt8.ofNat (0xE0 + k)) =
      ([], some ⟨2, if k = 0 then 0xA0 else 0x80, if k = 0xD then 0x9F else 0xBF, k⟩) := by
  interval_cases k <;> rfl

/-- The first octet of a character of four. The next one is bounded, so that no character has a
longer form than it needs and none is beyond the last one. -/
theorem start_four {k : Nat} (h : k ≤ 4) :
    start (UInt8.ofNat (0xF0 + k)) =
      ([], some ⟨3, if k = 0 then 0x90 else 0x80, if k = 4 then 0x8F else 0xBF, k⟩) := by
  interval_cases k <;> rfl

/-- After the first octet of a longer character the others are read. -/
theorem scan_start {b : UInt8} {p : Pending} (h : start b = ([], some p)) (bs : List UInt8) :
    scan none (b :: bs) = scan (some p) bs := by
  simp only [scan, h, List.nil_append]

/-- A character of two octets. -/
theorem scan_two {a b : Nat} (ha : 2 ≤ a) (ha' : a < 0x20) (hb : b < 64) (bs : List UInt8) :
    scan none (UInt8.ofNat (0xC0 + a) :: UInt8.ofNat (0x80 + b) :: bs) =
      some (Char.ofNat (a * 64 + b)) :: scan none bs := by
  rw [scan_start (start_two ha ha'), scan_last hb]

/-- The second octet is not below its bound. -/
theorem low_le {a z l b : Nat} {x : UInt8} (hx : x.toNat = 0x80 + l) (h : a = z → l ≤ b) :
    (if a = z then x else 0x80 : UInt8).toNat ≤ 0x80 + b := by
  split
  · rw [hx]
    exact Nat.add_le_add_left (h ‹_›) 0x80
  · exact Nat.le_add_right _ _

/-- The second octet is not above its bound. -/
theorem le_high {a z l b : Nat} {x : UInt8} (hx : x.toNat = 0x7F + l) (hb : b < 64)
    (h : a = z → b < l) : 0x80 + b ≤ (if a = z then x else 0xBF : UInt8).toNat := by
  split
  · have hbl : b < l := h ‹_›
    omega
  · exact Nat.add_le_add_left (Nat.le_of_lt_succ hb) 0x80

/-- A character of three octets. -/
theorem scan_three {a b c : Nat} (ha : a < 0x10) (hb : b < 64) (hc : c < 64)
    (hlow : a = 0 → 0x20 ≤ b) (hhigh : a = 0xD → b < 0x20) (bs : List UInt8) :
    scan none (UInt8.ofNat (0xE0 + a) :: UInt8.ofNat (0x80 + b) :: UInt8.ofNat (0x80 + c) :: bs) =
      some (Char.ofNat ((a * 64 + b) * 64 + c)) :: scan none bs := by
  rw [scan_start (start_three ha), scan_next hb (low_le rfl hlow) (le_high rfl hb hhigh),
    scan_last hc]

/-- A character of four octets. -/
theorem scan_four {a b c d : Nat} (ha : a ≤ 4) (hb : b < 64) (hc : c < 64) (hd : d < 64)
    (hlow : a = 0 → 0x10 ≤ b) (hhigh : a = 4 → b < 0x10) (bs : List UInt8) :
    scan none (UInt8.ofNat (0xF0 + a) :: UInt8.ofNat (0x80 + b) :: UInt8.ofNat (0x80 + c) ::
        UInt8.ofNat (0x80 + d) :: bs) =
      some (Char.ofNat (((a * 64 + b) * 64 + c) * 64 + d)) :: scan none bs := by
  have hc' : 0x80 + c ≤ (0xBF : UInt8).toNat := Nat.add_le_add_left (Nat.le_of_lt_succ hc) 0x80
  rw [scan_start (start_four ha), scan_next hb (low_le rfl hlow) (le_high rfl hb hhigh),
    scan_next hc (show (0x80 : UInt8).toNat ≤ _ from Nat.le_add_right _ _) hc', scan_last hd]

/-- A code point is no surrogate and not beyond the last one. -/
theorem toNat_char (c : Char) : c.toNat < 0xD800 ∨ 0xDFFF < c.toNat ∧ c.toNat < 0x110000 := c.valid

/-- The octets of a character read as this character. -/
theorem scan_encodeChar (c : Char) (bs : List UInt8) :
    scan none (encodeChar c ++ bs) = some c :: scan none bs := by
  have hvalid := toNat_char c
  have hc : Char.ofNat c.toNat = c := Char.ofNat_toNat c
  unfold encodeChar
  generalize c.toNat = n at hvalid hc
  have hsix : n / Nat.pow 64 0 = n ∧ n / Nat.pow 64 1 = n / 64 ∧
      n / Nat.pow 64 2 = n / 64 / 64 ∧ n / Nat.pow 64 3 = n / 64 / 64 / 64 := by
    refine ⟨Nat.div_one n, rfl, ?_, ?_⟩
    · exact (Nat.div_div_eq_div_mul n 64 64).symm
    · rw [Nat.div_div_eq_div_mul, Nat.div_div_eq_div_mul]
  simp only [hsix]
  -- Joined again, the pieces of six bits are the code point.
  have h₁ : n / 64 * 64 + n % 64 = n := Nat.div_add_mod' n 64
  have h₂ : n / 64 / 64 * 64 + n / 64 % 64 = n / 64 := Nat.div_add_mod' (n / 64) 64
  have h₃ : n / 64 / 64 / 64 * 64 + n / 64 / 64 % 64 = n / 64 / 64 := Nat.div_add_mod' _ 64
  -- One case for each number of octets.
  split
  · rename_i hone
    exact (scan_one hone bs).trans (by rw [hc])
  · split
    · exact (scan_two (by omega) (by omega) (by omega) bs).trans (by rw [h₁, hc])
    · split
      · exact (scan_three (by omega) (by omega) (by omega) (by omega) (by omega) bs).trans
          (by rw [h₂, h₁, hc])
      · exact (scan_four (by omega) (by omega) (by omega) (by omega) (by omega) (by omega)
          bs).trans (by rw [h₃, h₂, h₁, hc])

/-- Octets that are written from characters are read as these characters. -/
theorem decode?_encode (cs : List Char) : decode? (encode cs) = some cs := by
  have hscan : scan none (encode cs) = cs.map some := by
    induction cs with
    | nil => rfl
    | cons c cs ih => rw [encode, List.flatMap_cons, scan_encodeChar, ← encode, ih, List.map_cons]
  rw [decode?, hscan, List.mapM_map]
  exact List.mapM_pure.trans (congrArg some (List.map_id cs))

end Octets

/-- A text without carriage returns has its line ends already as they are unified. -/
theorem unifyBreaks_eq_self {cs : List Char} (h : '\r' ∉ cs) : unifyBreaks cs = cs := by
  induction cs with
  | nil => rfl
  | cons c cs ih =>
    simp only [List.mem_cons, not_or] at h
    rw [unifyBreaks, ih h.2]
    · exact fun cs' hc => absurd hc.symm h.1
    · exact fun hc => absurd hc.symm h.1

/-- The characters up to a line end are a line. -/
theorem linesFrom_append {line : List Char} (h : '\n' ∉ line) (current rest : List Char) :
    linesFrom current (line ++ '\n' :: rest) = (current.reverse ++ line) :: linesFrom [] rest := by
  induction line generalizing current with
  | nil => rw [List.nil_append, linesFrom, List.append_nil]
  | cons c line ih =>
    simp only [List.mem_cons, not_or] at h
    rw [List.cons_append, linesFrom, ih h.2, List.reverse_cons, List.append_assoc]
    · rfl
    · exact fun hc => absurd hc.symm h.1

/-- Lines that are written one after another, each with its end, are read again. -/
theorem lines_flatMap {ls : List (List Char)} (h : ∀ line ∈ ls, '\n' ∉ line ∧ '\r' ∉ line) :
    lines (ls.flatMap (· ++ ['\n'])) = ls := by
  -- No end of a line is of the other kinds.
  have hunified : '\r' ∉ ls.flatMap (· ++ ['\n']) := by
    intro hin
    obtain ⟨line, hline, hin⟩ := List.mem_flatMap.mp hin
    rcases List.mem_append.mp hin with hin | hin
    · exact (h line hline).2 hin
    · simp at hin
  rw [lines, unifyBreaks_eq_self hunified]
  clear hunified
  -- Each line is read up to its end.
  induction ls with
  | nil => rfl
  | cons line ls ih =>
    obtain ⟨hline, hls⟩ := List.forall_mem_cons.mp h
    rw [List.flatMap_cons, List.append_assoc, List.singleton_append, linesFrom_append hline.1,
      ih hls]
    rfl

end Switchboard
