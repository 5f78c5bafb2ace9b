import Mathlib.Data.List.DropRight
import Switchboard.Text.Character

/-!
# Texts without blanks at their ends

A text is `Trimmed` when it neither begins nor ends with a blank. `trim` leaves just these texts as
they are (`trim_eq_self_iff`). What it drops are blanks at the two ends (`exists_trim`), and more
blanks there make no difference to it (`trim_append`).
-/

namespace Switchboard

/-- The text neither begins nor ends with a blank. -/
structure Trimmed (cs : List Char) : Prop where
  head : ∀ c ∈ cs.head?, isBlank c = false
  last : ∀ c ∈ cs.getLast?, isBlank c = false

/-- What is dropped are blanks in front and at the end. -/
theorem exists_trim (cs : List Char) :
    ∃ pre post, (∀ c ∈ pre, isBlank c = true) ∧ (∀ c ∈ post, isBlank c = true) ∧
      cs = pre ++ trim cs ++ post := by
  refine ⟨cs.takeWhile isBlank, (cs.dropWhile isBlank).rtakeWhile isBlank,
    fun c hc => List.mem_takeWhile_imp hc, fun c hc => List.mem_rtakeWhile_imp hc, ?_⟩
  have hend : trim cs ++ (cs.dropWhile isBlank).rtakeWhile isBlank = cs.dropWhile isBlank :=
    List.rdropWhile_append_rtakeWhile
  rw [List.append_assoc, hend, List.takeWhile_append_dropWhile]

/-- Blanks that stand around a text are dropped with its own. -/
theorem trim_append {pre post : List Char} (hpre : ∀ c ∈ pre, isBlank c = true)
    (hpost : ∀ c ∈ post, isBlank c = true) (cs : List Char) :
    trim (pre ++ cs ++ post) = trim cs := by
  have hreverse : ∀ c ∈ post.reverse, isBlank c = true := by simpa using hpost
  unfold trim
  rw [List.append_assoc, List.dropWhile_append_of_pos hpre, List.dropWhile_append]
  split
  · -- The text has nothing but blanks itself.
    rename_i hempty
    rw [List.isEmpty_iff.mp hempty, List.dropWhile_eq_nil_iff.mpr hpost]
  · rw [trimEnd, List.reverse_append, List.dropWhile_append_of_pos hreverse]
    rfl

/-- Nothing gets in. -/
theorem mem_of_mem_trim {cs : List Char} {c : Char} (h : c ∈ trim cs) : c ∈ cs := by
  obtain ⟨pre, post, -, -, hcs⟩ := exists_trim cs
  rw [hcs]
  exact List.mem_append_left _ (List.mem_append_right _ h)

/-- What is no blank stays. -/
theorem mem_trim {cs : List Char} {c : Char} (h : c ∈ cs) (hc : isBlank c = false) :
    c ∈ trim cs := by
  obtain ⟨pre, post, hpre, hpost, hcs⟩ := exists_trim cs
  rw [hcs, List.mem_append, List.mem_append] at h
  rcases h with (h | h) | h
  · simp [hpre c h] at hc
  · exact h
  · simp [hpost c h] at hc

/-- No text gets longer. -/
theorem length_trim_le (cs : List Char) : (trim cs).length ≤ cs.length := by
  obtain ⟨pre, post, -, -, hcs⟩ := exists_trim cs
  have hlength := congrArg List.length hcs
  simp only [List.length_append] at hlength
  omega

/-- A text is left as it is when it has no blanks at its ends. -/
theorem trim_eq_self_iff {cs : List Char} : trim cs = cs ↔ Trimmed cs := by
  constructor
  · intro h
    -- A blank at an end would be dropped, and the text would get shorter.
    constructor
    · intro c hc
      obtain ⟨rest, rfl⟩ := List.head?_eq_some_iff.mp hc
      by_contra hblank
      have hdrop : trim ([c] ++ rest ++ []) = trim rest :=
        trim_append (by simpa using hblank) (by simp) rest
      rw [List.append_nil, List.singleton_append, h] at hdrop
      have hle := length_trim_le rest
      rw [← hdrop, List.length_cons] at hle
      omega
    · intro c hc
      obtain ⟨rest, rfl⟩ := List.getLast?_eq_some_iff.mp hc
      by_contra hblank
      have hdrop : trim ([] ++ rest ++ [c]) = trim rest :=
        trim_append (by simp) (by simpa using hblank) rest
      rw [List.nil_append, h] at hdrop
      have hle := length_trim_le rest
      rw [← hdrop, List.length_append, List.length_singleton] at hle
      omega
  · intro h
    have hfront : cs.dropWhile isBlank = cs := by
      cases cs with
      | nil => rfl
      | cons c cs => rw [List.dropWhile_cons_of_neg (by simp [h.head c rfl])]
    have hback : cs.rdropWhile isBlank = cs := by
      refine List.rdropWhile_eq_self_iff.mpr fun hne => ?_
      simp [h.last _ (List.getLast?_eq_some_getLast hne)]
    rw [trim, hfront]
    exact hback

end Switchboard
