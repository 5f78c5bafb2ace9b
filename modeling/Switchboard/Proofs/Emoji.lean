import Switchboard.Emoji
import Switchboard.Proofs.Attempt
import Switchboard.Proofs.Text.Blank

/-!
# Names of unicode emojis

The blanks at the ends of a name are dropped before its selectors, so a blank that only selectors
part from an end of the name stays behind. Such a name `Exposes` a blank. A name that exposes none,
and shows anything besides blanks and selectors, decodes to its normal form: a text without
selectors and without blanks at its ends, which decodes to the same emoji again. No other name does
(`decode_name_iff`, `trimmed_normalizeChars_iff`). Normalizing twice makes all spellings of a name
the same that differ in selectors alone (`normalize_normalize_of_respelled`).
-/

namespace Switchboard.Emoji

/-- The characters without the selectors. -/
def bare (cs : List Char) : List Char := cs.filter (· != selector)

/-- One text is the other with selectors inserted or deleted at any places. -/
inductive Respelled : List Char → List Char → Prop
  | nil : Respelled [] []
  | keep {cs ds : List Char} (c : Char) (h : Respelled cs ds) : Respelled (c :: cs) (c :: ds)
  | insert {cs ds : List Char} (h : Respelled cs ds) : Respelled cs (selector :: ds)
  | delete {cs ds : List Char} (h : Respelled cs ds) : Respelled (selector :: cs) ds

/-- Once the blanks at its ends are dropped, the name has another blank that only selectors part
from an end. -/
def Exposes (cs : List Char) : Prop :=
  ∃ vs c rest, (∀ v ∈ vs, v = selector) ∧ isBlank c = true ∧
    (trim cs = vs ++ c :: rest ∨ trim cs = rest ++ c :: vs)

/-- The name has a character that is neither a blank nor a selector. -/
def Visible (cs : List Char) : Prop := ∃ c ∈ cs, c ≠ selector ∧ isBlank c = false

/-! ## Characters -/

/-- Texts that differ in selectors alone are the same without them. -/
theorem bare_of_respelled {cs ds : List Char} (h : Respelled cs ds) : bare cs = bare ds := by
  induction h with
  | nil => rfl
  | keep c _ ih => simp only [bare, List.filter_cons] at ih ⊢; rw [ih]
  | insert _ ih => exact ih
  | delete _ ih => exact ih

/-- Blanks are no selectors. -/
theorem bare_of_blank {cs : List Char} (h : ∀ c ∈ cs, isBlank c = true) : bare cs = cs := by
  refine List.filter_eq_self.mpr fun c hc => ?_
  have hsel : isBlank selector = false := by decide
  have hne : c ≠ selector := fun he => by simp [← he, h c hc] at hsel
  simpa using hne

/-- Blanks at the ends of a name make no difference to what is left of it without selectors. -/
theorem trim_normalizeChars (cs : List Char) : trim (normalizeChars cs) = trim (bare cs) := by
  obtain ⟨pre, post, hpre, hpost, hcs⟩ := exists_trim cs
  have hbare : bare cs = pre ++ normalizeChars cs ++ post := by
    conv_lhs => rw [hcs]
    rw [bare, List.filter_append, List.filter_append]
    exact congrArg₂ _ (congrArg₂ _ (bare_of_blank hpre) rfl) (bare_of_blank hpost)
  rw [hbare, trim_append hpre hpost]

/-- What a text begins with, without selectors, is its first character that is none. -/
theorem head?_bare {cs : List Char} {c : Char} : (bare cs).head? = some c ↔
    c ≠ selector ∧ ∃ vs rest, (∀ v ∈ vs, v = selector) ∧ cs = vs ++ c :: rest := by
  rw [bare, List.head?_filter, List.find?_eq_some_iff_append]
  simp only [bne_iff_ne, Bool.not_eq_true', bne_eq_false_iff_eq, and_comm]

/-- What a text ends with, without selectors, is its last character that is none. -/
theorem getLast?_bare {cs : List Char} {c : Char} : (bare cs).getLast? = some c ↔
    c ≠ selector ∧ ∃ vs rest, (∀ v ∈ vs, v = selector) ∧ cs = rest ++ c :: vs := by
  have hreverse : (bare cs).getLast? = (bare cs.reverse).head? := by
    rw [bare, bare, List.filter_reverse, List.head?_reverse]
  rw [hreverse, head?_bare]
  refine and_congr_right fun _ => ⟨fun ⟨vs, rest, hvs, h⟩ => ?_, fun ⟨vs, rest, hvs, h⟩ => ?_⟩
  · refine ⟨vs.reverse, rest.reverse, by simpa using hvs, ?_⟩
    rw [← List.reverse_inj, h]
    simp
  · refine ⟨vs.reverse, rest.reverse, by simpa using hvs, ?_⟩
    rw [h]
    simp

/-- Blanks are left at the ends of the names that expose one. -/
theorem trimmed_normalizeChars_iff {cs : List Char} :
    Trimmed (normalizeChars cs) ↔ ¬ Exposes cs := by
  have hsel : isBlank selector = false := by decide
  constructor
  · -- What is exposed stands at an end of the normal form.
    rintro h ⟨vs, c, rest, hvs, hblank, hfront | hback⟩
    · have hc : c ≠ selector := fun he => by simp [he, hsel] at hblank
      have hfirst := h.head c (head?_bare.mpr ⟨hc, vs, rest, hvs, hfront⟩)
      simp [hfirst] at hblank
    · have hc : c ≠ selector := fun he => by simp [he, hsel] at hblank
      have hlast := h.last c (getLast?_bare.mpr ⟨hc, vs, rest, hvs, hback⟩)
      simp [hlast] at hblank
  · intro h
    -- A blank at an end of the normal form was exposed in the name.
    refine ⟨fun c hc => ?_, fun c hc => ?_⟩
    · obtain ⟨-, vs, rest, hvs, hfront⟩ := head?_bare.mp hc
      by_contra hblank
      exact h ⟨vs, c, rest, hvs, by simpa using hblank, .inl hfront⟩
    · obtain ⟨-, vs, rest, hvs, hback⟩ := getLast?_bare.mp hc
      by_contra hblank
      exact h ⟨vs, c, rest, hvs, by simpa using hblank, .inr hback⟩

/-- Of a name that exposes no blank something is left when it shows something, and only then. -/
theorem normalizeChars_ne_nil_iff {cs : List Char} (h : Trimmed (normalizeChars cs)) :
    normalizeChars cs ≠ [] ↔ Visible cs := by
  constructor
  · intro hne
    -- What is left begins with a character that is no blank.
    have hfirst := List.head?_eq_some_head hne
    obtain ⟨hmem, hsel⟩ := List.mem_filter.mp (List.head_mem hne)
    exact ⟨_, mem_of_mem_trim hmem, by simpa using hsel, h.head _ hfirst⟩
  · rintro ⟨c, hc, hsel, hblank⟩
    exact List.ne_nil_of_mem (List.mem_filter.mpr ⟨mem_trim hc hblank, by simpa using hsel⟩)

/-- What is left of a name has no selectors. -/
theorem selector_notMem_normalizeChars (cs : List Char) : selector ∉ normalizeChars cs := by
  simp [normalizeChars]

/-- Normalizing a name twice drops its selectors and the blanks that are then at its ends. -/
theorem normalizeChars_normalizeChars (cs : List Char) :
    normalizeChars (normalizeChars cs) = trim (bare cs) := by
  rw [normalizeChars, trim_normalizeChars]
  exact List.filter_eq_self.mpr fun c hc => (List.mem_filter.mp (mem_of_mem_trim hc)).2

/-- Normalizing a name twice is the same as normalizing it once exactly when it exposes no blank. -/
theorem normalizeChars_idem_iff {cs : List Char} :
    normalizeChars (normalizeChars cs) = normalizeChars cs ↔ ¬ Exposes cs := by
  rw [normalizeChars_normalizeChars, ← trim_normalizeChars, trim_eq_self_iff,
    trimmed_normalizeChars_iff]

/-! ## Names -/

/-- The characters of a normalized name. -/
theorem toList_normalize (s : String) : (normalize s).toList = normalizeChars s.toList :=
  String.toList_ofList

/-- Names are the same when their characters are normalized to the same. -/
theorem normalize_inj {s t : String} :
    normalize s = normalize t ↔ normalizeChars s.toList = normalizeChars t.toList :=
  String.ofList_inj

/-- An object without an id that decodes has a name that is not empty, and decodes to what is left
of it. -/
theorem decode_ok_iff {type : String} {data : Fields} (hid : data.get "id" = .null) {e : Emoji} :
    decode type data = .ok e ↔
      ∃ s, data.get "name" = .text s ∧ s ≠ "" ∧ e = ⟨some (normalize s), none⟩ := by
  unfold decode
  rw [hid]
  dsimp only
  constructor
  · -- A name that decodes is a text, and not the empty one.
    intro h
    split at h
    · cases h
    · rename_i s hs
      change (if s.isEmpty then throw _ else pure _) = _ at h
      split at h
      · cases h
      · rename_i hne
        cases h
        exact ⟨s, hs, by simpa using hne, rfl⟩
    · cases h
  · rintro ⟨s, hs, hne, rfl⟩
    rw [hs]
    exact if_neg (by simpa using hne)

/-- An object that decodes to an emoji without an id has none itself. -/
theorem get_id_of_decode {type : String} {data : Fields} {e : Emoji}
    (h : decode type data = .ok e) (he : e.id = none) : data.get "id" = .null := by
  unfold decode at h
  dsimp only at h
  split at h
  case h_3 => cases h
  all_goals
    obtain ⟨name, -, h⟩ := bind_eq_ok.mp h
    split at h
    · assumption
    · obtain ⟨n, -, h⟩ := bind_eq_ok.mp h
      cases h
      cases he

/-- A name is left as it is, once it is normalized, when it exposed no blank. -/
theorem normalize_idem_iff {s : String} :
    normalize (normalize s) = normalize s ↔ ¬ Exposes s.toList := by
  rw [normalize_inj, toList_normalize, normalizeChars_idem_iff]

/-- Spellings that differ in selectors alone are the same once they are normalized twice. -/
theorem normalize_normalize_of_respelled {s t : String} (h : Respelled s.toList t.toList) :
    normalize (normalize s) = normalize (normalize t) := by
  rw [normalize_inj, toList_normalize, toList_normalize, normalizeChars_normalizeChars,
    normalizeChars_normalizeChars, bare_of_respelled h]

/-- An object with nothing but a name decodes to an emoji with the same name when the name is not
empty and is left as it is. -/
theorem decode_name_iff {type n : String} :
    decode type [(.text "name", .text n)] = .ok ⟨some n, none⟩ ↔ n ≠ "" ∧ normalize n = n := by
  rw [decode_ok_iff rfl]
  constructor
  · rintro ⟨s, hs, hne, he⟩
    have hs : Value.text n = .text s := hs
    cases hs
    simp only [Emoji.mk.injEq, Option.some.injEq, and_true] at he
    exact ⟨hne, he.symm⟩
  · rintro ⟨hne, hn⟩
    exact ⟨n, rfl, hne, by rw [hn]⟩

/-- An emoji object without an id that decodes has a name, and decodes to a text without selectors.
The text is not empty and has no blanks at its ends when the name shows something and exposes no
blank, and only then; and only then does the text decode to the same emoji again. To normalize a
text a second time changes it when it exposed a blank, and makes all spellings the same that differ
in selectors alone; so of two such spellings, one that exposes no blank is normalized to the same
text as the other when the other exposes none either. -/
theorem normalize_normal (type : String) (data : Fields) (e : Emoji) (s t : String) :
    (data.get "id" = .null → decode type data = .ok e →
      ∃ name n, data.get "name" = .text name ∧ e = ⟨some n, none⟩ ∧ selector ∉ n.toList ∧
        (n ≠ "" ∧ Trimmed n.toList ↔ Visible name.toList ∧ ¬ Exposes name.toList) ∧
        (decode type [(.text "name", .text n)] = .ok e ↔
          Visible name.toList ∧ ¬ Exposes name.toList)) ∧
      (normalize (normalize s) = normalize s ↔ ¬ Exposes s.toList) ∧
      (Respelled s.toList t.toList → normalize (normalize s) = normalize (normalize t) ∧
        (¬ Exposes t.toList → (normalize s = normalize t ↔ ¬ Exposes s.toList))) := by
  refine ⟨fun hid h => ?_, normalize_idem_iff,
    fun h => ⟨normalize_normalize_of_respelled h, fun ht => ?_⟩⟩
  · obtain ⟨name, hname, -, rfl⟩ := (decode_ok_iff hid).mp h
    have hlist := toList_normalize name
    -- The normal form is a text without blanks at its ends exactly if the name has one.
    have hempty : normalize name ≠ "" ↔ normalizeChars name.toList ≠ [] := by
      rw [← hlist]
      exact String.toList_eq_nil_iff.not.symm
    have hnormal : normalize name ≠ "" ∧ Trimmed (normalize name).toList ↔
        Visible name.toList ∧ ¬ Exposes name.toList := by
      rw [hempty, hlist, ← trimmed_normalizeChars_iff]
      exact and_congr_left normalizeChars_ne_nil_iff
    refine ⟨name, normalize name, hname, rfl, ?_, hnormal, ?_⟩
    · rw [hlist]
      exact selector_notMem_normalizeChars _
    · rw [decode_name_iff, ← hnormal, normalize_idem_iff, hlist, trimmed_normalizeChars_iff]
  · -- The spelling that exposes none is in normal form, which is that of the other one.
    have hnormal := normalize_normalize_of_respelled h
    rw [normalize_idem_iff.mpr ht] at hnormal
    rw [← hnormal, eq_comm, normalize_idem_iff]

/-- A heart that is sent between blanks and with a selector decodes to the heart, which decodes to
the same emoji again and is the same without the selector. -/
theorem normalize_normal_heart : ∃ (data : Fields) (e : Emoji) (s t n : String),
    data.get "id" = .null ∧ decode "X" data = .ok e ∧ data.get "name" = .text s ∧
      e = ⟨some n, none⟩ ∧ n ≠ "" ∧ Trimmed n.toList ∧ selector ∉ n.toList ∧
      decode "X" [(.text "name", .text n)] = .ok e ∧
      s ≠ t ∧ Respelled s.toList t.toList ∧ normalize s = normalize t := by
  have hrespelled : Respelled " ❤\uFE0F ".toList " ❤ ".toList :=
    .keep ' ' (.keep '❤' (.delete (.keep ' ' .nil)))
  have hvisible : Visible " ❤\uFE0F ".toList := ⟨'❤', by decide, by decide, by decide⟩
  -- A name whose normal form is left as it is exposes no blank.
  have hexposes : ¬ Exposes " ❤\uFE0F ".toList := normalize_idem_iff.mp (by decide +kernel)
  have hexposes' : ¬ Exposes " ❤ ".toList := normalize_idem_iff.mp (by decide +kernel)
  have hdecode : decode "X" [(.text "name", .text " ❤\uFE0F ")] = .ok ⟨some "❤", none⟩ := by
    decide +kernel
  obtain ⟨hname, -, hspellings⟩ := normalize_normal "X" _ _ " ❤\uFE0F " " ❤ "
  obtain ⟨s, n, hs, he, hsel, hnormal, hagain⟩ := hname rfl hdecode
  have hs : Value.text " ❤\uFE0F " = .text s := hs
  cases hs
  obtain ⟨hne, htrimmed⟩ := hnormal.mpr ⟨hvisible, hexposes⟩
  exact ⟨_, _, _, _, n, rfl, hdecode, rfl, he, hne, htrimmed, hsel,
    hagain.mpr ⟨hvisible, hexposes⟩, by decide +kernel, hrespelled,
    ((hspellings hrespelled).2 hexposes').mpr hexposes⟩

/-- A blank before a selector at the end of a name is left there, and is dropped when the selector
is left out or the name is decoded again. A selector alone decodes to no name at all. -/
theorem normalize_exposed :
    decode "X" [(.text "name", .text "a \uFE0F")] = .ok ⟨some "a ", none⟩ ∧
      ¬ Trimmed "a ".toList ∧
      decode "X" [(.text "name", .text "a ")] = .ok ⟨some "a", none⟩ ∧
      Respelled "a \uFE0F".toList "a ".toList ∧ normalize "a \uFE0F" ≠ normalize "a " ∧
      normalize (normalize "a \uFE0F") ≠ normalize "a \uFE0F" ∧
      decode "X" [(.text "name", .text "\uFE0F")] = .ok ⟨some "", none⟩ ∧
      decode "X" [(.text "name", .text "")] =
        .error (.decode ⟨"X", some "emoji", .noIdentity⟩) := by
  refine ⟨by decide +kernel, fun h => ?_, by decide +kernel, ?_, by decide +kernel,
    by decide +kernel, by decide +kernel, rfl⟩
  · -- The blank is at the end of the text.
    have hblank : isBlank ' ' = false := h.last ' ' rfl
    cases hblank
  · exact .keep 'a' (.keep ' ' (.delete .nil))

end Switchboard.Emoji
