import Switchboard.Proofs.Attempt
import Switchboard.Proofs.Settings
import Switchboard.Proofs.Text.Octets
import Switchboard.Proofs.Value
import Switchboard.Settings.File

/-!
# What is relied on of libraries

Of a library for YAML two things are relied on. Maps are tables, so the keys of those that it hands
over are told apart (`KeysApart`). And a value is read as it was written (`RoundTrips`), which is
asked of settings that are written and of nothing else.

The library of `Settings.File` tells keys apart (`keysApart_library`) and reads the defaults as it
writes them (`storable_defaults`).
-/

namespace Switchboard.Yaml

open Table

section

variable [Library] {v : Value}

/-- In a map that is handed over the keys are told apart, and so are those in the maps that are its
values. -/
def KeysApart : Prop := ∀ cs es, Library.parse cs = .ok (.map es) → Settings.Regular es

/-- A value can be written and is read as it was written. -/
def Storable (v : Value) : Prop := (Library.dump v).2 = none ∧ RoundTrips v

/-- What is written to a file is read from it. -/
theorem documentIn_encode (hv : RoundTrips v) {text : String}
    (ht : Library.dump v = (text, none)) : documentIn (Octets.encode text.toList) = .ok v := by
  rw [documentIn, Octets.decode?_encode]
  exact hv text ht

/-- Only a text has a value. -/
theorem exists_of_documentIn {octets : List UInt8} (h : documentIn octets = .ok v) :
    ∃ cs, Library.parse cs = .ok v := by
  unfold documentIn at h
  split at h
  · exact ⟨_, h⟩
  · cases h

end

/-! ## The library of settings files -/

/-- The value of a node that is a map has keys that are told apart. -/
theorem Node.distinct_of_value {n : Node} {es : Fields} (h : n.value = .map es) : Distinct es := by
  cases n with
  | map t es' =>
    cases h
    exact distinct_ofList _
  | _ => cases h

/-- The values of entries are those of nodes. -/
theorem Node.exists_of_mem_values {es : List (Node × Node)} {v : Value}
    (h : v ∈ values (entryValues es)) : ∃ n : Node, n.value = v := by
  induction es with
  | nil => cases h
  | cons e es ih =>
    obtain ⟨n, m⟩ := e
    cases n <;>
    · rcases List.mem_cons.mp h with h | h
      · exact ⟨m, h.symm⟩
      · exact ih h

/-- What is read is the value of a node, unless it is null. -/
theorem exists_of_read {cs : List Char} {v : Value} (h : read cs = .ok v) :
    v = .null ∨ ∃ n : Node, n.value = v := by
  obtain ⟨o, -, h⟩ := bind_eq_ok.mp h
  cases o with
  | none =>
    cases h
    exact .inl rfl
  | some n =>
    simp only [Node.value?] at h
    split at h
    · cases h
    · cases h
      exact .inr ⟨n.flatten, rfl⟩

/-- In a map that is read the keys are told apart, and so are those in the maps that are its
values. -/
theorem regular_of_read {cs : List Char} {es : Fields} (h : read cs = .ok (.map es)) :
    Settings.Regular es := by
  obtain hnull | ⟨n, hn⟩ := exists_of_read h
  · cases hnull
  refine ⟨Node.distinct_of_value hn, fun k given hin => ?_⟩
  cases n with
  | map t es' =>
    cases hn
    have hvalue : .map given ∈ values (Table.ofList (Node.entryValues es')) :=
      List.mem_map_of_mem (f := Prod.snd) hin
    obtain ⟨m, hm⟩ := Node.exists_of_mem_values (values_ofList_subset _ hvalue)
    exact Node.distinct_of_value hm
  | _ => cases hn

/-- The library of settings files tells keys apart. -/
theorem keysApart_library : KeysApart := fun _ _ h => regular_of_read h

/-- A value is read as it was written if it is read from the text that is written of it. -/
theorem RoundTrips.of_text {v : Value} (text : String) (hw : write v = .ok text)
    (hr : read (unifyBreaks text.toList) = .ok v) : RoundTrips v := by
  intro text' hw'
  have hdump : Library.dump v = (text, none) := by simp only [Library.dump, hw]
  cases hdump.symm.trans hw'
  exact hr

/-- The document of the defaults. -/
def defaultText : String :=
  "gateway:\n  workers: 4\n  queue_size: 256\n  log_unknown_packets: false\n" ++
  "cache:\n  message_capacity: 1000\n  message_max_age_seconds: 43200\n" ++
  "  sweep_interval_seconds: 60\nlogging:\n  level: INFO\n"

/-- The defaults are read as they are written. -/
theorem storable_defaults : Storable (.map Settings.defaults) :=
  ⟨by decide +kernel, .of_text defaultText (by decide +kernel) (by decide +kernel)⟩

end Switchboard.Yaml
