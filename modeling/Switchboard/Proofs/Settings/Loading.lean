import Switchboard.Proofs.Yaml.Library

/-!
# What is loaded from a file

What a file holds is the value of a document, or the reason why there is none: a text that is no
document, or one that cannot be read any further. By this a keeper adopts settings, resets to the
defaults or refuses to load (`reception`, `Keeper.exists_load`).

Loading is meant to be lenient (`promise`): a map is laid over the defaults, an empty document
stands for an empty map, and whatever else there is gives way to the defaults, which are then
written. A missing file and every document are received as promised, and nothing else is
(`load_receives`): a text that is no document is taken for an empty one and stays where it is, and
one that cannot be read makes loading fail, as octets that are no text do unless the text before
them is at fault.
-/

namespace Switchboard.Settings

section

variable [Yaml.Library]

/-! ## Contents -/

/-- What the file at a path holds, if there is one. -/
def Place.content? : Place → Option (Except Yaml.Problem Value)
  | .file octets => some (Yaml.documentIn octets)
  | .missing | .directory => none

namespace Store

variable {s s' : Store} {v : Value}

/-- The file holds a value. -/
def Holds (s : Store) (v : Value) : Prop := s.place.content? = some (.ok v)

/-- What has been written without failure stands in a file. -/
theorem write_ok (h : s.write v = (s', none)) :
    ∃ text, Yaml.Library.dump v = (text, none) ∧ s'.place = .file (Octets.encode text.toList) := by
  unfold write at h
  generalize Yaml.Library.dump v = d at h ⊢
  obtain ⟨text, failure⟩ := d
  cases failure with
  | some f => cases h
  | none =>
    dsimp only at h
    split at h
    · cases h
    · cases h
      exact ⟨text, rfl, rfl⟩

/-- A file holds what has been written to it, if this is read as it was written. -/
theorem holds_of_write (hv : Yaml.RoundTrips v) (h : s.write v = (s', none)) : s'.Holds v := by
  obtain ⟨text, ht, hplace⟩ := write_ok h
  rw [Holds, hplace]
  exact congrArg some (Yaml.documentIn_encode hv ht)

/-- A value that can be written is written over whatever stands at the path, unless this is a
directory. -/
theorem exists_write (hv : (Yaml.Library.dump v).2 = none) (hs : s.place ≠ .directory) :
    ∃ s', s.write v = (s', none) := by
  unfold write
  generalize Yaml.Library.dump v = d at hv ⊢
  obtain ⟨text, failure⟩ := d
  cases hv
  dsimp only
  split
  · rename_i hplace
    exact absurd hplace hs
  · exact ⟨_, rfl⟩

/-- Settings that a file holds are regular. -/
theorem regular_of_holds (ha : Yaml.KeysApart) {es : Fields} (h : s.Holds (.map es)) :
    Regular es := by
  unfold Holds Place.content? at h
  split at h
  · obtain ⟨cs, hcs⟩ := Yaml.exists_of_documentIn (Option.some.inj h)
    exact ha cs es hcs
  · cases h
  · cases h

end Store

/-! ## Receptions -/

/-- What a keeper does with what it finds at its path. -/
inductive Reception where
  /-- The settings come into effect, and the file stays as it is. -/
  | adopt (c : Fields)
  /-- The defaults come into effect and are written. -/
  | reset
  /-- Loading fails. -/
  | refuse (f : Failure)

/-- What a keeper does with a content; `none` stands for no file. -/
def reception : Option (Except Yaml.Problem Value) → Reception
  | some (.ok (.map es)) => .adopt (overlay defaults es)
  | some (.ok .null) => .adopt defaults
  | some (.error .malformed) => .adopt defaults
  | some (.error (.failed f)) => .refuse f
  | _ => .reset

/-- What a keeper is meant to do with a content. -/
def promise : Option (Except Yaml.Problem Value) → Reception
  | some (.ok (.map es)) => .adopt (overlay defaults es)
  | some (.ok .null) => .adopt defaults
  | _ => .reset

/-- Settings that are adopted are those of a regular map, laid over the defaults. -/
theorem exists_of_adopt (ha : Yaml.KeysApart) {s : Store} {c : Fields}
    (h : reception s.place.content? = .adopt c) : ∃ es, Regular es ∧ c = overlay defaults es := by
  have hempty : Regular [] := by decide
  -- What the document holds decides, and one that holds no map counts as empty.
  unfold reception at h
  split at h
  · rename_i es hcontent
    cases h
    exact ⟨es, Store.regular_of_holds ha hcontent, rfl⟩
  · cases h
    exact ⟨[], hempty, rfl⟩
  · cases h
    exact ⟨[], hempty, rfl⟩
  · cases h
  · cases h

namespace Keeper

variable {k : Keeper}

/-- What comes of a reception. -/
def receive (k : Keeper) (logs : List LogRecord) : Reception → Outcome Fields
  | .adopt c => ⟨{ k with current := c }, logs, .ok c⟩
  | .reset => k.resetWith logs
  | .refuse f => ⟨k, logs, .error f⟩

/-- A keeper that loads receives what is at its path. -/
theorem exists_load (k : Keeper) :
    ∃ logs, k.load = k.receive logs (reception k.store.place.content?) := by
  unfold load Store.isFile Store.read
  cases hplace : k.store.place with
  | missing => exact ⟨[.settingsMissing k.store.path], if_pos rfl⟩
  | directory => exact ⟨[.settingsMissing k.store.path], if_pos rfl⟩
  | file octets =>
    rw [if_neg (by simp)]
    simp only [Place.content?, Store.documentOf]
    -- The store tells the contents apart, and the keeper the values.
    cases Yaml.documentIn octets with
    | ok v =>
      cases v with
      | scalar s =>
        cases s with
        | null => exact ⟨_, rfl⟩
        | _ =>
          exact ⟨[.settingsMalformed k.store.path],
            by simp only [reception, receive, List.nil_append]⟩
      | list xs =>
        exact ⟨[.settingsMalformed k.store.path],
          by simp only [reception, receive, List.nil_append]⟩
      | map es => exact ⟨_, rfl⟩
    | error p => cases p <;> exact ⟨_, rfl⟩

/-- Settings that are adopted come into effect, and nothing is written. -/
theorem load_of_adopt {c : Fields} (h : reception k.store.place.content? = .adopt c) :
    k.load.answer = .ok c ∧ k.load.keeper = { k with current := c } := by
  obtain ⟨logs, hload⟩ := k.exists_load
  rw [hload, h]
  exact ⟨rfl, rfl⟩

/-- Settings that a file holds come into effect over the defaults. -/
theorem load_of_holds {es : Fields} (h : k.store.Holds (.map es)) :
    k.load.answer = .ok (overlay defaults es) ∧
      k.load.keeper = { k with current := overlay defaults es } :=
  load_of_adopt (by rw [h, reception])

/-- What is refused changes nothing. -/
theorem load_of_refuse {f : Failure} (h : reception k.store.place.content? = .refuse f) :
    k.load.answer = .error f ∧ k.load.keeper = k := by
  obtain ⟨logs, hload⟩ := k.exists_load
  rw [hload, h]
  exact ⟨rfl, rfl⟩

/-- A keeper that resets writes the defaults, which are in effect whatever comes of that. -/
theorem load_of_reset (h : reception k.store.place.content? = .reset) :
    k.load.keeper = ⟨(k.store.write (.map defaults)).1, defaults⟩ ∧
      k.load.answer = match (k.store.write (.map defaults)).2 with
        | some f => .error f
        | none => .ok defaults := by
  obtain ⟨logs, hload⟩ := k.exists_load
  rw [hload, h]
  exact ⟨rfl, rfl⟩

/-- The keeper has done what a reception asks for. -/
def Receives (k : Keeper) : Reception → Prop
  | .adopt c => k.load.answer = .ok c ∧ k.load.keeper = { k with current := c }
  | .reset => k.load.answer = .ok defaults ∧ k.load.keeper.current = defaults ∧
      k.load.keeper.store.Holds (.map defaults)
  | .refuse f => k.load.answer = .error f ∧ k.load.keeper = k

/-- A keeper does what the content at its path asks for, unless a directory stands there. -/
theorem receives_reception (hd : Yaml.Storable (.map defaults))
    (hk : k.store.place ≠ .directory) : k.Receives (reception k.store.place.content?) := by
  cases hr : reception k.store.place.content? with
  | adopt c => exact load_of_adopt hr
  | refuse f => exact load_of_refuse hr
  | reset =>
    obtain ⟨s, hwrite⟩ := Store.exists_write hd.1 hk
    obtain ⟨hkeeper, hanswer⟩ := load_of_reset hr
    rw [hwrite] at hkeeper hanswer
    rw [Receives, hkeeper]
    exact ⟨hanswer, rfl, Store.holds_of_write hd.2 hwrite⟩

/-- A document is received as promised. -/
theorem receives_document_iff {v : Value} :
    k.Receives (reception (some (.ok v))) ↔ k.Receives (promise (some (.ok v))) := by
  have hsame : reception (some (.ok v)) = promise (some (.ok v)) := by
    unfold reception promise
    split <;> simp_all
  rw [hsame]

/-- What is adopted is not written, so a file that does not hold the defaults is not reset. -/
theorem not_receives_reset_of_adopt {c : Fields} (h : k.Receives (.adopt c))
    (hheld : ¬ k.store.Holds (.map defaults)) : ¬ k.Receives .reset := by
  rintro ⟨-, -, hreset⟩
  rw [h.2] at hreset
  exact hheld hreset

/-- What is refused is not reset. -/
theorem not_receives_reset_of_refuse {f : Failure} (h : k.Receives (.refuse f)) :
    ¬ k.Receives .reset := by
  rintro ⟨hreset, -⟩
  rw [h.1] at hreset
  cases hreset

/-- With a library that can write the defaults and reads them as it writes them, a keeper does what
the content at its path asks for, unless a directory stands there. This is what is promised exactly
when there is no file or the file holds a document. -/
theorem load_receives (hd : Yaml.Storable (.map defaults)) (hk : k.store.place ≠ .directory) :
    k.Receives (reception k.store.place.content?) ∧
      (k.Receives (promise k.store.place.content?) ↔
        k.store.place = .missing ∨ ∃ v, k.store.Holds v) := by
  have hreceives := receives_reception hd hk
  refine ⟨hreceives, ?_⟩
  cases hplace : k.store.place with
  | missing =>
    rw [hplace] at hreceives
    exact iff_of_true hreceives (.inl rfl)
  | directory => exact absurd hplace hk
  | file octets =>
    have hcontent : k.store.place.content? = some (Yaml.documentIn octets) := by
      rw [hplace]
      rfl
    have hfile : ¬ Place.file octets = .missing := by simp
    simp only [Store.Holds, hfile, false_or]
    rw [hcontent] at hreceives ⊢
    show k.Receives (promise (some (Yaml.documentIn octets))) ↔ _
    cases hdoc : Yaml.documentIn octets with
    | ok v =>
      rw [hdoc] at hreceives
      exact iff_of_true (receives_document_iff.mp hreceives) ⟨v, rfl⟩
    | error p =>
      have hnone : ¬ ∃ v, some (Except.error p : Except Yaml.Problem Value) = some (.ok v) := by
        simp
      refine iff_of_false ?_ hnone
      rw [hdoc] at hreceives
      cases p with
      | malformed =>
        have hheld : ¬ k.store.Holds (.map defaults) := by
          rw [Store.Holds, hcontent, hdoc]
          simp
        exact not_receives_reset_of_adopt hreceives hheld
      | failed f => exact not_receives_reset_of_refuse hreceives

end Keeper

end

namespace Keeper

/-- A keeper of a file with one setting. -/
def sparse : Keeper :=
  ⟨⟨"config.yaml", .file (Octets.encode "gateway:\n  workers: 8\n".toList), none⟩, []⟩

/-- The settings that the file gives. -/
def sparseSettings : Fields :=
  Fields.ofList [("gateway", .map (Fields.ofList [("workers", .int 8)]))]

/-- A file with one setting is laid over the defaults, as promised, and stays as it is. -/
theorem load_receives_sparse :
    Yaml.Storable (.map defaults) ∧ sparse.store.place ≠ .directory ∧
      sparse.load.answer = .ok (overlay defaults sparseSettings) ∧
      sparse.load.keeper = { sparse with current := overlay defaults sparseSettings } ∧
      sparse.Receives (promise sparse.store.place.content?) := by
  have hplace : sparse.store.place ≠ .directory := by simp [sparse]
  have hheld : sparse.store.Holds (.map sparseSettings) := by
    unfold Store.Holds
    decide +kernel
  obtain ⟨hanswer, hkeeper⟩ := load_of_holds hheld
  refine ⟨Yaml.storable_defaults, hplace, hanswer, hkeeper, ?_⟩
  -- What is promised is not unfolded here, or the file would be read along with it.
  rw [(load_receives (k := sparse) Yaml.storable_defaults hplace).2]
  exact .inr ⟨_, hheld⟩

/-- A keeper of a file with a text that is no document. -/
def unclosed : Keeper :=
  ⟨⟨"config.yaml", .file (Octets.encode "a: 'unclosed\n".toList), none⟩, []⟩

/-- A keeper of a file with an octet that begins no character. -/
def garbled : Keeper := ⟨⟨"config.yaml", .file [0xFF], none⟩, []⟩

/-- A text that is no document is not replaced by the defaults, and octets that are no text make
loading fail. -/
theorem load_unpromised :
    (unclosed.load.answer = .ok defaults ∧
      unclosed.load.keeper = { unclosed with current := defaults } ∧
      ¬ unclosed.Receives (promise unclosed.store.place.content?)) ∧
    garbled.load.answer = .error .notWellFormed ∧ garbled.load.keeper = garbled ∧
      ¬ garbled.Receives (promise garbled.store.place.content?) := by
  -- What the two files hold.
  have hmalformed : unclosed.store.place.content? = some (.error .malformed) := by decide +kernel
  have hgarbled : garbled.store.place.content? = some (.error (.failed .notWellFormed)) := by
    decide +kernel
  -- What the keeper does with them.
  have hadopts : unclosed.Receives (.adopt defaults) :=
    load_of_adopt (by rw [hmalformed, reception])
  have hrefuses : garbled.Receives (.refuse .notWellFormed) :=
    load_of_refuse (by rw [hgarbled, reception])
  -- The defaults have not been written.
  have hheld : ¬ unclosed.store.Holds (.map defaults) := by
    rw [Store.Holds, hmalformed]
    simp
  rw [hmalformed, hgarbled]
  exact ⟨⟨hadopts.1, hadopts.2, not_receives_reset_of_adopt hadopts hheld⟩, hrefuses.1,
    hrefuses.2, not_receives_reset_of_refuse hrefuses⟩

end Keeper

end Switchboard.Settings
