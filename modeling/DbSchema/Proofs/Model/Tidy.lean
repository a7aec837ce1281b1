import DbSchema.Model.Basic
import DbSchema.Proofs.Names

/-!
# Tidy descriptions

Whatever parameters a field, an index or a constraint is made from, its name is a trimmed text, its
lists of names are normalised, its size is a list of integers and its kind is a member of its set.

## Main definitions

* `FieldSpec.Tidy`, `IndexSpec.Tidy`, `ConstraintSpec.Tidy` — descriptions of that shape.
* `ConstraintSpec.NearlyTidy`, `ConstraintSpec.trimmed` — a constraint that was given another name
  later, and what it is with that name trimmed.

## Main results

* `FieldSpec.tidy_of_ofParams` and its like — parameters give such descriptions only.
-/

namespace DbSchema

/-- The value is a text. -/
def IsText (v : Value) : Prop := ∃ s, v = .text s

instance : DecidablePred IsText
  | .text s => .isTrue ⟨s, rfl⟩
  | .null | .bool _ | .int _ | .float _ | .bytes _ | .date .. | .datetime .. | .list .. | .tuple ..
  | .set .. | .map .. | .indexKind _ | .constraintKind _ | .object _ => .isFalse nofun

/-- The value is a trimmed text. -/
def IsTrimmedText (v : Value) : Prop := ∃ s, v = .text s ∧ Trimmed s

theorem IsTrimmedText.isText {v : Value} (h : IsTrimmedText v) : IsText v :=
  h.imp fun _ hs => hs.1

/-- The value is a list of normalised names that no other place holds. -/
def IsNameList (v : Value) : Prop := ∃ ns, v = .ofTexts ns ∧ Normalised ns

theorem isTrimmedText_of_cleanText {what : String} {v : Value} {s : String}
    (h : cleanText what v = .ok s) : Trimmed s := by
  cases v with
  | null => cases h; exact trimmed_empty
  | text r => cases h; exact trimmed_trim r
  | _ => cases h

theorem normalised_of_nameList {v : Value} {ns : List String} (h : nameList v = .ok ns) :
    Normalised ns := by
  rw [nameList] at h
  rcases hs : splitNames [v] with r | ms <;> rw [hs] at h <;> cases h
  exact normalised_of_splitNames hs

/-- The description that parameters give was tidied. -/
theorem exists_tidy_of_specOf {σ : Type} {fill : σ → String → Value → Option σ}
    {tidy : σ → Except ModelError σ} {default spec : σ} {params : Params}
    (h : specOf fill tidy default params = .ok spec) : ∃ raw, tidy raw = .ok spec := by
  rw [specOf] at h
  rcases hf : fillParams fill default params with _ | raw <;> rw [hf] at h
  · cases h
  · exact ⟨raw, h⟩

/-- A field with a trimmed name and type and a size in integers. -/
structure FieldSpec.Tidy (spec : FieldSpec) : Prop where
  name : IsTrimmedText spec.name
  dataType : IsTrimmedText spec.dataType
  size : ∃ ns, spec.size = .ofInts ns

/-- An index with a trimmed name, normalised names and a kind. -/
structure IndexSpec.Tidy (spec : IndexSpec) : Prop where
  name : IsTrimmedText spec.name
  fields : IsNameList spec.fields
  kind : ∃ k, spec.kind = .indexKind k
  options : IsNameList spec.options

/-- A constraint with a trimmed name, normalised names, and a kind unless it has none. -/
structure ConstraintSpec.Tidy (spec : ConstraintSpec) : Prop where
  name : IsTrimmedText spec.name
  kind : spec.kind = .null ∨ ∃ k, spec.kind = .constraintKind k
  fields : IsNameList spec.fields
  referenceFields : IsNameList spec.referenceFields
  options : IsNameList spec.options

theorem FieldSpec.tidy_of_ofParams {params : Params} {spec : FieldSpec}
    (h : FieldSpec.ofParams params = .ok spec) : spec.Tidy := by
  obtain ⟨raw, hraw⟩ := exists_tidy_of_specOf h
  simp only [FieldSpec.tidy, bind, Except.bind] at hraw
  rcases hn : cleanText "field name" raw.name with e | name <;> rw [hn] at hraw
  · cases hraw
  rcases hd : cleanText "data type" raw.dataType with e | dataType <;> rw [hd] at hraw
  · cases hraw
  rcases hs : parseSize raw.size with e | size <;> rw [hs] at hraw
  · cases hraw
  cases hraw
  exact ⟨⟨name, rfl, isTrimmedText_of_cleanText hn⟩,
    ⟨dataType, rfl, isTrimmedText_of_cleanText hd⟩, ⟨size, rfl⟩⟩

theorem IndexSpec.tidy_of_ofParams {params : Params} {spec : IndexSpec}
    (h : IndexSpec.ofParams params = .ok spec) : spec.Tidy := by
  obtain ⟨raw, hraw⟩ := exists_tidy_of_specOf h
  simp only [IndexSpec.tidy, bind, Except.bind] at hraw
  rcases hn : cleanText "index name" raw.name with e | name <;> rw [hn] at hraw
  · cases hraw
  rcases hf : nameList raw.fields with e | fields <;> rw [hf] at hraw
  · cases hraw
  rcases ho : nameList raw.options with e | options <;> rw [ho] at hraw
  · cases hraw
  rcases hk : IndexKind.ofValue? raw.kind with _ | kind <;> rw [hk] at hraw
  · cases hraw
  cases hraw
  exact ⟨⟨name, rfl, isTrimmedText_of_cleanText hn⟩, ⟨fields, rfl, normalised_of_nameList hf⟩,
    ⟨kind, rfl⟩, ⟨options, rfl, normalised_of_nameList ho⟩⟩

theorem ConstraintSpec.tidy_of_ofParams {params : Params} {spec : ConstraintSpec}
    (h : ConstraintSpec.ofParams params = .ok spec) : spec.Tidy := by
  obtain ⟨raw, hraw⟩ := exists_tidy_of_specOf h
  simp only [ConstraintSpec.tidy, bind, Except.bind] at hraw
  rcases hn : cleanText "constraint name" raw.name with e | name <;> rw [hn] at hraw
  · cases hraw
  rcases hf : nameList raw.fields with e | fields <;> rw [hf] at hraw
  · cases hraw
  rcases hr : nameList raw.referenceFields with e | referenceFields <;> rw [hr] at hraw
  · cases hraw
  rcases ho : nameList raw.options with e | options <;> rw [ho] at hraw
  · cases hraw
  rcases hk : ConstraintSpec.readKind raw.kind with e | kind <;> rw [hk] at hraw
  · cases hraw
  cases hraw
  refine ⟨⟨name, rfl, isTrimmedText_of_cleanText hn⟩, ?_, ⟨fields, rfl, normalised_of_nameList hf⟩,
    ⟨referenceFields, rfl, normalised_of_nameList hr⟩, ⟨options, rfl, normalised_of_nameList ho⟩⟩
  rcases kind with _ | k
  · exact Or.inl rfl
  · exact Or.inr ⟨k, rfl⟩

/-! ### Constraints with untidy names -/

/-- A constraint whose name is any text, and which is tidy otherwise. -/
structure ConstraintSpec.NearlyTidy (spec : ConstraintSpec) : Prop where
  name : IsText spec.name
  kind : spec.kind = .null ∨ ∃ k, spec.kind = .constraintKind k
  fields : IsNameList spec.fields
  referenceFields : IsNameList spec.referenceFields
  options : IsNameList spec.options

theorem ConstraintSpec.Tidy.nearly {spec : ConstraintSpec} (h : spec.Tidy) : spec.NearlyTidy :=
  ⟨h.name.isText, h.kind, h.fields, h.referenceFields, h.options⟩

/-- A text without the blanks around it. -/
def Value.trimmed : Value → Value
  | .text s => .text (Text.trim s)
  | v => v

theorem IsTrimmedText.trimmed_eq {v : Value} (h : IsTrimmedText v) : v.trimmed = v := by
  obtain ⟨s, rfl, hs⟩ := h
  exact congrArg Value.text hs

/-- The constraint with its name trimmed. -/
def ConstraintSpec.trimmed (spec : ConstraintSpec) : ConstraintSpec :=
  { spec with name := spec.name.trimmed }

theorem ConstraintSpec.trimmed_eq {spec : ConstraintSpec} (h : IsTrimmedText spec.name) :
    spec.trimmed = spec := by
  rw [ConstraintSpec.trimmed, h.trimmed_eq]

theorem FieldSpec.tidy_default : FieldSpec.Tidy {} :=
  ⟨⟨"", rfl, trimmed_empty⟩, ⟨"", rfl, trimmed_empty⟩, ⟨[], rfl⟩⟩

theorem IndexSpec.tidy_default : IndexSpec.Tidy {} :=
  ⟨⟨"", rfl, trimmed_empty⟩, ⟨[], rfl, normalised_nil⟩, ⟨.normal, rfl⟩, ⟨[], rfl, normalised_nil⟩⟩

theorem ConstraintSpec.tidy_default : ConstraintSpec.Tidy {} :=
  ⟨⟨"", rfl, trimmed_empty⟩, Or.inl rfl, ⟨[], rfl, normalised_nil⟩, ⟨[], rfl, normalised_nil⟩,
    ⟨[], rfl, normalised_nil⟩⟩

end DbSchema
