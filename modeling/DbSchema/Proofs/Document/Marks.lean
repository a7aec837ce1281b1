import DbSchema.Proofs.Document.Definitions
import DbSchema.Proofs.Document.NormalForm

/-!
# Reading looks past marks

The marks in a document tell which places hold one and the same collection.  No reader looks at
them: a document that differs from another one in its marks only is read as the same outline, up to
the marks in the values that are kept as they are.

## Main definitions

* `Value.equalBare v w` — the values are equal but for their marks, as a test.
* `FieldSpec.bare`, `IndexSpec.bare`, `ConstraintSpec.bare`, `TableOutline.bare`,
  `SchemaOutline.bare` — descriptions and outlines without marks.

## Main results

* `FieldSpec.ofParams_bare` and its like — parameters without marks make descriptions without them.
* `ReadAs.of_bare`, `Describes.of_bare`, `DescribesSchema.of_bare` — a document with other marks
  describes an outline with other marks.
-/

namespace DbSchema

/-! ### Values -/

namespace Value

theorem bareEntries_eq_map (entries : List (Value × Value)) :
    bareEntries entries = entries.map fun e => (e.1.bare, e.2.bare) := by
  induction entries with
  | nil => rfl
  | cons e r ih => rw [bareEntries, ih, List.map_cons]

theorem bare_ofInts (ints : List Int) : (ofInts ints).bare = .ofInts ints := by
  rw [ofInts, bare_ofList, List.map_map]
  rfl

variable (v : Value)

@[simp] theorem truthy_bare : v.bare.truthy = v.truthy := by
  cases v <;> simp [bare, truthy, bareAll_eq_map, bareEntries_eq_map]

@[simp] theorem asText?_bare : v.bare.asText? = v.asText? := by
  cases v <;> rfl

@[simp] theorem bare_same_null : v.bare.same .null = v.same .null := by
  cases v <;> simp [bare, same, sameNumber, asInt?]

variable {v}

theorem bare_eq_text_iff {s : String} : v.bare = .text s ↔ v = .text s := by
  cases v <;> simp [bare]

/-- What is a mapping without marks was one with marks. -/
theorem exists_of_bare_eq_map {entries : List (Value × Value)} {m : Mark}
    (h : v.bare = (map entries m).bare) :
    ∃ entries' m', v = .map entries' m' ∧ bareEntries entries' = bareEntries entries := by
  cases v <;> simp only [bare, reduceCtorEq, map.injEq, and_true] at h
  exact ⟨_, _, rfl, h⟩

mutual

theorem hashable_bare (v : Value) : v.bare.hashable = v.hashable := by
  cases v with
  | tuple items m => rw [bare, hashable, hashable, hashableAll_bareAll]
  | object r => rfl
  | _ => rfl

theorem hashableAll_bareAll (vs : List Value) : hashableAll (bareAll vs) = hashableAll vs := by
  cases vs with
  | nil => rfl
  | cons v r => rw [bareAll, hashableAll, hashableAll, hashable_bare, hashableAll_bareAll]

end

mutual

@[simp] theorem bare_bare (v : Value) : v.bare.bare = v.bare := by
  cases v with
  | list items m | tuple items m | set items m => rw [bare, bare, bareAll_bareAll]
  | map entries m => rw [bare, bare, bareEntries_bareEntries]
  | _ => rfl

theorem bareAll_bareAll (vs : List Value) : bareAll (bareAll vs) = bareAll vs := by
  cases vs with
  | nil => rfl
  | cons v r => rw [bareAll, bareAll, bare_bare, bareAll_bareAll]

theorem bareEntries_bareEntries (entries : List (Value × Value)) :
    bareEntries (bareEntries entries) = bareEntries entries := by
  cases entries with
  | nil => rfl
  | cons e r => rw [bareEntries, bareEntries, bare_bare e.1, bare_bare e.2, bareEntries_bareEntries]

end

/-- Comparing with a text looks past marks. -/
theorem same_bare_of_isText {v w : Value} (h : IsText v) : v.same w.bare = v.same w := by
  obtain ⟨s, rfl⟩ := h
  cases w <;> simp [bare, same, sameNumber, asInt?]

/-! ### Deciding equality but for marks -/

mutual

/-- Whether two values are equal but for their marks. -/
def equalBare : Value → Value → Bool
  | .null, .null => true
  | .bool b, .bool c => b == c
  | .int i, .int j => i == j
  | .float x, .float y => decide (x = y)
  | .text s, .text t => s == t
  | .bytes bs, .bytes cs => decide (bs = cs)
  | .date d _, .date e _ => decide (d = e)
  | .datetime t _, .datetime u _ => decide (t = u)
  | .indexKind k, .indexKind l => decide (k = l)
  | .constraintKind k, .constraintKind l => decide (k = l)
  | .list xs _, .list ys _ => equalBareAll xs ys
  | .tuple xs _, .tuple ys _ => equalBareAll xs ys
  | .set xs _, .set ys _ => equalBareAll xs ys
  | .map xs _, .map ys _ => equalBareEntries xs ys
  | .object r, .object s => decide (r = s)
  | _, _ => false

/-- Whether this holds of the values of two lists. -/
def equalBareAll : List Value → List Value → Bool
  | [], [] => true
  | x :: xs, y :: ys => equalBare x y && equalBareAll xs ys
  | _, _ => false

/-- Whether this holds of the entries of two mappings. -/
def equalBareEntries : List (Value × Value) → List (Value × Value) → Bool
  | [], [] => true
  | (k, v) :: xs, (l, w) :: ys => equalBare k l && equalBare v w && equalBareEntries xs ys
  | _, _ => false

end

mutual

theorem equalBare_iff (v w : Value) : v.equalBare w ↔ v.bare = w.bare := by
  cases v with
  | list xs m | tuple xs m | set xs m =>
    cases w <;> simp only [equalBare, bare, list.injEq, tuple.injEq, set.injEq, and_true,
      reduceCtorEq, Bool.false_eq_true, equalBareAll_iff xs]
  | map xs m =>
    cases w <;> simp only [equalBare, bare, map.injEq, and_true, reduceCtorEq, Bool.false_eq_true,
      equalBareEntries_iff xs]
  | _ => cases w <;> simp [equalBare, bare]

theorem equalBareAll_iff (vs ws : List Value) :
    equalBareAll vs ws ↔ bareAll vs = bareAll ws := by
  cases vs with
  | nil => cases ws <;> simp [equalBareAll, bareAll]
  | cons v vs =>
    cases ws with
    | nil => simp [equalBareAll, bareAll]
    | cons w ws =>
      rw [equalBareAll, Bool.and_eq_true, equalBare_iff v w, equalBareAll_iff vs ws, bareAll,
        bareAll, List.cons.injEq]

theorem equalBareEntries_iff (vs ws : List (Value × Value)) :
    equalBareEntries vs ws ↔ bareEntries vs = bareEntries ws := by
  cases vs with
  | nil => cases ws <;> simp [equalBareEntries, bareEntries]
  | cons v vs =>
    obtain ⟨k, v⟩ := v
    cases ws with
    | nil => simp [equalBareEntries, bareEntries]
    | cons w ws =>
      obtain ⟨l, w⟩ := w
      rw [equalBareEntries, Bool.and_eq_true, Bool.and_eq_true, equalBare_iff k l,
        equalBare_iff v w, equalBareEntries_iff vs ws, bareEntries, bareEntries, List.cons.injEq,
        Prod.mk.injEq]

end

instance (v w : Value) : Decidable (v.bare = w.bare) := decidable_of_iff _ (equalBare_iff v w)

end Value

/-! ### What is given or refused -/

section

variable {ε α β : Type}

theorem toOption_eq_some_iff {e : Except ε α} {a : α} : e.toOption = some a ↔ e = .ok a := by
  cases e <;> simp [Except.toOption]

@[simp] theorem toOption_pure (a : α) : (pure a : Except ε α).toOption = some a := rfl

@[simp] theorem toOption_throw (e : ε) : (throw e : Except ε α).toOption = none := rfl

@[simp] theorem toOption_bind (e : Except ε α) (f : α → Except ε β) :
    (e >>= f).toOption = e.toOption.bind fun a => (f a).toOption := by
  cases e <;> rfl

@[simp] theorem toOption_map (f : α → β) (e : Except ε α) :
    (e.map f).toOption = e.toOption.map f := by
  cases e <;> rfl

variable {κ : Type} {f : κ → Except ε α} {strip : κ → κ} {bare : α → α} {x x' : κ} {a : α}

/-- If stripping an argument strips what is given, then what is given differs in marks only when the
arguments do. -/
theorem exists_ok_of_bare (hf : ∀ y, (f (strip y)).toOption = (f y).toOption.map bare)
    (hx : strip x' = strip x) (h : f x = .ok a) : ∃ a', f x' = .ok a' ∧ bare a' = bare a := by
  have hmap : (f x').toOption.map bare = some (bare a) := by
    rw [← hf, hx, hf, h]
    rfl
  obtain ⟨a', ha', heq⟩ := Option.map_eq_some_iff.mp hmap
  exact ⟨a', toOption_eq_some_iff.mp ha', heq⟩

/-- If stripping an argument makes no difference, then marks make none. -/
theorem ok_of_bare (hf : ∀ y, (f (strip y)).toOption = (f y).toOption) (hx : strip x' = strip x)
    (h : f x = .ok a) : f x' = .ok a := by
  rw [← toOption_eq_some_iff] at h ⊢
  rw [← hf, hx, hf, h]

end

/-! ### Attributes -/

@[simp] theorem toOption_cleanText_bare (what : String) (v : Value) :
    (cleanText what v.bare).toOption = (cleanText what v).toOption := by
  cases v <;> rfl

theorem toOption_textsOf_bare (vs : List Value) :
    (textsOf (vs.map Value.bare)).toOption = (textsOf vs).toOption := by
  induction vs with
  | nil => rfl
  | cons v r ih =>
    cases v with
    | text s => simp only [List.map_cons, Value.bare_text, textsOf, toOption_map, ih]
    | _ => rfl

theorem toOption_namesOf_bare (v : Value) : (namesOf v.bare).toOption = (namesOf v).toOption := by
  cases v with
  | list items m | tuple items m =>
    simp only [Value.bare, Value.bareAll_eq_map, namesOf, toOption_textsOf_bare]
  | _ => rfl

theorem toOption_splitNames_bare (v : Value) :
    (splitNames [v.bare]).toOption = (splitNames [v]).toOption := by
  simp only [splitNames, gatherNames, toOption_map, toOption_bind, toOption_namesOf_bare]

@[simp] theorem toOption_nameList_bare (v : Value) :
    (nameList v.bare).toOption = (nameList v).toOption := by
  have hlist : ∀ w, (nameList w).toOption = (splitNames [w]).toOption := fun w => by
    rw [nameList]
    cases splitNames [w] <;> rfl
  rw [hlist, hlist, toOption_splitNames_bare]

theorem toOption_toInteger_bare (v : Value) :
    v.bare.toInteger.toOption = v.toInteger.toOption := by
  cases v <;> rfl

theorem toOption_sizeParts_cons (whole v : Value) (r : List Value) :
    (sizeParts whole (v :: r)).toOption =
      v.toInteger.toOption.bind fun i => (sizeParts whole r).toOption.map (i :: ·) := by
  rw [sizeParts]
  rcases v.toInteger with f | i
  · cases f <;> rfl
  · cases sizeParts whole r <;> rfl

/-- The whole size is named in errors only. -/
theorem toOption_sizeParts_bare (whole whole' : Value) (vs : List Value) :
    (sizeParts whole (vs.map Value.bare)).toOption = (sizeParts whole' vs).toOption := by
  induction vs with
  | nil => rfl
  | cons v r ih =>
    rw [List.map_cons, toOption_sizeParts_cons, toOption_sizeParts_cons, toOption_toInteger_bare,
      ih]

@[simp] theorem toOption_parseSize_bare (v : Value) :
    (parseSize v.bare).toOption = (parseSize v).toOption := by
  cases v with
  | list items m | tuple items m =>
    simp only [Value.bare, Value.bareAll_eq_map, parseSize]
    exact toOption_sizeParts_bare _ _ items
  | _ => rfl

@[simp] theorem IndexKind.ofValue?_bare (v : Value) :
    IndexKind.ofValue? v.bare = IndexKind.ofValue? v := by
  cases v <;> rfl

@[simp] theorem ConstraintSpec.toOption_readKind_bare (v : Value) :
    (readKind v.bare).toOption = (readKind v).toOption := by
  cases v <;> rfl

/-! ### Descriptions -/

/-- Parameters without marks. -/
def bareParams (ps : Params) : Params := ps.map fun p => (p.1, p.2.bare)

/-- Parameters without marks are filled into a description without marks. -/
theorem fillParams_bare {σ : Type} {fill : σ → String → Value → Option σ} {bare : σ → σ}
    (h : ∀ spec name v, fill (bare spec) name v.bare = (fill spec name v).map bare) (spec : σ)
    (ps : Params) : fillParams fill (bare spec) (bareParams ps) =
      (fillParams fill spec ps).map bare := by
  induction ps generalizing spec with
  | nil => rfl
  | cons p r ih =>
    obtain ⟨name, v⟩ := p
    rw [bareParams, List.map_cons, fillParams, fillParams, h]
    rcases fill spec name v with _ | spec'
    · rfl
    · exact ih spec'

/-- So they make the description that they make with marks, but for these. -/
theorem toOption_specOf_bare {σ : Type} {fill : σ → String → Value → Option σ}
    {tidy : σ → Except ModelError σ} {bare : σ → σ} {default : σ}
    (hfill : ∀ spec name v, fill (bare spec) name v.bare = (fill spec name v).map bare)
    (htidy : ∀ spec, (tidy (bare spec)).toOption = (tidy spec).toOption.map bare)
    (hdefault : bare default = default) (ps : Params) :
    (specOf fill tidy default (bareParams ps)).toOption =
      (specOf fill tidy default ps).toOption.map bare := by
  have h := fillParams_bare hfill default ps
  rw [hdefault] at h
  rw [specOf, specOf, h]
  rcases fillParams fill default ps with _ | spec
  · rfl
  · exact htidy spec

/-- A field without marks. -/
def FieldSpec.bare (x : FieldSpec) : FieldSpec where
  name := x.name.bare
  dataType := x.dataType.bare
  size := x.size.bare
  nullable := x.nullable.bare
  default := x.default.bare
  autoIncrement := x.autoIncrement.bare
  comments := x.comments.bare
  extra := x.extra.bare

/-- An index without marks. -/
def IndexSpec.bare (x : IndexSpec) : IndexSpec where
  name := x.name.bare
  fields := x.fields.bare
  kind := x.kind.bare
  options := x.options.bare

/-- A constraint without marks. -/
def ConstraintSpec.bare (x : ConstraintSpec) : ConstraintSpec where
  name := x.name.bare
  kind := x.kind.bare
  fields := x.fields.bare
  referenceTable := x.referenceTable.bare
  referenceFields := x.referenceFields.bare
  expression := x.expression.bare
  onDelete := x.onDelete.bare
  onUpdate := x.onUpdate.bare
  matchType := x.matchType.bare
  deferrable := x.deferrable.bare
  options := x.options.bare

theorem FieldSpec.fill_bare (x : FieldSpec) (name : String) (v : Value) :
    fill x.bare name v.bare = (fill x name v).map bare := by
  unfold fill
  split <;> rfl

theorem IndexSpec.fill_bare (x : IndexSpec) (name : String) (v : Value) :
    fill x.bare name v.bare = (fill x name v).map bare := by
  unfold fill
  split <;> rfl

theorem ConstraintSpec.fill_bare (x : ConstraintSpec) (name : String) (v : Value) :
    fill x.bare name v.bare = (fill x name v).map bare := by
  unfold fill
  split <;> rfl

theorem FieldSpec.tidy_bare (x : FieldSpec) :
    (tidy x.bare).toOption = (tidy x).toOption.map bare := by
  simp only [tidy, toOption_bind, toOption_pure, FieldSpec.bare, toOption_cleanText_bare,
    toOption_parseSize_bare, Option.map_bind, Function.comp_def, Option.map_some, Value.bare_text,
    Value.bare_ofInts]

theorem IndexSpec.tidy_bare (x : IndexSpec) :
    (tidy x.bare).toOption = (tidy x).toOption.map bare := by
  rcases hkind : IndexKind.ofValue? x.kind with _ | kind <;>
    simp only [tidy, toOption_bind, toOption_pure, toOption_throw, IndexSpec.bare,
      toOption_cleanText_bare, toOption_nameList_bare, Option.map_bind, Function.comp_def,
      Option.map_some, Option.map_none, IndexKind.ofValue?_bare, hkind, Value.bare_text,
      Value.bare_ofTexts]
  rfl

theorem ConstraintSpec.tidy_bare (x : ConstraintSpec) :
    (tidy x.bare).toOption = (tidy x).toOption.map bare := by
  have hkind : ∀ kind : Option ConstraintKind,
      (kind.elim Value.null Value.constraintKind).bare = kind.elim .null .constraintKind := by
    rintro (_ | k) <;> rfl
  simp only [tidy, toOption_bind, toOption_pure, ConstraintSpec.bare, toOption_cleanText_bare,
    toOption_nameList_bare, toOption_readKind_bare, Option.map_bind, Function.comp_def,
    Option.map_some, Value.bare_text, Value.bare_ofTexts, hkind]

theorem FieldSpec.ofParams_bare (ps : Params) :
    (ofParams (bareParams ps)).toOption = (ofParams ps).toOption.map bare :=
  toOption_specOf_bare fill_bare tidy_bare rfl ps

theorem IndexSpec.ofParams_bare (ps : Params) :
    (ofParams (bareParams ps)).toOption = (ofParams ps).toOption.map bare :=
  toOption_specOf_bare fill_bare tidy_bare rfl ps

theorem ConstraintSpec.ofParams_bare (ps : Params) :
    (ofParams (bareParams ps)).toOption = (ofParams ps).toOption.map bare :=
  toOption_specOf_bare fill_bare tidy_bare rfl ps

/-! ### Definitions -/

variable {entries entries' : List (Value × Value)} {part : Part}

theorem entry?_bareEntries (key : String) (entries : List (Value × Value)) :
    Value.entry? key (Value.bareEntries entries) = (Value.entry? key entries).map Value.bare := by
  rw [Value.bareEntries_eq_map, Value.entry?, Value.entry?, List.find?_map, Option.map_map,
    Option.map_map]
  simp only [Function.comp_def, Value.asText?_bare]

theorem valueAt_bareEntries (key : String) (entries : List (Value × Value)) :
    valueAt key (Value.bareEntries entries) = (valueAt key entries).bare := by
  rw [valueAt, valueAt, entry?_bareEntries]
  cases Value.entry? key entries <;> rfl

theorem checkKeys_bareEntries :
    checkKeys part (Value.bareEntries entries) = .ok () ↔ checkKeys part entries = .ok () := by
  rw [checkKeys_ok_iff, checkKeys_ok_iff, Value.bareEntries_eq_map]
  simp only [List.forall_mem_map, Value.bare_eq_text_iff]

theorem toOption_partEntries_bare (part : Part) (v : Value) :
    (partEntries part v.bare).toOption = (partEntries part v).toOption.map Value.bareEntries := by
  cases v with
  | map entries m =>
    have hkeys : checkKeys part (Value.bareEntries entries) = .ok () ↔
        checkKeys part entries = .ok () := checkKeys_bareEntries
    rw [Value.bare, partEntries, partEntries]
    rcases h : checkKeys part entries with e | ⟨⟩ <;>
      rcases h' : checkKeys part (Value.bareEntries entries) with e' | ⟨⟩ <;> rw [h, h'] at hkeys
    · rfl
    · cases hkeys.mp rfl
    · cases hkeys.mpr rfl
    · rfl
  | _ => rfl

theorem toOption_sectionItems_bare (key : String) (entries : List (Value × Value)) :
    (sectionItems key (Value.bareEntries entries)).toOption =
      (sectionItems key entries).toOption.map (List.map Value.bare) := by
  rw [sectionItems, sectionItems, valueAt_bareEntries, Value.truthy_bare]
  split
  · rfl
  · rcases valueAt key entries <;> simp [Value.bare, Value.bareAll_eq_map, Except.toOption]

theorem toOption_tableName_bare (entries : List (Value × Value)) :
    (tableName (Value.bareEntries entries)).toOption = (tableName entries).toOption := by
  rw [tableName, tableName, valueAt_bareEntries, Value.truthy_bare]
  split
  · rfl
  · rcases valueAt "table" entries <;> rfl

theorem toOption_decodeHead_bare (entries : List (Value × Value)) :
    (decodeHead (Value.bareEntries entries)).toOption =
      (decodeHead entries).toOption.map fun p => (p.1.bare, p.2.bare) := by
  rw [decodeHead, decodeHead, valueAt_bareEntries, Value.truthy_bare]
  split
  · rfl
  · generalize valueAt "schema" entries = v
    cases v with
    | map head m =>
      -- a name or a database that is missing is empty text, which has no marks
      have hget : ∀ key, (Value.entry? key (Value.bareEntries head)).getD (.text "") =
          ((Value.entry? key head).getD (.text "")).bare := fun key => by
        rw [entry?_bareEntries]
        cases Value.entry? key head <;> rfl
      simp only [Value.bare, hget]
      rfl
    | _ => rfl

theorem paramsOf_bareEntries (rename : String → String) (entries : List (Value × Value)) :
    paramsOf rename (Value.bareEntries entries) = bareParams (paramsOf rename entries) := by
  rw [Value.bareEntries_eq_map, paramsOf, paramsOf, bareParams, List.filterMap_map,
    List.map_filterMap]
  congr 1
  funext e
  simp only [Function.comp_apply, Value.asText?_bare]
  cases e.1.asText? <;> rfl

@[simp] theorem toOption_childParams_bare (part : Part) (v : Value) :
    (childParams part v.bare).toOption = (childParams part v).toOption.map bareParams := by
  simp only [childParams, toOption_bind, toOption_pure, toOption_partEntries_bare,
    paramsOf_bareEntries, Option.map_bind, Option.bind_map, Function.comp_def, Option.map_some]

@[simp] theorem toOption_fieldParams_bare (v : Value) :
    (fieldParams v.bare).toOption = (fieldParams v).toOption.map bareParams := by
  simp only [fieldParams, toOption_bind, toOption_partEntries_bare, paramsOf_bareEntries,
    valueAt_bareEntries, Value.truthy_bare, Option.map_bind, Option.bind_map, Function.comp_def]
  refine congrArg _ (funext fun entries => ?_)
  split <;> rfl

/-- A value that differs from another in its marks is read as a description that does so too. -/
theorem ReadAs.of_bare {σ : Type} {params : Value → Except LoadError Params}
    {ofParams : Params → Except ModelError σ} {bare : σ → σ}
    (hparams : ∀ v, (params v.bare).toOption = (params v).toOption.map bareParams)
    (hof : ∀ ps, (ofParams (bareParams ps)).toOption = (ofParams ps).toOption.map bare)
    {v w : Value} {spec : σ} (h : ReadAs params ofParams v spec) (hw : w.bare = v.bare) :
    ∃ spec', ReadAs params ofParams w spec' ∧ bare spec' = bare spec := by
  obtain ⟨ps, hps, hspec⟩ := h
  obtain ⟨qs, hqs, hbare⟩ := exists_ok_of_bare hparams hw hps
  obtain ⟨spec', hread, heq⟩ := exists_ok_of_bare hof hbare hspec
  exact ⟨spec', ⟨qs, hqs, hread⟩, heq⟩

/-- So is every value of a list. -/
theorem exists_forall₂_of_bare {σ : Type} {R : Value → σ → Prop} {bare : σ → σ}
    (hR : ∀ {v w spec}, R v spec → w.bare = v.bare → ∃ spec', R w spec' ∧ bare spec' = bare spec)
    {vs ws : List Value} {specs : List σ} (h : List.Forall₂ R vs specs)
    (hw : ws.map Value.bare = vs.map Value.bare) :
    ∃ specs', List.Forall₂ R ws specs' ∧ specs'.map bare = specs.map bare := by
  induction h generalizing ws with
  | nil =>
    rw [List.map_nil, List.map_eq_nil_iff] at hw
    exact ⟨[], hw ▸ .nil, rfl⟩
  | @cons v spec vs specs hv _ ih =>
    obtain ⟨w, ws, rfl, hwv, hws⟩ := List.map_eq_cons_iff.mp hw
    obtain ⟨spec', hspec, hbare⟩ := hR hv hwv
    obtain ⟨specs', hall, hbares⟩ := ih hws
    exact ⟨spec' :: specs', .cons hspec hall, by rw [List.map_cons, List.map_cons, hbare, hbares]⟩

/-! ### Tables -/

/-- The outline of a table without marks. -/
def TableOutline.bare (o : TableOutline) : TableOutline :=
  { o with
    name := o.name.bare
    fields := o.fields.map FieldSpec.bare
    indices := o.indices.map IndexSpec.bare
    constraints := o.constraints.map ConstraintSpec.bare }

/-- What is written for a field is without marks. -/
theorem FieldSpec.document_bare (x : FieldSpec) : x.bare.document = x.document := by
  simp only [document, bare, Value.bare_bare, Value.truthy_bare, Value.bare_same_null]

theorem IndexSpec.document_bare (x : IndexSpec) : x.bare.document = x.document := by
  simp only [document, bare, Value.bare_bare, Value.truthy_bare]
  rcases x.kind <;> rfl

theorem ConstraintSpec.document_bare (x : ConstraintSpec) : x.bare.document = x.document := by
  simp only [document, bare, Value.bare_bare, Value.truthy_bare]
  rcases x.kind <;> rfl

/-- What is written for a table is without marks. -/
theorem TableOutline.document_bare (o : TableOutline) : o.bare.document = o.document := by
  simp only [document, bare, Value.bare_bare, List.isEmpty_map, List.map_map, Function.comp_def,
    FieldSpec.document_bare, IndexSpec.document_bare, ConstraintSpec.document_bare]

/-- A section of entries with other marks holds items that are read with other marks. -/
theorem exists_section_of_bare {σ : Type} {R : Value → σ → Prop} {bare : σ → σ}
    (hR : ∀ {v w spec}, R v spec → w.bare = v.bare → ∃ spec', R w spec' ∧ bare spec' = bare spec)
    {key : String} {specs : List σ}
    (h : ∃ vs, sectionItems key entries = .ok vs ∧ List.Forall₂ R vs specs)
    (hbare : Value.bareEntries entries' = Value.bareEntries entries) :
    ∃ specs', (∃ ws, sectionItems key entries' = .ok ws ∧ List.Forall₂ R ws specs') ∧
      specs'.map bare = specs.map bare := by
  obtain ⟨vs, hvs, hall⟩ := h
  obtain ⟨ws, hws, hmap⟩ := exists_ok_of_bare (toOption_sectionItems_bare key) hbare hvs
  obtain ⟨specs', hall', heq⟩ := exists_forall₂_of_bare hR hall hmap
  exact ⟨specs', ⟨ws, hws, hall'⟩, heq⟩

theorem EntriesDescribe.of_bare {o : TableOutline} (h : EntriesDescribe entries o)
    (hbare : Value.bareEntries entries' = Value.bareEntries entries) :
    ∃ o' : TableOutline, EntriesDescribe entries' o' ∧ o'.name = o.name ∧ o'.bare = o.bare := by
  obtain ⟨fields, hfields, hf⟩ := exists_section_of_bare
    (ReadAs.of_bare toOption_fieldParams_bare FieldSpec.ofParams_bare) h.fields hbare
  obtain ⟨indices, hindices, hi⟩ := exists_section_of_bare
    (ReadAs.of_bare (toOption_childParams_bare .index) IndexSpec.ofParams_bare) h.indices hbare
  obtain ⟨constraints, hconstraints, hc⟩ := exists_section_of_bare
    (ReadAs.of_bare (toOption_childParams_bare .constraint) ConstraintSpec.ofParams_bare)
    h.constraints hbare
  have hvalue : (valueAt "options" entries').bare = (valueAt "options" entries).bare := by
    rw [← valueAt_bareEntries, hbare, valueAt_bareEntries]
  have hoptions := h.options
  rw [← Value.truthy_bare, ← hvalue, Value.truthy_bare] at hoptions
  refine ⟨{ o with fields, indices, constraints }, ⟨hfields, hindices, hconstraints, ?_⟩, rfl, ?_⟩
  · split
    · next htruthy =>
      rw [if_pos htruthy] at hoptions
      exact ok_of_bare (f := fun v => splitNames [v]) toOption_splitNames_bare hvalue hoptions
    · next hfalse => rwa [if_neg hfalse] at hoptions
  · simp only [TableOutline.bare, hf, hi, hc]

/-- **A table definition with other marks** describes an outline with other marks. -/
theorem Describes.of_bare {v w : Value} {o : TableOutline} (h : Describes v o)
    (hw : w.bare = v.bare) : ∃ o', Describes w o' ∧ o'.bare = o.bare := by
  obtain ⟨entries, name, hentries, htext, hname, hdescribe⟩ := h
  obtain ⟨entries', hread, hbare⟩ :=
    exists_ok_of_bare (toOption_partEntries_bare .table) hw hentries
  obtain ⟨o', hdescribe', hname', heq⟩ := hdescribe.of_bare hbare
  exact ⟨o', ⟨entries', name, hread, ok_of_bare toOption_tableName_bare hbare htext,
    hname'.trans hname, hdescribe'⟩, heq⟩

/-! ### Documents -/

/-- The outline of a schema without marks. -/
def SchemaOutline.bare (o : SchemaOutline) : SchemaOutline where
  name := o.name.bare
  database := o.database.bare
  tables := o.tables.map TableOutline.bare

/-- **A document with other marks** describes an outline with other marks. -/
theorem DescribesSchema.of_bare {v w : Value} {o : SchemaOutline} (h : DescribesSchema v o)
    (hw : w.bare = v.bare) : ∃ o', DescribesSchema w o' ∧ o'.bare = o.bare := by
  cases h with
  | @single entries m t hnone h =>
    obtain ⟨entries', m', rfl, hbare⟩ := Value.exists_of_bare_eq_map hw
    obtain ⟨t', ht', heq⟩ := h.of_bare (w := .map entries' .own)
      (by rw [Value.bare, Value.bare, hbare])
    refine ⟨_, .single ?_ ht', by simp only [SchemaOutline.bare, List.map_cons, List.map_nil, heq]⟩
    rw [← Option.map_eq_none_iff (f := Value.bare), ← entry?_bareEntries, hbare,
      entry?_bareEntries, hnone]
    rfl
  | @listed entries m o vs hsome hkeys hhead hitems h =>
    obtain ⟨entries', m', rfl, hbare⟩ := Value.exists_of_bare_eq_map hw
    obtain ⟨ws, hws, hmap⟩ := exists_ok_of_bare (toOption_sectionItems_bare "tables") hbare hitems
    obtain ⟨tables, htables, heq⟩ := exists_forall₂_of_bare Describes.of_bare h hmap
    obtain ⟨⟨name, database⟩, hread, hnames⟩ :=
      exists_ok_of_bare toOption_decodeHead_bare hbare hhead
    obtain ⟨hname, hdatabase⟩ := Prod.ext_iff.mp hnames
    refine ⟨⟨name, database, tables⟩, .listed ?_ ?_ hread hws htables, ?_⟩
    · rw [← Option.isSome_map (f := Value.bare), ← entry?_bareEntries, hbare, entry?_bareEntries,
        Option.isSome_map]
      exact hsome
    · rw [← checkKeys_bareEntries, hbare, checkKeys_bareEntries]
      exact hkeys
    · simp only [SchemaOutline.bare, heq]
      exact congrArg₂ (fun name database => SchemaOutline.mk name database _) hname hdatabase

/-! ### Outlines that can be built -/

theorem IsText.bare_eq {v : Value} (h : IsText v) : v.bare = v := by
  obtain ⟨s, rfl⟩ := h
  rfl

theorem IsNameList.bare_eq {v : Value} (h : IsNameList v) : v.bare = v := by
  obtain ⟨names, rfl, -⟩ := h
  exact Value.bare_ofTexts names

/-- What has no marks is the same in lists that differ in marks only. -/
theorem map_eq_of_bare_eq {σ β : Type} {bare : σ → σ} {f : σ → β} {l l' : List σ}
    (h : ∀ x ∈ l, f (bare x) = f x) (h' : ∀ x ∈ l', f (bare x) = f x)
    (heq : l'.map bare = l.map bare) : l'.map f = l.map f := by
  have hmap := congrArg (List.map f) heq
  rw [List.map_map, List.map_map] at hmap
  have hself : ∀ l : List σ, (∀ x ∈ l, f (bare x) = f x) → l.map (f ∘ bare) = l.map f :=
    fun l hl => List.map_congr_left fun x hx => hl x hx
  rwa [hself l' h', hself l h] at hmap

variable {o o' : TableOutline}

theorem TableOutline.Buildable.of_bare (h : o.Buildable) (ht : o.Tidy) (ht' : o'.Tidy)
    (heq : o'.bare = o.bare) : o'.Buildable := by
  have hnames : o'.fields.map (·.name) = o.fields.map (·.name) :=
    map_eq_of_bare_eq (fun x hx => (ht.field x hx).name.isText.bare_eq)
      (fun x hx => (ht'.field x hx).name.isText.bare_eq) (congrArg TableOutline.fields heq)
  have hnamed : ∀ n ∈ o'.fields.map (·.name), n.truthy := by
    rw [hnames]
    exact List.forall_mem_map.mpr h.named
  have hdistinct : (o'.fields.map (·.name)).Pairwise fun n n' => n.same n' = false := by
    rw [hnames]
    exact List.pairwise_map.mpr h.distinct
  exact ⟨List.forall_mem_map.mp hnamed, List.pairwise_map.mp hdistinct⟩

/-- An outline with other marks can be built as well. -/
theorem SchemaOutline.Buildable.of_bare {o o' : SchemaOutline} (h : o.Buildable)
    (ht : ∀ x ∈ o.tables, x.Tidy) (ht' : ∀ x ∈ o'.tables, x.Tidy) (heq : o'.bare = o.bare) :
    o'.Buildable := by
  have htables : o'.tables.map TableOutline.bare = o.tables.map TableOutline.bare :=
    congrArg SchemaOutline.tables heq
  have hnames : o'.tables.map (·.name) = o.tables.map (·.name) :=
    map_eq_of_bare_eq (fun x hx => (ht x hx).name.bare_eq) (fun x hx => (ht' x hx).name.bare_eq)
      htables
  constructor
  · intro x hx
    obtain ⟨y, hy, heq⟩ := List.mem_map.mp
      (htables ▸ List.mem_map_of_mem (f := TableOutline.bare) hx)
    exact (h.table y hy).of_bare (ht y hy) (ht' x hx) heq.symm
  · have hdistinct : (o'.tables.map (·.name)).Pairwise fun n n' => n.same n' = false := by
      rw [hnames]
      exact List.pairwise_map.mpr h.distinct
    exact List.pairwise_map.mp hdistinct

end DbSchema
