import DbSchema.Proofs.Model.Outline
import DbSchema.Proofs.Sizes
import DbSchema.Proofs.Values

/-!
# Describing and drafting

Descriptions in texts, integers and kinds are tidied by trimming their names.  A table that is being
built beside a store gets its primary key once; afterwards the key can be given a name, and a field
can be told to count up by itself.

## Main definitions

* `FieldSpec.countingUp` — the description of a field that may count up by itself.
* `Store.EndsWith st t c` — the last constraint of the table is `c`, which is not listed before.

## Main results

* `FieldSpec.tidy_of_texts`, `IndexSpec.tidy_of_texts`, `ConstraintSpec.tidy_of_texts` — tidying.
* `Drafts.primaryKey` — naming key columns of a table without a key adds one as the last constraint.
* `Drafts.onLast` — changing the last constraint.
* `Drafts.countUp` — letting a field count up by itself.
-/

namespace DbSchema

open Edit

/-! ### Tidying -/

theorem nameList_ofTexts (names : List String) :
    nameList (.ofTexts names) = .ok (normalizeNames names) := by
  rw [nameList, Value.ofTexts, Value.ofList, splitNames_texts]

theorem FieldSpec.tidy_of_texts (spec : FieldSpec) {name dataType : String} {size : List Int}
    (hname : spec.name = .text name) (htype : spec.dataType = .text dataType)
    (hsize : spec.size = .ofInts size) :
    spec.tidy =
      .ok { spec with name := .text (Text.trim name), dataType := .text (Text.trim dataType) } := by
  rw [tidy, hname, htype, hsize, parseSize_ofInts]
  rfl

theorem IndexSpec.tidy_of_texts (spec : IndexSpec) {name : String} {fields options : List String}
    {kind : IndexKind} (hname : spec.name = .text name) (hfields : spec.fields = .ofTexts fields)
    (hkind : spec.kind = .indexKind kind) (hoptions : spec.options = .ofTexts options) :
    spec.tidy = .ok { spec with
      name := .text (Text.trim name)
      fields := .ofTexts (normalizeNames fields)
      options := .ofTexts (normalizeNames options) } := by
  rw [tidy, hname, hfields, hkind, hoptions, nameList_ofTexts, nameList_ofTexts]
  rfl

theorem ConstraintSpec.tidy_of_texts (spec : ConstraintSpec) {name : String}
    {fields referenceFields options : List String} {kind : ConstraintKind}
    (hname : spec.name = .text name) (hfields : spec.fields = .ofTexts fields)
    (hreference : spec.referenceFields = .ofTexts referenceFields)
    (hkind : spec.kind = .constraintKind kind) (hoptions : spec.options = .ofTexts options) :
    spec.tidy = .ok { spec with
      name := .text (Text.trim name)
      fields := .ofTexts (normalizeNames fields)
      referenceFields := .ofTexts (normalizeNames referenceFields)
      options := .ofTexts (normalizeNames options) } := by
  rw [tidy, hname, hfields, hreference, hkind, hoptions, nameList_ofTexts, nameList_ofTexts,
    nameList_ofTexts]
  rfl

/-- The parameters of a column. -/
theorem FieldSpec.ofParams_column {name dataType : String} {size : List Int}
    {nullable default : Value} (h : Trimmed name) :
    ofParams
      [("name", .text name), ("data_type", .text dataType), ("size", .ofInts size),
        ("is_nullable", nullable), ("default_value", default)] =
      .ok { name := .text name, dataType := .text (Text.trim dataType), size := .ofInts size,
            nullable, default } := by
  have htidy := tidy_of_texts
    { name := .text name, dataType := .text dataType, size := .ofInts size, nullable, default }
    rfl rfl rfl
  rw [h] at htidy
  exact htidy

/-- The parameters of an index. -/
theorem IndexSpec.ofParams_texts (name : String) (kind : IndexKind) (fields : List String) :
    ofParams [("name", .text name), ("type", .indexKind kind), ("fields", .ofTexts fields)] =
      .ok { name := .text (Text.trim name), kind := .indexKind kind,
            fields := .ofTexts (normalizeNames fields) } :=
  tidy_of_texts { name := .text name, kind := .indexKind kind, fields := .ofTexts fields } rfl rfl
    rfl (show _ = Value.ofTexts [] from rfl)

/-- The parameters of an index whose name is trimmed. -/
theorem IndexSpec.ofParams_named {name : String} (h : Trimmed name) (kind : IndexKind)
    (fields : List String) :
    ofParams [("name", .text name), ("type", .indexKind kind), ("fields", .ofTexts fields)] =
      .ok { name := .text name, kind := .indexKind kind,
            fields := .ofTexts (normalizeNames fields) } := by
  rw [ofParams_texts, h]

/-- An index cannot be made over names that are not all texts. -/
theorem IndexSpec.ofParams_of_textsOf {fields : List Value} {reason : TypeReason}
    (h : textsOf fields = .error reason) (name : String) (kind : IndexKind) :
    ofParams [("name", .text name), ("type", .indexKind kind), ("fields", .ofList fields)] =
      .error (.wrongType reason) := by
  have hnames : nameList (.ofList fields) = .error (.wrongType reason) := by
    rw [nameList, Value.ofList, splitNames, gatherNames, namesOf, h]
    rfl
  change tidy { name := .text name, kind := .indexKind kind, fields := .ofList fields } = _
  rw [tidy, hnames]
  rfl

/-- The parameters of a check. -/
theorem ConstraintSpec.ofParams_check (name : String) (expression : Value) :
    ofParams [("name", .text name), ("type", .constraintKind .check), ("expression", expression)] =
      .ok { name := .text (Text.trim name), kind := .constraintKind .check, expression } :=
  tidy_of_texts { name := .text name, kind := .constraintKind .check, expression } rfl
    (show _ = Value.ofTexts [] from rfl) (show _ = Value.ofTexts [] from rfl) rfl
    (show _ = Value.ofTexts [] from rfl)

/-- The parameters of a unique constraint. -/
theorem ConstraintSpec.ofParams_unique {name : String} (h : Trimmed name)
    (fields : List String) :
    ofParams
      [("name", .text name), ("type", .constraintKind .unique), ("fields", .ofTexts fields)] =
      .ok { name := .text name, kind := .constraintKind .unique,
            fields := .ofTexts (normalizeNames fields) } := by
  have htidy := tidy_of_texts
    { name := .text name, kind := .constraintKind .unique, fields := .ofTexts fields } rfl rfl
    (show _ = Value.ofTexts [] from rfl) rfl (show _ = Value.ofTexts [] from rfl)
  rw [h] at htidy
  exact htidy

/-- The description of a field, which counts up by itself if it has the given name. -/
def FieldSpec.countingUp (name : String) (x : FieldSpec) : FieldSpec :=
  if (Value.text name).same x.name then { x with autoIncrement := .bool true } else x

/-! ### Making the table -/

variable {b st : Store} {t : TableId} {o : TableOutline}

/-- A new table with a text for its name has nothing but that name. -/
theorem drafts_newTable_text (h : b.Extends st) (name : String) :
    ∃ t st', outcome (newTable { name := .text name }) st = (.ok t, st') ∧
      Drafts b t { name := .text name } st' := by
  obtain ⟨t, st', ho, hbuild⟩ := building_newTable h (.text name)
  refine ⟨t, st', ho, hbuild, ?_, ?_⟩ <;> rw [outcome_newTable_alone] at ho <;> cases ho
  · refine .of_childless ?_ ?_ ?_ ?_ <;> rw [Store.table_setTable_self]
    exact normalised_nil
  · have hname : (if (Value.text name).truthy then Value.text name else .text "") = .text name := by
      by_cases hne : name = "" <;> simp [Value.truthy, hne]
    simp [Store.outline, hname]

/-! ### The primary key -/

/-- The last constraint of a table is `c`, and it is not listed before. -/
def Store.EndsWith (st : Store) (t : TableId) (c : ConstraintId) : Prop :=
  ∃ cs, (st.table t).constraints = cs ++ [c] ∧ c ∉ cs

namespace Edit

/-- Without a primary key among the constraints, none of them is extended. -/
theorem outcome_extendPrimaryKeys_of_none {cs : List ConstraintId} (names : List String)
    (h : ∀ c ∈ cs, isKey st c = false) :
    outcome (extendPrimaryKeys names cs) st = (.ok false, st) := by
  induction cs with
  | nil => rfl
  | cons c r ih =>
    have hc : ((st.constraint c).isOfKind .primaryKey) = false := h c List.mem_cons_self
    rw [extendPrimaryKeys, outcome_get_bind, hc]
    exact ih fun d hd => h d (List.mem_cons_of_mem c hd)

theorem checkNames_eq_ok {names : List Value}
    (h : ∀ v ∈ names, ∃ f, fieldNamed st t v = .ok f) : checkNames st t names = .ok () := by
  induction names with
  | nil => rfl
  | cons v r ih =>
    obtain ⟨f, hf⟩ := h v List.mem_cons_self
    rw [checkNames, hf]
    exact ih fun w hw => h w (List.mem_cons_of_mem v hw)

/-- The first primary key is the new one. -/
theorem primaryKeyOf_withKey (names : List String)
    (hold : ∀ c ∈ (st.table t).constraints, isKey st c = false ∧ c ≠ ⟨st.constraints.size⟩) :
    primaryKeyOf (withKey st t names) t = .ok ⟨st.constraints.size⟩ := by
  have hcs : ((withKey st t names).table t).constraints =
      (st.table t).constraints ++ [⟨st.constraints.size⟩] := by
    simp [withKey, withConstraint]
  have hnone : (st.table t).constraints.find? (fun c =>
      ((withKey st t names).constraint c).isOfKind .primaryKey) = none := by
    refine List.find?_eq_none.mpr fun c hc => ?_
    obtain ⟨hkey, hne⟩ := hold c hc
    have hsame : (withKey st t names).constraint c = st.constraint c := by
      rw [withKey, withConstraint, Store.constraint_setTable,
        Store.constraint_setConstraint_of_ne _ hne, Store.constraint_setConstraint_of_ne _ hne]
    rw [hsame]
    exact Bool.eq_false_iff.mp hkey
  have hnew : ((withKey st t names).constraint ⟨st.constraints.size⟩).isOfKind .primaryKey := by
    simp [withKey, withConstraint, Constraint.isOfKind, keySpec]
  rw [primaryKeyOf, firstPrimaryKey?, hcs, List.find?_append, hnone]
  simp [hnew]

theorem outcome_primaryKey_of_none {names : List String} (hn : Normalised names)
    (hne : names ≠ []) (hcheck : checkNames st t (names.map .text) = .ok ())
    (hold : ∀ c ∈ (st.table t).constraints, isKey st c = false ∧ c ≠ ⟨st.constraints.size⟩) :
    outcome (primaryKey t [.ofTexts names]) st =
      (.ok ⟨st.constraints.size⟩, withKey st t names) := by
  have hsplit : splitNames [.ofTexts names] = .ok names := by
    rw [Value.ofTexts, Value.ofList, splitNames_texts, normalizeNames_eq_self hn]
  rw [primaryKey, outcome_bind, outcome_names, hsplit]
  dsimp only [Except.mapError]
  rw [if_pos (by simpa using hne), outcome_bind, outcome_ask, hcheck]
  dsimp only
  rw [outcome_get_bind, outcome_bind,
    outcome_extendPrimaryKeys_of_none names fun c hc => (hold c hc).1]
  dsimp only
  rw [if_pos (by simp), outcome_bind, outcome_discard, outcome_addConstraint, resolveConstraint,
    outcome_newConstraint, ofParams_keySpec hn]
  exact (outcome_ask (withKey st t names) (primaryKeyOf · t)).trans
    (by rw [primaryKeyOf_withKey names hold])

end Edit

namespace Drafts

/-- Adding a field with a new name succeeds and adds its description. -/
theorem addNamed {ps : Params} {spec : FieldSpec} {name : String}
    (hps : FieldSpec.ofParams ps = .ok spec) (hname : spec.name = .text name) (hne : name ≠ "")
    (hnew : ∀ x ∈ o.fields, x.name ≠ .text name) :
    Ensures (Drafts b t o) (Edit.addField t .null ps)
      (fun _ => Drafts b t { o with fields := o.fields ++ [spec] }) fun _ => False := by
  refine addField hps (by simpa [hname, Value.truthy] using hne) fun x hx => ?_
  rw [hname, Bool.eq_false_iff, ne_eq, Value.same_text_iff]
  exact hnew x hx

/-- A field of the outline is found under its name. -/
theorem fieldNamed (h : Drafts b t o st) {x : FieldSpec} (hx : x ∈ o.fields) {name : String}
    (hname : x.name = .text name) :
    ∃ f, DbSchema.fieldNamed st t (.text name) = .ok f ∧ (.text name, f) ∈ (st.table t).fields ∧
      (st.field f).toFieldSpec = x := by
  rw [← h.outline] at hx
  obtain ⟨e, he, rfl⟩ := List.mem_map.mp hx
  obtain ⟨-, hlisted, htruthy⟩ := h.coherent.field e he
  have hkey : e.1 = .text name := hlisted.symm.trans hname
  have hfind : (st.table t).field? (.text name) = some e.2 :=
    hkey ▸ Keyed.find?_of_mem h.coherent.distinct he (hkey ▸ (Value.text_same_iff name _).mpr rfl)
  refine ⟨e.2, ?_, hkey ▸ he, rfl⟩
  rw [hkey] at htruthy
  rw [DbSchema.fieldNamed, htruthy, hfind]
  rfl

/-- **Naming key columns of a table without a key adds one as its last constraint.** -/
theorem primaryKey {names : List String} (hn : Normalised names) (hne : names ≠ [])
    (hfields : ∀ n ∈ names, ∃ x ∈ o.fields, x.name = .text n)
    (hnone : ∀ x ∈ o.constraints, x.kind ≠ .constraintKind .primaryKey) :
    Ensures (Drafts b t o) (Edit.primaryKey t [.ofTexts names])
      (fun c st => Drafts b t { o with constraints := o.constraints ++ [keySpec names] } st ∧
        st.EndsWith t c) fun _ => False := by
  intro st h
  have hold : ∀ c ∈ (st.table t).constraints, isKey st c = false := by
    intro c hc
    have hkind := hnone (st.constraint c).toConstraintSpec
      (h.outline ▸ List.mem_map.mpr ⟨c, hc, rfl⟩)
    by_contra hk
    rw [isKey, Constraint.isOfKind] at hk
    split at hk
    · next l hl => exact hkind (by rw [hl, show l = .primaryKey by simpa using hk])
    · exact hk rfl
  have hcheck : checkNames st t (names.map .text) = .ok () := by
    refine checkNames_eq_ok fun v hv => ?_
    obtain ⟨n, hmem, rfl⟩ := List.mem_map.mp hv
    obtain ⟨x, hx, hname⟩ := hfields n hmem
    obtain ⟨f, hf, -⟩ := h.fieldNamed hx hname
    exact ⟨f, hf⟩
  have hadd := addConstraint (t := t) (ofParams_keySpec hn) st h
  rw [outcome_addConstraint, resolveConstraint, outcome_newConstraint, ofParams_keySpec hn] at hadd
  have hdraft : Drafts b t { o with constraints := o.constraints ++ [keySpec names] }
      (withKey st t names) := hadd
  rw [outcome_primaryKey_of_none hn hne hcheck
    fun c hc => ⟨hold c hc, h.coherent.ne_newConstraint c hc⟩]
  refine ⟨hdraft, (st.table t).constraints, by simp [withKey, withConstraint], fun hc => ?_⟩
  exact h.coherent.ne_newConstraint _ hc rfl

/-! ### Changes of what was added -/

/-- Changing the last constraint changes the last description. -/
theorem onLast {c : ConstraintId} (spec : ConstraintSpec) {f : Constraint → Constraint}
    {g : ConstraintSpec → ConstraintSpec} (howner : ∀ x, (f x).owner = x.owner)
    (hspec : ∀ x, (f x).toConstraintSpec = g x.toConstraintSpec) :
    Ensures
      (fun st => Drafts b t { o with constraints := o.constraints ++ [spec] } st ∧
        st.EndsWith t c)
      (Edit.onConstraint c f)
      (fun _ => Drafts b t { o with constraints := o.constraints ++ [g spec] }) fun _ => False := by
  rintro st ⟨h, cs, hcs, hout⟩
  rw [outcome_onConstraint]
  have hmem : c ∈ (st.table t).constraints := by simp [hcs]
  refine ⟨h.building.setConstraint (h.building.constraint c hmem) _,
    h.coherent.of_keeps (Store.keepsTable_setConstraint fun _ => howner _), ?_⟩
  have houtline := h.outline
  simp only [Store.outline, hcs, TableOutline.mk.injEq, List.map_append, List.map_cons,
    List.map_nil] at houtline
  obtain ⟨hname, hfields, hindices, hconstraints, hoptions⟩ := houtline
  obtain ⟨hfirst, hlast⟩ := List.append_inj' hconstraints rfl
  -- the constraints before the last one are as they were
  have hrest : cs.map (fun d =>
      ((st.setConstraint c (f (st.constraint c))).constraint d).toConstraintSpec) =
      cs.map fun d => (st.constraint d).toConstraintSpec :=
    List.map_congr_left fun d hd => by
      rw [Store.constraint_setConstraint_of_ne _ (ne_of_mem_of_not_mem hd hout)]
  simp only [Store.outline, Store.table_setConstraint, Store.field_setConstraint,
    Store.index_setConstraint, hcs, List.map_append, List.map_cons, List.map_nil, hrest,
    Store.constraint_setConstraint_self, hspec, List.singleton_inj.mp hlast, hname, hfields,
    hindices, hfirst, hoptions]

/-- A field that a table lists under a name may be told to count up by itself. -/
theorem countUp {name : String} {f : FieldId} :
    Ensures (fun st => Drafts b t o st ∧ (.text name, f) ∈ (st.table t).fields)
      (Edit.onField f fun x => { x with autoIncrement := .bool true })
      (fun _ => Drafts b t { o with fields := o.fields.map (FieldSpec.countingUp name) })
      fun _ => False := by
  rintro st ⟨h, hmem⟩
  rw [outcome_onField]
  refine ⟨h.building.setField (h.building.field _ hmem) _,
    h.coherent.of_keeps (Store.keepsTable_setField fun _ _ _ => ⟨rfl, rfl, rfl⟩), ?_⟩
  have hself : ∀ {g}, (Value.text name, g) ∈ (st.table t).fields →
      (st.table t).field? (.text name) = some g := fun hg =>
    Keyed.find?_of_mem h.coherent.distinct hg ((Value.text_same_iff name _).mpr rfl)
  have hcells : ∀ e ∈ (st.table t).fields,
      ((st.setField f { st.field f with autoIncrement := .bool true }).field e.2).toFieldSpec =
        (st.field e.2).toFieldSpec.countingUp name := by
    intro e he
    obtain ⟨-, hname, -⟩ := h.coherent.field e he
    by_cases hf : e.2 = f
    · obtain ⟨-, hlisted, -⟩ := h.coherent.field _ hmem
      rw [hf, Store.field_setField_self, FieldSpec.countingUp,
        if_pos (hlisted ▸ (Value.text_same_iff name _).mpr rfl)]
    -- only one field is listed under the name
    · rw [Store.field_setField_of_ne st hf, FieldSpec.countingUp, if_neg]
      intro hsame
      have hkey : e = (.text name, e.2) :=
        Prod.ext (hname.symm.trans ((Value.text_same_iff name _).mp hsame)) rfl
      rw [hkey] at he
      exact hf (Option.some.inj ((hself he).symm.trans (hself hmem)))
  rw [← h.outline]
  simp only [Store.outline, Store.table_setField, Store.index_setField, Store.constraint_setField,
    List.map_map, List.map_congr_left hcells, Function.comp_def]

end Drafts

end DbSchema
