import DbSchema.Proofs.Model.Obstacles
import DbSchema.Proofs.Model.OnceListed
import DbSchema.Proofs.Model.PrimaryKeys

/-!
# Growing schemas stay valid

Adding a field with a type, names to the primary key, options, or an index over fields that are
there takes nothing away that a check looks for: tables keep their names, their places and their
columns, and what was fit to be listed stays so, in the table that grows and in every table that
refers to it.  So a valid schema stays valid, through any number of such calls.

## Main definitions

* `Store.Wider st st'` — tables keep their names, places and columns, and may get more columns.
* `Growth st st'` — one small step that makes a child, lists a clear one or adds names.
* `Grows st st'` — one accepted call that makes a table grow.

## Main results

* `Store.ClearChild.of_wider` — what is fit to be listed stays so when tables get more columns.
* `Growth.clearSchema` — a small step puts nothing in the way of a schema.
* `Grows.growth` — a call is made of small steps.
* `checkSchema_of_grows` — **a valid schema that grows stays valid.**
-/

namespace DbSchema

variable {st st' : Store} {s : SchemaId} {t u : TableId} {d : Child}

/-! ### More columns -/

namespace Store

/-- Nothing stands in the way of a child in the table that lists it. -/
def ClearChild (st : Store) (t : TableId) : Child → Prop
  | .field f => (st.field f).dataType.truthy
  | .index i => st.ValidIndex t i
  | .constraint c => st.ClearConstraint t c

/-- A table is clear when it has a name and fields, and all of its children are clear. -/
theorem clearTable_iff :
    st.ClearTable t ↔ (st.table t).name.truthy ∧ (st.table t).fields ≠ [] ∧
      ∀ d ∈ st.children t, st.ClearChild t d := by
  constructor
  · intro h
    refine ⟨h.name, h.some, fun d hd => ?_⟩
    cases d with
    | field f =>
      obtain ⟨e, he, rfl⟩ := field_mem_children.mp hd
      exact h.field e he
    | index i => exact h.index i (index_mem_children.mp hd)
    | constraint c => exact h.constraint c (constraint_mem_children.mp hd)
  · rintro ⟨hname, hsome, hclear⟩
    exact ⟨hname, hsome, fun e he => hclear (.field e.2) (field_mem_children.mpr ⟨e, he, rfl⟩),
      fun i hi => hclear (.index i) (index_mem_children.mpr hi),
      fun c hc => hclear (.constraint c) (constraint_mem_children.mpr hc)⟩

/-- Schemas list the tables that they listed, and tables keep their names, their places and their
fields with the names of these; they may get more fields. -/
structure Wider (st st' : Store) : Prop where
  tables : ∀ s, (st'.schema s).tables = (st.schema s).tables
  name : ∀ t, (st'.table t).name = (st.table t).name
  owner : ∀ t, (st'.table t).owner = (st.table t).owner
  fields : ∀ t, (st.table t).fields ⊆ (st'.table t).fields
  fieldName : ∀ t, ∀ e ∈ (st.table t).fields, (st'.field e.2).name = (st.field e.2).name

namespace Wider

theorem refl (st : Store) : st.Wider st :=
  ⟨fun _ => rfl, fun _ => rfl, fun _ => rfl, fun _ => List.Subset.refl _, fun _ _ _ => rfl⟩

theorem trans {a b c : Store} (h : a.Wider b) (h' : b.Wider c) : a.Wider c where
  tables s := (h'.tables s).trans (h.tables s)
  name t := (h'.name t).trans (h.name t)
  owner t := (h'.owner t).trans (h.owner t)
  fields t _ he := h'.fields t (h.fields t he)
  fieldName t e he := (h'.fieldName t e (h.fields t he)).trans (h.fieldName t e he)

variable (h : st.Wider st')
include h

theorem columns (t : TableId) {n : String} (hn : n ∈ st.columns t) : n ∈ st'.columns t := by
  obtain ⟨e, he, hname⟩ := List.mem_filterMap.mp hn
  exact List.mem_filterMap.mpr ⟨e, h.fields t he, h.fieldName t e he ▸ hname⟩

theorem referred?_eq (t : TableId) (name : Value) : st'.referred? t name = st.referred? t name := by
  simp only [referred?, h.owner, Schema.find?, h.tables]

theorem some (t : TableId) (hsome : (st.table t).fields ≠ []) : (st'.table t).fields ≠ [] := by
  obtain ⟨e, he⟩ := List.exists_mem_of_ne_nil _ hsome
  exact List.ne_nil_of_mem (h.fields t he)

end Wider

/-- The description of a child is as it was. -/
def SameChild (st st' : Store) : Child → Prop
  | .field f => (st'.field f).toFieldSpec = (st.field f).toFieldSpec
  | .index i => (st'.index i).toIndexSpec = (st.index i).toIndexSpec
  | .constraint c => (st'.constraint c).toConstraintSpec = (st.constraint c).toConstraintSpec

theorem ValidIndex.of_wider (h : st.Wider st') {i : IndexId}
    (hfields : (st'.index i).fields = (st.index i).fields) (hi : st.ValidIndex t i) :
    st'.ValidIndex t i where
  some := hfields ▸ hi.some
  known n hn := h.columns t (hi.known n (hfields ▸ hn))

theorem ClearConstraint.of_wider (h : st.Wider st') {c : ConstraintId}
    (hspec : (st'.constraint c).toConstraintSpec = (st.constraint c).toConstraintSpec)
    (hc : st.ClearConstraint t c) : st'.ClearConstraint t c := by
  have hkind : ∀ k, (st'.constraint c).isOfKind k = (st.constraint c).isOfKind k := fun k => by
    rw [Constraint.isOfKind, Constraint.isOfKind, hspec]
  obtain ⟨hvalid, hfit⟩ := hc
  refine ⟨⟨?_, fun hcheck => ?_, fun hcheck => ?_, fun n hn => ?_, fun hkey => ?_⟩, fun hun => ?_⟩
  · rw [hspec]
    exact hvalid.kind
  · rw [hspec]
    exact hvalid.expression (hkind _ ▸ hcheck)
  · rw [hspec]
    exact hvalid.some (hkind _ ▸ hcheck)
  · rw [hspec] at hn
    exact h.columns t (hvalid.known n hn)
  · -- the table that is referred to may be any one, and it may be the one that got more columns
    obtain ⟨hgiven, hknown⟩ := hvalid.reference (hkind _ ▸ hkey)
    refine ⟨by rwa [hspec], fun u hu n hn => ?_⟩
    rw [hspec, h.referred?_eq] at hu
    rw [hspec] at hn
    exact h.columns u (hknown u hu n hn)
  · obtain ⟨hkey, hattached, hgiven, hhash⟩ := hun
    rw [hkind] at hkey
    rw [h.owner] at hattached
    rw [hspec] at hgiven hhash
    exact hfit ⟨hkey, hattached, hgiven, hhash⟩

/-- **What is fit to be listed stays so when tables get more columns.** -/
theorem ClearChild.of_wider (h : st.Wider st') (hsame : st.SameChild st' d)
    (hd : st.ClearChild t d) : st'.ClearChild t d := by
  cases d with
  | field f =>
    have hspec : (st'.field f).toFieldSpec = (st.field f).toFieldSpec := hsame
    rw [ClearChild, hspec]
    exact hd
  | index i => exact ValidIndex.of_wider h (congrArg IndexSpec.fields hsame) hd
  | constraint c => exact ClearConstraint.of_wider h hsame hd

end Store

/-! ### Small steps -/

/-- One small step in which what tables list only gets more, and all of it is clear. -/
inductive Growth (st : Store) : Store → Prop
  | newField {spec : FieldSpec} (h : spec.Tidy) :
      Growth st (st.setField ⟨st.fields.size⟩ { toFieldSpec := spec })
  | newIndex {spec : IndexSpec} (h : spec.Tidy) :
      Growth st (st.setIndex ⟨st.indices.size⟩ { toIndexSpec := spec })
  | newConstraint {spec : ConstraintSpec} (h : spec.Tidy) :
      Growth st (st.setConstraint ⟨st.constraints.size⟩ { toConstraintSpec := spec })
  | addChild {t : TableId} {d : Child}
      (howner : st.ownerOf d = none ∨ st.ownerOf d = some (.table t))
      (hplace : Edit.mayPlace st t d = .ok ()) (hclear : st.ClearChild t d) :
      Growth st (Edit.withChild st t d)
  | addOptions (t : TableId) {names : List String} (h : Normalised names) :
      Growth st (st.setTable t { st.table t with options := (st.table t).options ++ names })
  | addNames {t : TableId} {c : ConstraintId} {names : List String} (hkey : Edit.isKey st c)
      (howner : (st.constraint c).owner = some (.table t)) (h : Normalised names)
      (hknown : ∀ n ∈ names, n ∈ st.columns t) : Growth st (Edit.withNames st names c)

namespace Growth

theorem change (h : Growth st st') : Change st st' := by
  cases h with
  | newField hspec => exact .newField hspec
  | newIndex hspec => exact .newIndex hspec
  | newConstraint hspec => exact .newConstraint hspec
  | @addChild t d howner hplace _ =>
    cases d with
    | field f => exact .addField howner hplace
    | index i => exact .addIndex howner
    | constraint c => exact .addConstraint howner
  | addOptions t hn => exact .addOptions t hn
  | @addNames t c names _ _ hn _ => exact .addNames c hn

end Growth

/-- A table that gets a child, or another one, keeps its name, its place and its fields. -/
theorem Edit.table_withChild (st : Store) (t u : TableId) (d : Child) :
    ((withChild st t d).table u).name = (st.table u).name ∧
      ((withChild st t d).table u).owner = (st.table u).owner ∧
      (st.table u).fields ⊆ ((withChild st t d).table u).fields := by
  by_cases hu : u = t
  · subst hu
    obtain ⟨hname, howner, -⟩ := head_withChild st u d
    refine ⟨hname, howner, ?_⟩
    cases d <;> simp [withChild, withField, withIndex, withConstraint]
  · rw [table_withChild_of_ne hu]
    exact ⟨rfl, rfl, List.Subset.refl _⟩

/-- Listing a child leaves the descriptions of all children. -/
theorem Edit.sameChild_withChild (st : Store) (t : TableId) (d d' : Child) :
    st.SameChild (withChild st t d) d' := by
  cases d with
  | field f =>
    cases d' with
    | field g =>
      by_cases hg : g = f
      · subst hg
        simp [Store.SameChild, withChild, withField]
      · simp [Store.SameChild, withChild, withField, Store.field_setField_of_ne st hg]
    | _ => rfl
  | index i =>
    cases d' with
    | index j =>
      by_cases hj : j = i
      · subst hj
        simp [Store.SameChild, withChild, withIndex]
      · simp [Store.SameChild, withChild, withIndex, Store.index_setIndex_of_ne st hj]
    | _ => rfl
  | constraint c =>
    cases d' with
    | constraint d =>
      by_cases hd : d = c
      · subst hd
        simp [Store.SameChild, withChild, withConstraint]
      · simp [Store.SameChild, withChild, withConstraint,
          Store.constraint_setConstraint_of_ne st hd]
    | _ => rfl

/-- A key that gets names leaves the descriptions of the other children. -/
theorem Edit.sameChild_withNames {names : List String} {c : ConstraintId}
    (h : d ≠ .constraint c) : st.SameChild (withNames st names c) d := by
  cases d with
  | constraint e =>
    have hne : e ≠ c := fun heq => h (by rw [heq])
    simp [Store.SameChild, constraint_withNames, hne]
  | _ => rfl

namespace Store.Coherent

variable (hst : st.Coherent) (hd : d ∈ st.children t)
include hst hd

/-! No table lists a new child yet, so the ones that are listed are as they were. -/

theorem sameChild_newField (cell : Field) :
    st.SameChild (st.setField ⟨st.fields.size⟩ cell) d := by
  cases d with
  | field f =>
    obtain ⟨e, he, rfl⟩ := field_mem_children.mp hd
    simp [SameChild, field_setField_of_ne st ((hst.table t).ne_newField e he)]
  | _ => rfl

theorem sameChild_newIndex (cell : Index) :
    st.SameChild (st.setIndex ⟨st.indices.size⟩ cell) d := by
  cases d with
  | index i =>
    have hne := (hst.table t).ne_newIndex i (index_mem_children.mp hd)
    simp [SameChild, index_setIndex_of_ne st hne]
  | _ => rfl

theorem sameChild_newConstraint (cell : Constraint) :
    st.SameChild (st.setConstraint ⟨st.constraints.size⟩ cell) d := by
  cases d with
  | constraint c =>
    have hne := (hst.table t).ne_newConstraint c (constraint_mem_children.mp hd)
    simp [SameChild, constraint_setConstraint_of_ne st hne]
  | _ => rfl

end Store.Coherent

namespace Growth

theorem wider (hst : st.Coherent) (h : Growth st st') : st.Wider st' := by
  cases h with
  | newField hspec =>
    refine ⟨fun _ => rfl, fun _ => rfl, fun _ => rfl, fun _ => List.Subset.refl _, fun t e he => ?_⟩
    rw [Store.field_setField_of_ne st ((hst.table t).ne_newField e he)]
  | newIndex hspec =>
    exact ⟨fun _ => rfl, fun _ => rfl, fun _ => rfl, fun _ => List.Subset.refl _, fun _ _ _ => rfl⟩
  | newConstraint hspec =>
    exact ⟨fun _ => rfl, fun _ => rfl, fun _ => rfl, fun _ => List.Subset.refl _, fun _ _ _ => rfl⟩
  | @addChild t d howner hplace hclear =>
    refine ⟨fun s => ?_, fun u => (Edit.table_withChild st t u d).1,
      fun u => (Edit.table_withChild st t u d).2.1, fun u => (Edit.table_withChild st t u d).2.2,
      fun u e _ => congrArg FieldSpec.name (Edit.sameChild_withChild st t d (.field e.2))⟩
    cases d <;> rfl
  | @addOptions t names hn =>
    refine ⟨fun _ => rfl, st.read_setTable rfl, st.read_setTable rfl, fun u e he => ?_,
      fun _ _ _ => rfl⟩
    have hfields : ((st.setTable t { st.table t with
        options := (st.table t).options ++ names }).table u).fields = (st.table u).fields :=
      st.read_setTable (p := Table.fields) (by rfl) u
    exact hfields ▸ he
  | addNames hkey howner hn hknown =>
    exact ⟨fun _ => rfl, fun _ => rfl, fun _ => rfl, fun _ => List.Subset.refl _, fun _ _ _ => rfl⟩

/-- A key that lists some more columns is clear if it was. -/
theorem clear_withNames (hst : st.Coherent) {c : ConstraintId} {names : List String}
    (hkey : Edit.isKey st c) (hknown : ∀ n ∈ names, n ∈ st.columns t)
    (hc : st.ClearConstraint t c) : (Edit.withNames st names c).ClearConstraint t c := by
  obtain ⟨old, hold, -⟩ := (hst.constraintTidy c).fields
  have hcell : (Edit.withNames st names c).constraint c =
      { st.constraint c with fields := .ofTexts (old ++ names) } := by
    simp [Edit.constraint_withNames, hold, Value.ofTexts, Value.ofList, Edit.appendNames]
  have hfields : ((Edit.withNames st names c).constraint c).fields.listedNames = old ++ names := by
    rw [hcell]
    exact listedNames_ofTexts _
  have hlisted : (st.constraint c).fields.listedNames = old := by rw [hold, listedNames_ofTexts]
  have hkind : ∀ k, ((Edit.withNames st names c).constraint c).isOfKind k =
      (st.constraint c).isOfKind k := fun k => by rw [hcell]; rfl
  -- it is a primary key, so what other kinds need does not matter
  have hother : ∀ k, k ≠ .primaryKey → ¬ ((Edit.withNames st names c).constraint c).isOfKind k :=
    fun k hk h => by
      have hkind' := (isOfKind_iff.mp (hkind k ▸ h)).symm.trans (isOfKind_iff.mp hkey)
      exact hk (Value.constraintKind.inj hkind')
  obtain ⟨hvalid, -⟩ := hc
  refine ⟨⟨?_, fun hcheck => absurd hcheck (hother .check (by simp)), fun hcheck => ?_,
    fun n hmem => ?_, fun hforeign => absurd hforeign (hother .foreignKey (by simp))⟩,
    fun hun => hother .foreignKey (by simp) hun.foreign⟩
  · rw [hcell]
    exact hvalid.kind
  · have hsome := hvalid.some (hkind _ ▸ hcheck)
    rw [hlisted] at hsome
    rw [hfields]
    simp [hsome]
  · rw [hfields, List.mem_append] at hmem
    exact hmem.elim (fun hmem => hvalid.known n (hlisted ▸ hmem)) (hknown n)

/-- **What a table lists after a small step is clear** if what it listed before was. -/
theorem clearChild (hst : st.Coherent) (h : Growth st st')
    (hclear : ∀ d ∈ st.children u, st.ClearChild u d) (hd : d ∈ st'.children u) :
    st'.ClearChild u d := by
  have hwider := h.wider hst
  cases h with
  | newField _ => exact .of_wider hwider (hst.sameChild_newField hd _) (hclear d hd)
  | newIndex _ => exact .of_wider hwider (hst.sameChild_newIndex hd _) (hclear d hd)
  | newConstraint _ => exact .of_wider hwider (hst.sameChild_newConstraint hd _) (hclear d hd)
  | @addChild t d' howner hplace hnew =>
    refine .of_wider hwider (Edit.sameChild_withChild st t d' d) ?_
    rcases ((Edit.adopts_withChild st t d').children u d).mp hd with hold | ⟨rfl, rfl⟩
    · exact hclear d hold
    · exact hnew
  | @addOptions t names hn =>
    have hsame : Store.SameOwnership st
        (st.setTable t { st.table t with options := (st.table t).options ++ names }) :=
      .setTable rfl rfl rfl
    refine .of_wider hwider ?_ (hclear d (hsame.children u ▸ hd))
    cases d <;> rfl
  | @addNames t c names hkey howner hn hknown =>
    -- only the key that gets the names changes, and its own table lists it
    by_cases hdc : d = .constraint c
    · subst hdc
      have htable : t = u := Ref.table.inj
        (Option.some.inj (howner.symm.trans (hst.ownerOf_of_mem (t := u) hd)))
      subst htable
      exact clear_withNames hst hkey hknown (hclear _ hd)
    · exact .of_wider hwider (Edit.sameChild_withNames hdc) (hclear d hd)

/-- **A small step puts nothing in the way of a schema.** -/
theorem clearSchema (hst : st.Coherent) (h : Growth st st') (hclear : st.ClearSchema s) :
    st'.ClearSchema s := by
  have hwider := h.wider hst
  refine ⟨hwider.tables s ▸ hclear.some, fun e he => ?_⟩
  rw [hwider.tables] at he
  obtain ⟨hname, hsome, hchildren⟩ := Store.clearTable_iff.mp (hclear.table e he)
  exact Store.clearTable_iff.mpr ⟨hwider.name e.2 ▸ hname, hwider.some e.2 hsome,
    fun d hd => h.clearChild hst hchildren hd⟩

end Growth

/-- Any number of small steps. -/
abbrev Grown : Store → Store → Prop := Relation.ReflTransGen Growth

/-- **Small steps leave a coherent store coherent, make it wider and put nothing in the way of a
schema.** -/
theorem Grown.keeps (hst : st.Coherent) (h : Grown st st') :
    st'.Coherent ∧ st.Wider st' ∧ ∀ s, st.ClearSchema s → st'.ClearSchema s := by
  induction h with
  | refl => exact ⟨hst, .refl st, fun _ hclear => hclear⟩
  | tail _ hstep ih =>
    obtain ⟨hcoherent, hwider, hkeeps⟩ := ih
    exact ⟨hcoherent.of_change hstep.change, hwider.trans (hstep.wider hcoherent),
      fun s hclear => hstep.clearSchema hcoherent (hkeeps s hclear)⟩

/-! ### Calls -/

/-- One accepted call that makes a table grow: a field with a type, names for the primary key,
options, or an index over at least one field, all of them fields that are there. -/
inductive Grows (st : Store) : Store → Prop
  | addField {t : TableId} {child : Value} {params : Params} {f : FieldId} {st' : Store}
      (h : outcome (Edit.addField t child params) st = (.ok f, st'))
      (typed : (st'.field f).dataType.truthy) : Grows st st'
  | primaryKey {t : TableId} {values : List Value} {c : ConstraintId} {st' : Store}
      (h : outcome (Edit.primaryKey t values) st = (.ok c, st')) : Grows st st'
  | addOptions {t : TableId} {values : List Value} {all : List String} {st' : Store}
      (h : outcome (Edit.addOptions t values) st = (.ok all, st')) : Grows st st'
  | addIndex {t : TableId} {child : Value} {params : Params} {i : IndexId} {st' : Store}
      (h : outcome (Edit.addIndex t child params) st = (.ok i, st'))
      (some : (st'.index i).fields.listedNames ≠ [])
      (known : ∀ n ∈ (st'.index i).fields.listedNames, n ∈ st.columns t) : Grows st st'

namespace Edit

/-- The field to add is made, or it is there. -/
theorem grown_resolveField {child : Value} {params : Params} {f : FieldId}
    (h : outcome (resolveField t child params) st = (.ok f, st')) :
    Grown st st' ∧ ((st'.field f).owner = none ∨ (st'.field f).owner = some (.table t)) := by
  refine ⟨?_, (changes_resolveField st t child params).2 f st' h⟩
  rw [resolveField_eq] at h
  rcases resolveChild_ok h with hnew | ⟨-, -, rfl, -⟩
  · rw [outcome_newField] at hnew
    rcases hspec : FieldSpec.ofParams params with e | spec <;> rw [hspec] at hnew <;> cases hnew
    exact .single (.newField (FieldSpec.tidy_of_ofParams hspec))
  · exact .refl

theorem grown_resolveIndex {child : Value} {params : Params} {i : IndexId}
    (h : outcome (resolveIndex t child params) st = (.ok i, st')) :
    Grown st st' ∧ ((st'.index i).owner = none ∨ (st'.index i).owner = some (.table t)) := by
  refine ⟨?_, (changes_resolveIndex st t child params).2 i st' h⟩
  rw [resolveIndex_eq] at h
  rcases resolveChild_ok h with hnew | ⟨-, -, rfl, -⟩
  · rw [outcome_newIndex] at hnew
    rcases hspec : IndexSpec.ofParams params with e | spec <;> rw [hspec] at hnew <;> cases hnew
    exact .single (.newIndex (IndexSpec.tidy_of_ofParams hspec))
  · exact .refl

/-- The keys of a table get names of its columns one after the other. -/
theorem grown_withKeyNames {names : List String} (hn : Normalised names)
    {cs : List ConstraintId} (howner : ∀ c ∈ cs, (st.constraint c).owner = some (.table t))
    (hknown : ∀ n ∈ names, n ∈ st.columns t) : Grown st (withKeyNames names st cs) := by
  induction cs generalizing st with
  | nil => exact .refl
  | cons c r ih =>
    rw [withKeyNames, List.foldl_cons]
    split
    · next hkey =>
      have hstep : Growth st (withNames st names c) :=
        .addNames hkey (howner c List.mem_cons_self) hn hknown
      refine (Relation.ReflTransGen.single hstep).trans (ih (fun d hd => ?_) hknown)
      rw [constraint_withNames]
      split <;> exact howner d (List.mem_cons_of_mem c hd)
    · exact ih (fun d hd => howner d (List.mem_cons_of_mem c hd)) hknown

/-- A table gets a key over some of its columns. -/
theorem grown_withKey {names : List String} (hn : Normalised names) (hne : names ≠ [])
    (hknown : ∀ n ∈ names, n ∈ st.columns t) : Grown st (withKey st t names) := by
  have hmade : Growth st
      (st.setConstraint ⟨st.constraints.size⟩ { toConstraintSpec := keySpec names }) :=
    .newConstraint (ConstraintSpec.tidy_of_ofParams (ofParams_keySpec hn))
  refine (Relation.ReflTransGen.single hmade).tail
    (.addChild (d := .constraint ⟨st.constraints.size⟩) (Or.inl ?_) rfl ?_)
  · rw [Store.ownerOf, Store.constraint_setConstraint_self]
  · have hlisted : (keySpec names).fields.listedNames = names := listedNames_ofTexts names
    refine ⟨⟨?_, ?_, ?_, ?_, ?_⟩, fun hun => ?_⟩ <;> try rw [Store.constraint_setConstraint_self]
    · rfl
    · exact fun hcheck => by cases hcheck
    · exact fun _ => hlisted.symm ▸ hne
    · rw [hlisted]
      exact hknown
    · exact fun hforeign => by cases hforeign
    · have hforeign := hun.foreign
      rw [Store.constraint_setConstraint_self] at hforeign
      cases hforeign

theorem grown_addField {child : Value} {params : Params} {f : FieldId}
    (h : outcome (addField t child params) st = (.ok f, st'))
    (typed : (st'.field f).dataType.truthy) : Grown st st' := by
  rw [outcome_addField] at h
  rcases hresolve : outcome (resolveField t child params) st with ⟨e | g, st₁⟩ <;>
    rw [hresolve] at h
  · cases h
  dsimp only at h
  rcases hmay : mayAddField st₁ t g with e | v <;> rw [hmay] at h <;> cases h
  obtain ⟨hgrown, howner⟩ := grown_resolveField hresolve
  have hclear : (st₁.field f).dataType.truthy := by simpa [withField] using typed
  exact hgrown.tail (.addChild (d := .field f) howner hmay hclear)

theorem grown_primaryKey (hst : st.Coherent) {values : List Value} {c : ConstraintId}
    (h : outcome (primaryKey t values) st = (.ok c, st')) : Grown st st' := by
  rw [outcome_primaryKey t hst.extendable] at h
  rcases hs : splitNames values with r | names <;> rw [hs] at h
  · cases h
  dsimp only at h
  have hn := normalised_of_splitNames hs
  split at h
  · obtain ⟨-, rfl⟩ := Prod.mk.inj h
    exact .refl
  · next hsome =>
    rcases hcheck : checkNames st t (names.map .text) with e | v <;> rw [hcheck] at h
    · cases h
    have hknown : ∀ n ∈ names, n ∈ st.columns t := fun n hmem =>
      hst.field?_isSome_iff.mp (Option.isSome_iff_exists.mpr
        ((checkNames_eq_ok_iff hn).mp hcheck n hmem))
    obtain ⟨-, rfl⟩ := Prod.mk.inj h
    -- the names go to the keys that there are, or to a new one
    split
    · exact grown_withKeyNames hn (fun d hd => (hst.table t).constraint d hd) hknown
    · exact grown_withKey hn (by simpa using hsome) hknown

theorem grown_addOptions {values : List Value} {all : List String}
    (h : outcome (addOptions t values) st = (.ok all, st')) : Grown st st' := by
  rw [outcome_addOptions] at h
  rcases hs : splitNames values with r | names <;> rw [hs] at h <;> cases h
  exact .single (.addOptions t (normalised_of_splitNames hs))

theorem grown_addIndex (hst : st.Coherent) {child : Value} {params : Params} {i : IndexId}
    (h : outcome (addIndex t child params) st = (.ok i, st'))
    (some : (st'.index i).fields.listedNames ≠ [])
    (known : ∀ n ∈ (st'.index i).fields.listedNames, n ∈ st.columns t) : Grown st st' := by
  rw [outcome_addIndex] at h
  rcases hresolve : outcome (resolveIndex t child params) st with ⟨e | j, st₁⟩ <;>
    rw [hresolve] at h <;> cases h
  obtain ⟨hgrown, howner⟩ := grown_resolveIndex hresolve
  obtain ⟨-, hwider, -⟩ := Grown.keeps hst hgrown
  have hfields : ((withIndex st₁ t i).index i).fields = (st₁.index i).fields := by
    simp [withIndex]
  rw [hfields] at some known
  exact hgrown.tail (.addChild (d := .index i) howner rfl
    ⟨some, fun n hn => hwider.columns t (known n hn)⟩)

end Edit

/-- **A call that makes a table grow is made of small steps.** -/
theorem Grows.grown (hst : st.Coherent) (h : Grows st st') : Grown st st' := by
  cases h with
  | addField h typed => exact Edit.grown_addField h typed
  | primaryKey h => exact Edit.grown_primaryKey hst h
  | addOptions h => exact Edit.grown_addOptions h
  | addIndex h some known => exact Edit.grown_addIndex hst h some known

/-- **A valid schema that grows stays valid.**  In every history, when a schema passes the check and
then any number of accepted calls make tables grow, the schema passes the check again; it keeps all
the rules, those of foreign keys of one table that refer to another one among them. -/
theorem checkSchema_of_grows (h : Reachable st) (hok : checkSchema st s = .ok ())
    (hgrows : Relation.ReflTransGen Grows st st') :
    checkSchema st' s = .ok () ∧ st'.ValidSchema s := by
  have hst := coherent_of_reachable h
  have hgrown : Grown st st' := by
    induction hgrows with
    | refl => exact .refl
    | tail _ hcall ih => exact ih.trans (hcall.grown (ih.keeps hst).1)
  obtain ⟨hst', -, hkeeps⟩ := hgrown.keeps hst
  have hclear := hkeeps s (hst.checkSchema_ok_iff_clear.mp hok)
  exact ⟨hst'.checkSchema_ok_iff_clear.mpr hclear, hclear.valid⟩

/-- What an operation gives, and the store that it leaves as a call. -/
theorem outcome_eq_of_toOption {α : Type} {e : Edit α} {a : α}
    (h : (outcome e st).1.toOption = some a) :
    outcome e st = (.ok a, (outcome (discard e) st).2) := by
  rw [outcome_discard]
  rcases ho : outcome e st with ⟨x | b, st'⟩ <;> rw [ho] at h <;> cases h
  rfl

/-- The table that a foreign key of another one refers to gets a field, a name in its key twice, an
option and an index. -/
theorem checkSchema_of_grows_shop :
    let st := history [.makeSchema (.text "shop") (.text ""),
      .addTable ⟨0⟩ .null [("name", .text "users")],
      .addField ⟨0⟩ .null [("name", .text "id"), ("data_type", .text "integer")],
      .addTable ⟨0⟩ .null [("name", .text "orders")],
      .addField ⟨1⟩ .null [("name", .text "owner"), ("data_type", .text "integer")],
      .addConstraint ⟨1⟩ .null [("type", .text "foreign key"), ("fields", .text "owner"),
        ("reference_table", .text "users"), ("reference_fields", .text "id")]]
    let email : Params := [("name", .text "email"), ("data_type", .text "text")]
    let typed := (Call.addField ⟨0⟩ .null email).after st
    let keyed := (Call.primaryKey ⟨0⟩ [.text "id"]).after typed
    let doubled := (Call.primaryKey ⟨0⟩ [.text "id, email"]).after keyed
    let opted := (Call.addOptions ⟨0⟩ [.text "ENGINE=InnoDB"]).after doubled
    let byEmail : Params := [("fields", .text "email, id")]
    let st' := (Call.addIndex ⟨0⟩ .null byEmail).after opted
    Reachable st ∧ checkSchema st ⟨0⟩ = .ok () ∧ Relation.ReflTransGen Grows st st' ∧
      checkSchema st' ⟨0⟩ = .ok () ∧ st'.ValidSchema ⟨0⟩ := by
  intro st email typed keyed doubled opted byEmail st'
  have hst : Reachable st := reachable_history _
  have hok : checkSchema st ⟨0⟩ = .ok () := by with_unfolding_all rfl
  have hfield : outcome (Edit.addField ⟨0⟩ .null email) st = (.ok ⟨2⟩, typed) :=
    outcome_eq_of_toOption (by decide +kernel)
  have hkey : outcome (Edit.primaryKey ⟨0⟩ [.text "id"]) typed = (.ok ⟨1⟩, keyed) :=
    outcome_eq_of_toOption (by decide +kernel)
  have hkeyAgain : outcome (Edit.primaryKey ⟨0⟩ [.text "id, email"]) keyed = (.ok ⟨1⟩, doubled) :=
    outcome_eq_of_toOption (by decide +kernel)
  have hoption : outcome (Edit.addOptions ⟨0⟩ [.text "ENGINE=InnoDB"]) doubled =
      (.ok ["ENGINE=InnoDB"], opted) := outcome_eq_of_toOption (by decide +kernel)
  have hindex : outcome (Edit.addIndex ⟨0⟩ .null byEmail) opted = (.ok ⟨0⟩, st') :=
    outcome_eq_of_toOption (by decide +kernel)
  have hgrows : Relation.ReflTransGen Grows st st' :=
    .tail (.tail (.tail (.tail (.single (.addField hfield (by decide +kernel)))
      (.primaryKey hkey)) (.primaryKey hkeyAgain)) (.addOptions hoption))
      (.addIndex hindex (by decide +kernel) (by decide +kernel))
  exact ⟨hst, hok, hgrows, checkSchema_of_grows hst hok hgrows⟩

end DbSchema
