import DbSchema.Proofs.Model.Atomicity
import DbSchema.Proofs.Model.Faults
import DbSchema.Proofs.Model.Ownership

/-!
# Children made from parameters

A table makes a field, an index or a constraint from parameters given by name, whatever their values
are.  Either it gets one child more, with a tidy description, or the parameters are refused with an
error that can be reported.  The way around this is a fault behind the refusal of the first
parameter that does not have its form.

## Main definitions

* `Edit.addNew t ps kind` — the table makes a child of the kind from the parameters.
* `Store.Gains st st' t c` — the table got the new child `c`, and the rest is as it was.
* `AddsOrRefuses st t ps kind` — the table gets one tidy child, or the parameters are refused.
* `ParamsEscape ps kind f` — a fault is behind the refusal of the parameters.

## Main results

* `Edit.outcome_newChild`, `Edit.outcome_addNew` — what making and adding a child comes to.
* `addsOrRefuses_iff` — parameters with any values give a child or are refused, unless a fault is
  behind the refusal.
-/

namespace DbSchema

/-! ### One definition for all kinds -/

namespace ChildKind

/-- The names of the parameters for a kind of child. -/
def parameters : ChildKind → List String
  | field => FieldSpec.parameters
  | index => IndexSpec.parameters
  | constraint => ConstraintSpec.parameters

/-- The forms that parameters for a kind of child must have, in the order in which they are looked
at. -/
def forms : ChildKind → List (String × AttributeForm)
  | field => FieldSpec.formed.map fun x => (x.key, x.form)
  | index => IndexSpec.formed.map fun x => (x.key, x.form)
  | constraint => ConstraintSpec.formed.map fun x => (x.key, x.form)

/-- Why parameters make no description of a child, unless they do. -/
def check (ps : Params) : ChildKind → Except ModelError Unit
  | field => (FieldSpec.ofParams ps).map fun _ => ()
  | index => (IndexSpec.ofParams ps).map fun _ => ()
  | constraint => (ConstraintSpec.ofParams ps).map fun _ => ()

end ChildKind

/-- The children of one kind that a table lists. -/
def Table.ofKind (x : Table) : ChildKind → List Child
  | .field => x.fields.map fun e => .field e.2
  | .index => x.indices.map .index
  | .constraint => x.constraints.map .constraint

namespace Edit

/-- Makes a child from parameters. -/
def newChild (ps : Params) : ChildKind → Edit Child
  | .field => Child.field <$> newField ps
  | .index => Child.index <$> newIndex ps
  | .constraint => Child.constraint <$> newConstraint ps

/-- Adds a child that is made from parameters to a table. -/
def addNew (t : TableId) (ps : Params) : ChildKind → Edit Child
  | .field => Child.field <$> addField t .null ps
  | .index => Child.index <$> addIndex t .null ps
  | .constraint => Child.constraint <$> addConstraint t .null ps

end Edit

namespace Store

variable (st st' : Store)

/-- There is no such child yet. -/
def Fresh : Child → Prop
  | .field f => st.fields.size ≤ f.index
  | .index i => st.indices.size ≤ i.index
  | .constraint c => st.constraints.size ≤ c.index

/-- The child has a tidy description. -/
def TidyChild : Child → Prop
  | .field f => (st.field f).toFieldSpec.Tidy
  | .index i => (st.index i).toIndexSpec.Tidy
  | .constraint c => (st.constraint c).toConstraintSpec.Tidy

/-- A child is stored in the same way in two stores. -/
def SameCell : Child → Prop
  | .field f => st'.field f = st.field f
  | .index i => st'.index i = st.index i
  | .constraint c => st'.constraint c = st.constraint c

/-- There is a new child, and the rest is as it was. -/
structure Makes (c : Child) : Prop where
  fresh : st.Fresh c
  old : st.Extends st'
  tables : ∀ u, st'.table u = st.table u
  schemas : st'.schemas = st.schemas
  rest : ∀ d, d ≠ c → st.SameCell st' d

/-- A table got a new child, at the end of the list of its kind, and the rest is as it was. -/
structure Gains (t : TableId) (c : Child) : Prop where
  fresh : st.Fresh c
  owner : st'.ownerOf c = some (.table t)
  lists : ∀ k, (st'.table t).ofKind k =
    (st.table t).ofKind k ++ if k = c.kind then [c] else []
  name : (st'.table t).name = (st.table t).name
  schema : (st'.table t).owner = (st.table t).owner
  options : (st'.table t).options = (st.table t).options
  tables : ∀ u, u ≠ t → st'.table u = st.table u
  schemas : st'.schemas = st.schemas
  rest : ∀ d, d ≠ c → st.SameCell st' d

end Store

variable {st st' : Store} {t : TableId} {kind : ChildKind} {ps : Params} {c : Child}

/-! ### Making and adding -/

namespace Store

theorem makes_setField (st : Store) (x : Field) :
    st.Makes (st.setField ⟨st.fields.size⟩ x) (.field ⟨st.fields.size⟩) where
  fresh := le_rfl
  old := (Extends.refl st).setField le_rfl x
  tables _ := rfl
  schemas := rfl
  rest d hd := by
    cases d with
    | field g => exact st.field_setField_of_ne (mt (congrArg Child.field) hd) x
    | _ => rfl

theorem makes_setIndex (st : Store) (x : Index) :
    st.Makes (st.setIndex ⟨st.indices.size⟩ x) (.index ⟨st.indices.size⟩) where
  fresh := le_rfl
  old := (Extends.refl st).setIndex le_rfl x
  tables _ := rfl
  schemas := rfl
  rest d hd := by
    cases d with
    | index j => exact st.index_setIndex_of_ne (mt (congrArg Child.index) hd) x
    | _ => rfl

theorem makes_setConstraint (st : Store) (x : Constraint) :
    st.Makes (st.setConstraint ⟨st.constraints.size⟩ x) (.constraint ⟨st.constraints.size⟩) where
  fresh := le_rfl
  old := (Extends.refl st).setConstraint le_rfl x
  tables _ := rfl
  schemas := rfl
  rest d hd := by
    cases d with
    | constraint j => exact st.constraint_setConstraint_of_ne (mt (congrArg Child.constraint) hd) x
    | _ => rfl

/-- A new child that is added to a table is what the table gains. -/
theorem Makes.gains (h : st.Makes st' c) (t : TableId) :
    st.Gains (Edit.withChild st' t c) t c where
  fresh := h.fresh
  owner := (Edit.adopts_withChild st' t c).owner_self
  lists k := by
    rw [← h.tables t]
    cases c <;> cases k <;> simp [Edit.withChild, Edit.withField, Edit.withIndex,
      Edit.withConstraint, Table.ofKind, Child.kind]
  name := h.tables t ▸ (Edit.head_withChild st' t c).1
  schema := h.tables t ▸ (Edit.head_withChild st' t c).2.1
  options := h.tables t ▸ (Edit.head_withChild st' t c).2.2
  tables u hu := (Edit.table_withChild_of_ne hu c).trans (h.tables u)
  schemas := by
    rw [← h.schemas]
    cases c <;> rfl
  rest d hd := by
    have hsame : st'.SameCell (Edit.withChild st' t c) d := by
      cases c <;> cases d <;> try rfl
      · exact st'.field_setField_of_ne (mt (congrArg Child.field) hd) _
      · exact st'.index_setIndex_of_ne (mt (congrArg Child.index) hd) _
      · exact st'.constraint_setConstraint_of_ne (mt (congrArg Child.constraint) hd) _
    cases d <;> exact Eq.trans hsame (h.rest _ hd)

/-- Adding a child to a table leaves its description. -/
theorem TidyChild.withChild (h : st.TidyChild c) (t : TableId) :
    (Edit.withChild st t c).TidyChild c := by
  cases c <;> simpa [TidyChild, Edit.withChild, Edit.withField, Edit.withIndex,
    Edit.withConstraint] using h

end Store

namespace Edit

/-- Making a child is refused for its parameters, and makes a tidy one otherwise. -/
theorem outcome_newChild (st : Store) (ps : Params) (kind : ChildKind) :
    match kind.check ps with
    | .error e => outcome (newChild ps kind) st = (.error e, st)
    | .ok () => ∃ c st', outcome (newChild ps kind) st = (.ok c, st') ∧ c.kind = kind ∧
        st.Makes st' c ∧ st'.TidyChild c := by
  cases kind with
  | field =>
    simp only [newChild, outcome_map, outcome_newField, ChildKind.check]
    rcases hspec : FieldSpec.ofParams ps with e | spec
    · rfl
    · refine ⟨_, _, rfl, rfl, st.makes_setField _, ?_⟩
      rw [Store.TidyChild, Store.field_setField_self]
      exact FieldSpec.tidy_of_ofParams hspec
  | index =>
    simp only [newChild, outcome_map, outcome_newIndex, ChildKind.check]
    rcases hspec : IndexSpec.ofParams ps with e | spec
    · rfl
    · refine ⟨_, _, rfl, rfl, st.makes_setIndex _, ?_⟩
      rw [Store.TidyChild, Store.index_setIndex_self]
      exact IndexSpec.tidy_of_ofParams hspec
  | constraint =>
    simp only [newChild, outcome_map, outcome_newConstraint, ChildKind.check]
    rcases hspec : ConstraintSpec.ofParams ps with e | spec
    · rfl
    · refine ⟨_, _, rfl, rfl, st.makes_setConstraint _, ?_⟩
      rw [Store.TidyChild, Store.constraint_setConstraint_self]
      exact ConstraintSpec.tidy_of_ofParams hspec

/-- A table adds a child that is made from parameters if it has a place for it. -/
theorem outcome_addNew (st : Store) (t : TableId) (ps : Params) (kind : ChildKind) :
    outcome (addNew t ps kind) st =
      match outcome (newChild ps kind) st with
      | (.error e, st') => (.error e, st')
      | (.ok c, st') =>
        match mayPlace st' t c with
        | .error e => (.error e, st')
        | .ok () => (.ok c, withChild st' t c) := by
  cases kind with
  | field =>
    rw [addNew, newChild, outcome_map, outcome_map, outcome_addField, resolveField]
    rcases outcome (newField ps) st with ⟨e | f, st'⟩
    · rfl
    · simp only [Except.map, mayPlace]
      rcases mayAddField st' t f with e | u <;> rfl
  | index =>
    rw [addNew, newChild, outcome_map, outcome_map, outcome_addIndex, resolveIndex]
    rcases outcome (newIndex ps) st with ⟨e | i, st'⟩ <;> rfl
  | constraint =>
    rw [addNew, newChild, outcome_map, outcome_map, outcome_addConstraint, resolveConstraint]
    rcases outcome (newConstraint ps) st with ⟨e | c, st'⟩ <;> rfl

end Edit

/-! ### Refusals -/

/-- A table gets one tidy child of the kind, or the parameters are refused with an error that is no
fault, and then everything is as it was. -/
def AddsOrRefuses (st : Store) (t : TableId) (ps : Params) (kind : ChildKind) : Prop :=
  match outcome (Edit.addNew t ps kind) st with
  | (.ok c, st') => c.kind = kind ∧ st.Gains st' t c ∧ st'.TidyChild c
  | (.error e, st') => e.fault? = none ∧ st.Extends st' ∧ ∀ u, st'.table u = st.table u

/-- A fault is behind the refusal of the first parameter that does not have its form. -/
def ParamsEscape (ps : Params) (kind : ChildKind) (f : Fault) : Prop :=
  ∃ key form v, RefusedFirst kind.forms ps key form v ∧ form.Escapes v f

/-- Parameters are refused for the first of them that does not have its form. -/
theorem ChildKind.check_error_iff (hnodup : (ps.map (·.1)).Nodup)
    (hps : ∀ p ∈ ps, p.1 ∈ kind.parameters) {e : ModelError} :
    kind.check ps = .error e ↔
      ∃ key form v, RefusedFirst kind.forms ps key form v ∧ form.check v = .error e := by
  have hmap : ∀ {σ : Type} (r : Except ModelError σ),
      r.map (fun _ => ()) = .error e ↔ r = .error e := fun r => by
    cases r <;> simp [Except.map]
  cases kind with
  | field => exact (hmap _).trans (FieldSpec.tidiesBy.specOf_error_iff FieldSpec.fillsIn hnodup hps)
  | index => exact (hmap _).trans (IndexSpec.tidiesBy.specOf_error_iff IndexSpec.fillsIn hnodup hps)
  | constraint =>
    exact (hmap _).trans
      (ConstraintSpec.tidiesBy.specOf_error_iff ConstraintSpec.fillsIn hnodup hps)

theorem paramsEscape_iff (hnodup : (ps.map (·.1)).Nodup)
    (hps : ∀ p ∈ ps, p.1 ∈ kind.parameters) {f : Fault} :
    ParamsEscape ps kind f ↔ ∃ e, kind.check ps = .error e ∧ e.fault? = some f := by
  simp only [ChildKind.check_error_iff hnodup hps, ParamsEscape, AttributeForm.escapes_iff]
  constructor
  · rintro ⟨key, form, v, hfirst, e, hcheck, hf⟩
    exact ⟨e, ⟨key, form, v, hfirst, hcheck⟩, hf⟩
  · rintro ⟨e, ⟨key, form, v, hfirst, hcheck⟩, hf⟩
    exact ⟨key, form, v, hfirst, e, hcheck, hf⟩

/-- A field whose name is a text is refused with an error that shows no more than the name. -/
theorem fault?_of_mayAddField {f : FieldId} {e : ModelError}
    (h : Edit.mayAddField st t f = .error e) (hname : IsText (st.field f).name) :
    e.fault? = none := by
  obtain ⟨s, hs⟩ := hname
  rw [Edit.mayAddField, hs] at h
  split at h
  · cases h
    rfl
  · split at h
    · next hhash => cases hhash
    · split at h <;> cases h
      rfl

theorem fault?_of_mayPlace {e : ModelError} (h : Edit.mayPlace st t c = .error e)
    (htidy : st.TidyChild c) : e.fault? = none := by
  cases c with
  | field f => exact fault?_of_mayAddField h htidy.name.isText
  | _ => cases h

/-- Parameters that make no description are refused, and nothing changes. -/
theorem outcome_addNew_of_check {e : ModelError} (h : kind.check ps = .error e) (st : Store)
    (t : TableId) : outcome (Edit.addNew t ps kind) st = (.error e, st) := by
  have hmake := Edit.outcome_newChild st ps kind
  rw [h] at hmake
  rw [Edit.outcome_addNew, hmake]

/-- Parameters that have their forms make a child, and a table adds it unless it is a field that has
no name or one that the table knows. -/
theorem addsOrRefuses_of_check (h : kind.check ps = .ok ()) : AddsOrRefuses st t ps kind := by
  have hmake := Edit.outcome_newChild st ps kind
  rw [h] at hmake
  obtain ⟨c, st', hmade, hkind, hmakes, htidy⟩ := hmake
  rw [AddsOrRefuses, Edit.outcome_addNew, hmade]
  dsimp only
  rcases hplace : Edit.mayPlace st' t c with e | ⟨⟩
  · exact ⟨fault?_of_mayPlace hplace htidy, hmakes.old, hmakes.tables⟩
  · exact ⟨hkind, hmakes.gains t, htidy.withChild t⟩

/-- **Children are made from parameters of all kinds or are refused**, with one exception: a fault
is behind the refusal of the first parameter that does not have its form.  It is the list of a size
in which an infinity comes before everything else that is no integer, or what the refusal shows has
an integer of too many digits in it. -/
theorem addsOrRefuses_iff (st : Store) (t : TableId) (hnodup : (ps.map (·.1)).Nodup)
    (hps : ∀ p ∈ ps, p.1 ∈ kind.parameters) :
    (AddsOrRefuses st t ps kind ↔ ∀ f, ¬ ParamsEscape ps kind f) ∧
      ∀ f, ParamsEscape ps kind f →
        ∃ e, outcome (Edit.addNew t ps kind) st = (.error e, st) ∧ e.fault? = some f := by
  simp only [paramsEscape_iff hnodup hps]
  rcases hcheck : kind.check ps with e | ⟨⟩
  · have hrefused := outcome_addNew_of_check hcheck st t
    refine ⟨?_, ?_⟩
    · rw [AddsOrRefuses, hrefused]
      dsimp only
      constructor
      · rintro ⟨hnone, -⟩ f ⟨e', he, hf⟩
        cases he
        cases hnone.symm.trans hf
      · intro hgoes
        refine ⟨?_, .refl st, fun _ => rfl⟩
        rcases hf : e.fault? with _ | f
        · rfl
        · exact absurd ⟨e, rfl, hf⟩ (hgoes f)
    · rintro f ⟨e', he, hf⟩
      cases he
      exact ⟨e, hrefused, hf⟩
  · refine ⟨iff_of_true (addsOrRefuses_of_check hcheck) ?_, ?_⟩
    · rintro f ⟨e, he, -⟩
      cases he
    · rintro f ⟨e, he, -⟩
      cases he

/-- The parameters of a field with an infinity in its size. -/
def infiniteSize : Params := [("name", .text "a"), ("size", .ofList [.float (.infinite false)])]

theorem paramsEscape_infiniteSize : ParamsEscape infiniteSize .field .infiniteInteger := by
  refine ⟨"size", .size, .ofList [.float (.infinite false)], ⟨by simp [infiniteSize],
    [("name", .text "field name"), ("data_type", .text "data type")], [], rfl, ?_⟩, ?_⟩
  · simp [infiniteSize, AttributeForm.check, cleanText, Except.map]
  · exact .infiniteSize (.inl rfl) ⟨[], false, [], rfl, List.forall_mem_nil _⟩

/-- A store with one table. -/
def oneTable : Store := history [.makeTable [("name", .text "t")]]

/-- Such a field is neither added nor refused with an error of its own. -/
theorem addsOrRefuses_iff_infiniteSize :
    ¬ AddsOrRefuses oneTable ⟨0⟩ infiniteSize .field ∧
      ∃ e, outcome (Edit.addNew ⟨0⟩ infiniteSize .field) oneTable = (.error e, oneTable) ∧
        e.fault? = some .infiniteInteger := by
  have hnodup : (infiniteSize.map (·.1)).Nodup := by decide
  have hknown : ∀ p ∈ infiniteSize, p.1 ∈ ChildKind.field.parameters := by decide
  obtain ⟨hiff, hescapes⟩ := addsOrRefuses_iff oneTable ⟨0⟩ hnodup hknown
  exact ⟨fun h => hiff.mp h _ paramsEscape_infiniteSize, hescapes _ paramsEscape_infiniteSize⟩

/-- It is not so that every table adds one child or refuses the parameters with an error of its
own. -/
theorem not_addsOrRefuses_infiniteSize :
    ¬ ∀ (st : Store) (t : TableId) (kind : ChildKind) (ps : Params), Reachable st →
      t.index < st.tables.size → (ps.map (·.1)).Nodup → (∀ p ∈ ps, p.1 ∈ kind.parameters) →
      AddsOrRefuses st t ps kind := by
  intro h
  have hfield := h oneTable ⟨0⟩ .field infiniteSize (reachable_history _) (by decide) (by decide)
    (by decide)
  have hcheck : ChildKind.field.check infiniteSize = .error (.fault .infiniteInteger) := rfl
  rw [AddsOrRefuses, outcome_addNew_of_check hcheck] at hfield
  cases hfield.1

end DbSchema
