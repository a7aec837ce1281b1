import DbSchema.Proofs.Model.Building
import DbSchema.Proofs.Model.Coherence
import Mathlib.Data.List.Forall2

/-!
# Outlines of tables

The outline of a table is what it holds apart from where that is stored: its name, the descriptions
of its children and its options.  Adding a child adds its description to the outline, and whatever
happens to other tables leaves it alone.

## Main definitions

* `TableOutline`, `Store.outline st t` — outlines.
* `Store.SameCells st st' t` — a table and its children are stored in the same way.
* `Store.Lists st s outlines` — a schema lists tables with these outlines.
* `Drafts b t o st` — the table `t`, which is being built beside `b`, has the outline `o`.

## Main results

* `fieldsOf_eq` — the fields of a table in order are the ones it lists.
* `SameCells.outline`, `sameCells_of_extends` — outlines that are left alone.
* `Drafts.addField`, `Drafts.addIndex`, `Drafts.addConstraint`, `Drafts.addOptions` — adding a child
  succeeds and adds its description.
-/

namespace DbSchema

open Edit

/-! ### The order of fields -/

/-- Sorting leaves a list alone in which no item comes before an earlier one. -/
theorem sortBy_eq_self {α : Type} {before : α → α → Except Fault Bool} {items : List α}
    (h : items.Pairwise fun a b => before b a = .ok false) : sortBy before items = .ok items := by
  have hall : ∀ l sorted : List α,
      (sorted.reverse ++ l).Pairwise (fun a b => before b a = .ok false) →
      l.foldlM (fun sorted x => insertSorted before x sorted) sorted =
        .ok (l.reverse ++ sorted) := by
    intro l
    induction l with
    | nil => exact fun _ _ => rfl
    | cons x r ih =>
      intro sorted hl
      have hins : insertSorted before x sorted = .ok (x :: sorted) := by
        rcases sorted with _ | ⟨y, ys⟩
        · rfl
        · have hxy : before x y = .ok false :=
            (List.pairwise_append.mp hl).2.2 y (by simp) x List.mem_cons_self
          rw [insertSorted, hxy]
          rfl
      rw [List.append_cons, ← List.reverse_cons] at hl
      rw [List.foldlM_cons, hins, List.reverse_cons, List.append_assoc]
      exact ih (x :: sorted) hl
  rw [sortBy, hall items [] h, List.append_nil]
  simp [bind, Except.bind, pure, Except.pure]

variable {st st' b : Store} {t : TableId}

/-- The fields of a table in order are the ones that it lists. -/
theorem Store.TableCoherent.orderedFields (h : st.TableCoherent t) :
    orderedFields st t = .ok ((st.table t).fields.map (·.2)) := by
  obtain ⟨numbers, hnum, hinc, -⟩ := h.orders
  have hsorted : ((st.table t).fields.map (·.2)).Pairwise fun f g =>
      Value.precedes (st.field g).order (st.field f).order = .ok false := by
    have hvalues : (numbers.map fun n : Nat => Value.int n).Pairwise fun v w =>
        Value.precedes w v = .ok false := by
      refine List.pairwise_map.mpr (hinc.imp fun {m n} hmn => ?_)
      have hle : ¬ ((n : Int) < m) := by omega
      simp [Value.precedes, Value.asNumber?, Value.asInt?, hle]
    rw [← hnum] at hvalues
    exact List.pairwise_map.mpr (List.pairwise_map.mp hvalues)
  rw [DbSchema.orderedFields, byOrder, sortBy_eq_self hsorted]
  rfl

theorem Store.TableCoherent.fieldsOf (h : st.TableCoherent t) (hne : (st.table t).fields ≠ []) :
    fieldsOf st t = .ok ((st.table t).fields.map (·.2)) := by
  rw [DbSchema.fieldsOf, if_neg (by simpa using hne), h.orderedFields]

/-! ### Outlines -/

/-- What a table holds, apart from where it is stored. -/
structure TableOutline where
  name : Value
  fields : List FieldSpec := []
  indices : List IndexSpec := []
  constraints : List ConstraintSpec := []
  options : List String := []

/-- The outline of a table. -/
def Store.outline (st : Store) (t : TableId) : TableOutline :=
  let x := st.table t
  { name := x.name
    fields := x.fields.map fun e => (st.field e.2).toFieldSpec
    indices := x.indices.map fun i => (st.index i).toIndexSpec
    constraints := x.constraints.map fun c => (st.constraint c).toConstraintSpec
    options := x.options }

namespace Store

/-- A table and its children are stored in the same way in two stores. -/
structure SameCells (st st' : Store) (t : TableId) : Prop where
  table : st'.table t = st.table t
  field : ∀ e ∈ (st.table t).fields, st'.field e.2 = st.field e.2
  index : ∀ i ∈ (st.table t).indices, st'.index i = st.index i
  constraint : ∀ c ∈ (st.table t).constraints, st'.constraint c = st.constraint c

namespace SameCells

theorem coherent (h : SameCells st st' t) (ht : st.TableCoherent t) : st'.TableCoherent t := by
  refine ht.of_keeps ?_
  constructor
  · rw [h.table]
  · rw [h.table]
  · rw [h.table]
  · rw [h.table]
  · rw [h.table]
    exact id
  · intro e he
    rw [h.field e he]
    exact ⟨rfl, rfl, rfl⟩
  · intro i hi
    rw [h.index i hi]
  · intro c hc
    rw [h.constraint c hc]

theorem outline (h : SameCells st st' t) : st'.outline t = st.outline t := by
  rw [Store.outline, Store.outline, h.table]
  congr 1
  · exact List.map_congr_left fun e he => by rw [h.field e he]
  · exact List.map_congr_left fun i hi => by rw [h.index i hi]
  · exact List.map_congr_left fun c hc => by rw [h.constraint c hc]

end SameCells

/-- A store that only grew holds a table of the old one as it was. -/
theorem sameCells_of_extends (h : st.Extends st') (ht : t.index < st.tables.size)
    (hc : st.TableCoherent t) : SameCells st st' t where
  table := h.table_eq ht
  field e he := h.field_eq (field_lt_of_owner (hc.field e he).1)
  index i hi := h.index_eq (index_lt_of_owner (hc.index i hi))
  constraint c hcs := h.constraint_eq (constraint_lt_of_owner (hc.constraint c hcs))

end Store

/-! ### Schemas that list tables with given outlines -/

/-- A schema lists a table under the name in the outline, and the table has that outline. -/
structure ListedAs (st : Store) (s : SchemaId) (e : Value × TableId) (o : TableOutline) :
    Prop where
  key : e.1 = o.name
  owner : (st.table e.2).owner = some s
  coherent : st.TableCoherent e.2
  outline : st.outline e.2 = o

/-- The schema lists tables with these outlines. -/
def Store.Lists (st : Store) (s : SchemaId) (outlines : List TableOutline) : Prop :=
  List.Forall₂ (ListedAs st s) (st.schema s).tables outlines

variable {s : SchemaId} {e : Value × TableId} {o : TableOutline} {outlines : List TableOutline}

theorem ListedAs.of_sameCells (h : ListedAs st s e o) (hs : Store.SameCells st st' e.2) :
    ListedAs st' s e o :=
  ⟨h.key, hs.table ▸ h.owner, hs.coherent h.coherent, hs.outline.trans h.outline⟩

/-- A store that only grew lists the same tables. -/
theorem ListedAs.of_extends (h : ListedAs st s e o) (hext : st.Extends st') :
    ListedAs st' s e o :=
  h.of_sameCells (Store.sameCells_of_extends hext (Store.table_lt_of_owner h.owner) h.coherent)

/-- Listing another table changes nothing about a table that is listed. -/
theorem ListedAs.of_listed (h : ListedAs st s e o) (hne : e.2 ≠ t) :
    ListedAs (Edit.listed st s t) s e o :=
  h.of_sameCells ⟨Store.table_setTable_of_ne _ hne _, fun _ _ => rfl, fun _ _ => rfl,
    fun _ _ => rfl⟩

/-- A table that is listed gets the schema as its owner and keeps its outline. -/
theorem listedAs_listed (ht : st.TableCoherent t) (s : SchemaId) :
    ListedAs (Edit.listed st s t) s ((st.table t).name, t) (st.outline t) where
  key := rfl
  owner := by simp [Edit.listed]
  coherent := by
    have hkeep := ht.of_keeps (Store.keepsTable_setTable (x := { st.table t with owner := some s })
      rfl rfl rfl rfl id)
    exact hkeep.of_keeps (by constructor <;> simp [Edit.listed])
  outline := by simp [Edit.listed, Store.outline]

/-- Lists with the same images match item by item. -/
theorem forall₂_of_map_eq {α β γ : Type} {f : α → γ} {g : β → γ} {l : List α} {l' : List β}
    (h : l.map f = l'.map g) : List.Forall₂ (fun a b => a ∈ l ∧ b ∈ l' ∧ f a = g b) l l' := by
  induction l generalizing l' with
  | nil =>
    rw [List.map_nil, eq_comm, List.map_eq_nil_iff] at h
    rw [h]
    exact .nil
  | cons a r ih =>
    rcases l' with _ | ⟨b, r'⟩
    · cases h
    · rw [List.map_cons, List.map_cons, List.cons.injEq] at h
      refine .cons ⟨List.mem_cons_self, List.mem_cons_self, h.1⟩ ((ih h.2).imp fun c d hcd => ?_)
      exact ⟨List.mem_cons_of_mem a hcd.1, List.mem_cons_of_mem b hcd.2.1, hcd.2.2⟩

theorem exists_of_forall₂ {α β : Type} {R : α → β → Prop} {l : List α} {l' : List β}
    (h : List.Forall₂ R l l') {a : α} (ha : a ∈ l) : ∃ b ∈ l', R a b := by
  induction h with
  | nil => cases ha
  | @cons x y l l' hxy _ ih =>
    rcases List.mem_cons.mp ha with rfl | ha
    · exact ⟨y, List.mem_cons_self, hxy⟩
    · obtain ⟨b, hb, hab⟩ := ih ha
      exact ⟨b, List.mem_cons_of_mem y hb, hab⟩

/-- A name that is in none of the outlines is free. -/
theorem find?_of_lists (h : st.Lists s outlines) {name : Value}
    (hnew : ∀ o ∈ outlines, o.name.same name = false) : (st.schema s).find? name = none := by
  refine Keyed.find?_eq_none.mpr fun e he => ?_
  obtain ⟨o, ho, hlisted⟩ := exists_of_forall₂ h he
  rw [hlisted.key]
  exact hnew o ho

/-! ### Outlines of tables that get a child -/

theorem outline_setField {f : FieldId} {x : Field} (hout : ∀ e ∈ (st.table t).fields, e.2 ≠ f) :
    (st.setField f x).outline t = st.outline t :=
  Store.SameCells.outline
    ⟨rfl, fun e he => Store.field_setField_of_ne _ (hout e he) _, fun _ _ => rfl, fun _ _ => rfl⟩

theorem outline_setIndex {i : IndexId} {x : Index} (hout : ∀ j ∈ (st.table t).indices, j ≠ i) :
    (st.setIndex i x).outline t = st.outline t :=
  Store.SameCells.outline
    ⟨rfl, fun _ _ => rfl, fun j hj => Store.index_setIndex_of_ne _ (hout j hj) _, fun _ _ => rfl⟩

theorem outline_setConstraint {c : ConstraintId} {x : Constraint}
    (hout : ∀ d ∈ (st.table t).constraints, d ≠ c) :
    (st.setConstraint c x).outline t = st.outline t :=
  Store.SameCells.outline
    ⟨rfl, fun _ _ => rfl, fun _ _ => rfl,
      fun d hd => Store.constraint_setConstraint_of_ne _ (hout d hd) _⟩

theorem outline_withField {f : FieldId} (hout : ∀ e ∈ (st.table t).fields, e.2 ≠ f) :
    (withField st t f).outline t =
      { st.outline t with fields := (st.outline t).fields ++ [(st.field f).toFieldSpec] } := by
  have hold : (st.table t).fields.map (fun e => ((withField st t f).field e.2).toFieldSpec) =
      (st.table t).fields.map fun e => (st.field e.2).toFieldSpec :=
    List.map_congr_left fun e he => by
      rw [withField, Store.field_setTable, Store.field_setField_of_ne _ (hout e he)]
  have hnew : ((withField st t f).field f).toFieldSpec = (st.field f).toFieldSpec := by
    rw [withField, Store.field_setTable, Store.field_setField_self]
  have htable : ((withField st t f).table t).fields =
      (st.table t).fields ++ [((st.field f).name, f)] := by
    rw [withField, Store.table_setTable_self]
  rw [Store.outline, htable]
  simp only [List.map_append, hold, List.map_cons, List.map_nil, hnew]
  simp [withField, Store.outline]

theorem outline_withIndex {i : IndexId} (hout : ∀ j ∈ (st.table t).indices, j ≠ i) :
    (withIndex st t i).outline t =
      { st.outline t with indices := (st.outline t).indices ++ [(st.index i).toIndexSpec] } := by
  have hold : (st.table t).indices.map (fun j => ((withIndex st t i).index j).toIndexSpec) =
      (st.table t).indices.map fun j => (st.index j).toIndexSpec :=
    List.map_congr_left fun j hj => by
      rw [withIndex, Store.index_setTable, Store.index_setIndex_of_ne _ (hout j hj)]
  have hnew : ((withIndex st t i).index i).toIndexSpec = (st.index i).toIndexSpec := by
    rw [withIndex, Store.index_setTable, Store.index_setIndex_self]
  have htable : ((withIndex st t i).table t).indices = (st.table t).indices ++ [i] := by
    rw [withIndex, Store.table_setTable_self]
  rw [Store.outline, htable]
  simp only [List.map_append, hold, List.map_cons, List.map_nil, hnew]
  simp [withIndex, Store.outline]

theorem outline_withConstraint {c : ConstraintId}
    (hout : ∀ d ∈ (st.table t).constraints, d ≠ c) :
    (withConstraint st t c).outline t =
      { st.outline t with
        constraints := (st.outline t).constraints ++ [(st.constraint c).toConstraintSpec] } := by
  have hold : (st.table t).constraints.map
      (fun d => ((withConstraint st t c).constraint d).toConstraintSpec) =
      (st.table t).constraints.map fun d => (st.constraint d).toConstraintSpec :=
    List.map_congr_left fun d hd => by
      rw [withConstraint, Store.constraint_setTable,
        Store.constraint_setConstraint_of_ne _ (hout d hd)]
  have hnew : ((withConstraint st t c).constraint c).toConstraintSpec =
      (st.constraint c).toConstraintSpec := by
    rw [withConstraint, Store.constraint_setTable, Store.constraint_setConstraint_self]
  have htable :
      ((withConstraint st t c).table t).constraints = (st.table t).constraints ++ [c] := by
    rw [withConstraint, Store.table_setTable_self]
  rw [Store.outline, htable]
  simp only [List.map_append, hold, List.map_cons, List.map_nil, hnew]
  simp [withConstraint, Store.outline]

/-! ### Building a table with an outline -/

/-- The table is being built beside the store `b`, and it has the outline. -/
structure Drafts (b : Store) (t : TableId) (o : TableOutline) (st : Store) : Prop where
  building : Building b t st
  coherent : st.TableCoherent t
  outline : st.outline t = o

/-- A new table has nothing but its name. -/
theorem drafts_newTable (h : b.Extends st) {name : Value} (hname : name.truthy) :
    ∃ t st', outcome (newTable { name }) st = (.ok t, st') ∧ Drafts b t { name } st' := by
  obtain ⟨t, st', ho, hbuild⟩ := building_newTable h name
  refine ⟨t, st', ho, hbuild, ?_, ?_⟩ <;> rw [outcome_newTable_alone, if_pos hname] at ho <;>
    cases ho
  · refine .of_childless ?_ ?_ ?_ ?_ <;> rw [Store.table_setTable_self]
    exact normalised_nil
  · simp [Store.outline]

namespace Drafts

variable {ps : Params}

/-- Adding a field whose name is new succeeds and adds its description. -/
theorem addField {spec : FieldSpec} (hps : FieldSpec.ofParams ps = .ok spec)
    (hname : spec.name.truthy) (hnew : ∀ x ∈ o.fields, x.name.same spec.name = false) :
    Ensures (Drafts b t o) (Edit.addField t .null ps)
      (fun _ => Drafts b t { o with fields := o.fields ++ [spec] }) (fun _ => False) := by
  intro st h
  have hbuild := h.building.addField ps
  -- the names of the fields in the table are those in its outline, so the new one is free
  have hmay : mayAddField (st.setField ⟨st.fields.size⟩ { toFieldSpec := spec }) t
      ⟨st.fields.size⟩ = .ok () := by
    rw [mayAddField_eq_ok_iff, Store.field_setField_self]
    obtain ⟨n, hn, -⟩ := (FieldSpec.tidy_of_ofParams hps).name
    refine ⟨hname, by rw [hn]; rfl, Keyed.find?_eq_none.mpr fun e he => ?_⟩
    have hlisted : (st.field e.2).toFieldSpec ∈ o.fields :=
      h.outline ▸ List.mem_map.mpr ⟨e, he, rfl⟩
    rw [← (h.coherent.field e he).2.1]
    exact hnew _ hlisted
  rw [outcome_addField, resolveField, outcome_newField, hps] at hbuild ⊢
  dsimp only at hbuild ⊢
  rw [hmay] at hbuild ⊢
  have hcoh := h.coherent.of_keeps (h.coherent.keeps_newField { toFieldSpec := spec })
  have hout : ∀ e ∈ ((st.setField ⟨st.fields.size⟩ { toFieldSpec := spec }).table t).fields,
      e.2 ≠ ⟨st.fields.size⟩ := h.coherent.ne_newField
  refine ⟨hbuild, hcoh.withField hout hmay, ?_⟩
  rw [outline_withField hout, Store.field_setField_self,
    outline_setField h.coherent.ne_newField, h.outline]

/-- Adding an index succeeds and adds its description. -/
theorem addIndex {spec : IndexSpec} (hps : IndexSpec.ofParams ps = .ok spec) :
    Ensures (Drafts b t o) (Edit.addIndex t .null ps)
      (fun _ => Drafts b t { o with indices := o.indices ++ [spec] }) (fun _ => False) := by
  intro st h
  have hbuild := h.building.addIndex ps
  rw [outcome_addIndex, resolveIndex, outcome_newIndex, hps] at hbuild ⊢
  have hcoh := h.coherent.of_keeps (h.coherent.keeps_newIndex { toIndexSpec := spec })
  have hout : ∀ i ∈ ((st.setIndex ⟨st.indices.size⟩ { toIndexSpec := spec }).table t).indices,
      i ≠ ⟨st.indices.size⟩ := h.coherent.ne_newIndex
  refine ⟨hbuild, hcoh.withIndex _, ?_⟩
  rw [outline_withIndex hout, Store.index_setIndex_self,
    outline_setIndex h.coherent.ne_newIndex, h.outline]

/-- Adding a constraint succeeds and adds its description. -/
theorem addConstraint {spec : ConstraintSpec} (hps : ConstraintSpec.ofParams ps = .ok spec) :
    Ensures (Drafts b t o) (Edit.addConstraint t .null ps)
      (fun _ => Drafts b t { o with constraints := o.constraints ++ [spec] })
      (fun _ => False) := by
  intro st h
  have hbuild := h.building.addConstraint ps
  rw [outcome_addConstraint, resolveConstraint, outcome_newConstraint, hps] at hbuild ⊢
  have hcoh := h.coherent.of_keeps (h.coherent.keeps_newConstraint { toConstraintSpec := spec })
  have hout : ∀ c ∈ ((st.setConstraint ⟨st.constraints.size⟩
      { toConstraintSpec := spec }).table t).constraints, c ≠ ⟨st.constraints.size⟩ :=
    h.coherent.ne_newConstraint
  refine ⟨hbuild, hcoh.withConstraint _, ?_⟩
  rw [outline_withConstraint hout, Store.constraint_setConstraint_self,
    outline_setConstraint h.coherent.ne_newConstraint, h.outline]

/-- Adding options succeeds and adds them. -/
theorem addOptions {values : List Value} {names : List String}
    (hnames : splitNames values = .ok names) :
    Ensures (Drafts b t o) (Edit.addOptions t values)
      (fun _ => Drafts b t { o with options := o.options ++ names }) (fun _ => False) := by
  intro st h
  have hbuild := h.building.addOptions values
  rw [outcome_addOptions, hnames] at hbuild ⊢
  refine ⟨hbuild, h.coherent.of_keeps (Store.keepsTable_setTable rfl rfl rfl rfl fun ho =>
    ho.append (normalised_of_splitNames hnames)), ?_⟩
  rw [← h.outline]
  simp [Store.outline]

/-- A field that is added had a description, and a name that was new. -/
theorem of_addField :
    Ensures (Drafts b t o) (Edit.addField t .null ps)
      (fun _ st => ∃ spec, FieldSpec.ofParams ps = .ok spec ∧
        (spec.name.truthy ∧ ∀ x ∈ o.fields, x.name.same spec.name = false) ∧
        Drafts b t { o with fields := o.fields ++ [spec] } st) fun _ => True := by
  intro st h
  rcases hps : FieldSpec.ofParams ps with e | spec
  · rw [outcome_addField, resolveField, outcome_newField, hps]
    trivial
  rcases hmay : mayAddField (st.setField ⟨st.fields.size⟩ { toFieldSpec := spec }) t
      ⟨st.fields.size⟩ with e | u
  · rw [outcome_addField, resolveField, outcome_newField, hps]
    dsimp only
    rw [hmay]
    trivial
  -- the names of the fields in the outline are those under which the table lists them
  · rw [mayAddField_eq_ok_iff, Store.field_setField_self] at hmay
    obtain ⟨htruthy, -, hfree⟩ := hmay
    have hnew : ∀ x ∈ o.fields, x.name.same spec.name = false := by
      intro x hx
      rw [← h.outline] at hx
      obtain ⟨e, he, rfl⟩ := List.mem_map.mp hx
      rw [(h.coherent.field e he).2.1]
      exact Keyed.find?_eq_none.mp hfree e he
    exact (addField hps htruthy hnew).weaken (fun _ h => h)
      (fun _ _ h => ⟨spec, rfl, ⟨htruthy, hnew⟩, h⟩) (fun _ h => h.elim) st h

/-- An index that is added had a description. -/
theorem of_addIndex :
    Ensures (Drafts b t o) (Edit.addIndex t .null ps)
      (fun _ st => ∃ spec, IndexSpec.ofParams ps = .ok spec ∧
        Drafts b t { o with indices := o.indices ++ [spec] } st) fun _ => True := by
  intro st h
  rcases hps : IndexSpec.ofParams ps with e | spec
  · rw [outcome_addIndex, resolveIndex, outcome_newIndex, hps]
    trivial
  · exact (addIndex hps).weaken (fun _ h => h) (fun _ _ h => ⟨spec, rfl, h⟩) (fun _ h => h.elim)
      st h

/-- A constraint that is added had a description. -/
theorem of_addConstraint :
    Ensures (Drafts b t o) (Edit.addConstraint t .null ps)
      (fun _ st => ∃ spec, ConstraintSpec.ofParams ps = .ok spec ∧
        Drafts b t { o with constraints := o.constraints ++ [spec] } st) fun _ => True := by
  intro st h
  rcases hps : ConstraintSpec.ofParams ps with e | spec
  · rw [outcome_addConstraint, resolveConstraint, outcome_newConstraint, hps]
    trivial
  · exact (addConstraint hps).weaken (fun _ h => h) (fun _ _ h => ⟨spec, rfl, h⟩)
      (fun _ h => h.elim) st h

/-- Options that are added were names. -/
theorem of_addOptions {values : List Value} :
    Ensures (Drafts b t o) (Edit.addOptions t values)
      (fun _ st => ∃ names, splitNames values = .ok names ∧
        Drafts b t { o with options := o.options ++ names } st) fun _ => True := by
  intro st h
  rcases hnames : splitNames values with r | names
  · rw [outcome_addOptions, hnames]
    trivial
  · exact (addOptions hnames).weaken (fun _ h => h) (fun _ _ h => ⟨names, rfl, h⟩)
      (fun _ h => h.elim) st h

end Drafts

end DbSchema
