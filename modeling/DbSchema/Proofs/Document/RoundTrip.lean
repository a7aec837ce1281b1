import DbSchema.Model.Attributes
import DbSchema.Proofs.Document.Written
import DbSchema.Proofs.Model.Verdicts

/-!
# Schemas that are written and read again

A schema whose attributes have values of the declared types, and whose tables are listed under their
names and belong to it, is read from its document as it was: with the same name and database, with
the same tables in the same order, and in each of them with equal fields, indices, constraints and
options.  The check of the schema that was read gives the same verdict.

## Main definitions

* `Store.Exportable st s` — what is asked of the schema.
* `rereadOutline st t` — the outline of a table that is read again.
* `SameTable st st' t t'` — two tables have equal children in the same order and the same options.

## Main results

* `settledSchema_eq_reread` — the outline that is read again is the one that was written.
* `exists_reread` — the schema is written, and read as a new schema with this outline.
* `decode_encode` — the schema that is read is the one that was written.
-/

namespace DbSchema

variable {st st' : Store} {s s' : SchemaId}

/-! ### Schemas with values of the declared types -/

/-- A table is listed under its name and belongs to the schema, it has fields, and the attributes of
its children have values of the declared types. -/
structure Store.ExportableTable (st : Store) (s : SchemaId) (e : Value × TableId) : Prop where
  key : (st.table e.2).name = e.1
  name : IsText e.1
  owner : (st.table e.2).owner = some s
  fields : (st.table e.2).fields ≠ []
  field : ∀ d ∈ (st.table e.2).fields, (st.field d.2).toFieldSpec.Declared
  constraint : ∀ c ∈ (st.table e.2).constraints, (st.constraint c).toConstraintSpec.Declared

instance (st : Store) (s : SchemaId) (e : Value × TableId) : Decidable (st.ExportableTable s e) :=
  -- keys of any shape cannot be compared, but those that are texts can
  decidable_of_iff ((IsText e.1 ∧ (st.table e.2).name.asText? = e.1.asText?) ∧
    (st.table e.2).owner = some s ∧ (st.table e.2).fields.length ≠ 0 ∧
    (∀ d ∈ (st.table e.2).fields, (st.field d.2).toFieldSpec.Declared) ∧
    ∀ c ∈ (st.table e.2).constraints, (st.constraint c).toConstraintSpec.Declared)
    ⟨fun ⟨⟨⟨n, hn⟩, hkey⟩, howner, hne, hfield, hconstraint⟩ =>
      ⟨(Value.eq_text_of_asText? (hkey.trans (congrArg _ hn))).trans hn.symm, ⟨n, hn⟩, howner,
        fun h => hne (congrArg _ h), hfield, hconstraint⟩,
      fun h => ⟨⟨h.name, congrArg _ h.key⟩, h.owner,
        fun h' => h.fields (List.length_eq_zero_iff.mp h'), h.field, h.constraint⟩⟩

/-- The schema has tables, all of which can be written, and its name and database are texts. -/
structure Store.Exportable (st : Store) (s : SchemaId) : Prop where
  name : IsText (st.schema s).name
  database : IsText (st.schema s).database
  tables : (st.schema s).tables ≠ []
  table : ∀ e ∈ (st.schema s).tables, st.ExportableTable s e

instance (st : Store) (s : SchemaId) : Decidable (st.Exportable s) :=
  decidable_of_iff (IsText (st.schema s).name ∧ IsText (st.schema s).database ∧
    (st.schema s).tables.length ≠ 0 ∧ ∀ e ∈ (st.schema s).tables, st.ExportableTable s e)
    ⟨fun ⟨hname, hdatabase, hne, htable⟩ =>
      ⟨hname, hdatabase, fun h => hne (congrArg _ h), htable⟩,
      fun h => ⟨h.name, h.database, fun h' => h.tables (List.length_eq_zero_iff.mp h'), h.table⟩⟩

/-- Such a table can be written in any history. -/
theorem Store.ExportableTable.writable (hst : Reachable st) {e : Value × TableId}
    (he : e ∈ (st.schema s).tables) (h : st.ExportableTable s e) : st.WritableTable e.2 :=
  have hcoh := coherent_of_reachable hst
  { coherent := hcoh.table e.2
    name := h.key ▸ h.name
    -- a listed table has a name, so its definition is not refused for the lack of one
    named := listsNamed_of_reachable hst s e he
    fields := h.fields
    field := fun d _ => hcoh.fieldTidy d.2
    index := fun i _ => hcoh.indexTidy i
    constraint := fun c _ => (hcoh.constraintTidy c).nearly
    trimmed := fun c _ => (hcoh.constraintTidy c).name }

/-- So can such a schema. -/
theorem Store.Exportable.writable (hst : Reachable st) (h : st.Exportable s) : st.Writable s where
  tables := h.tables
  table e he := (h.table e he).writable hst he
  distinct := by
    refine ((coherent_of_reachable hst).keys s).imp_of_mem fun {e e'} he he' hne => ?_
    rw [(h.table e he).key, (h.table e' he').key]
    exact hne

/-! ### Outlines that are read again -/

/-- The outline of a table that is read again. -/
def rereadOutline (st : Store) (t : TableId) : TableOutline :=
  { st.outline t with fields := (st.table t).fields.map fun e => rereadField st e.2 }

/-- What a table with values of the declared types holds is settled. -/
theorem settledOutline_eq_rereadOutline {e : Value × TableId} (h : st.ExportableTable s e) :
    settledOutline st e.2 = rereadOutline st e.2 := by
  have hfields : (st.table e.2).fields.map (fun d =>
      (st.field d.2).toFieldSpec.settle (.field d.2)) =
      (st.table e.2).fields.map fun d => rereadField st d.2 :=
    List.map_congr_left fun d hd => settle_eq_rereadField (h.field d hd)
  have hconstraints : (st.table e.2).constraints.map (fun c =>
      (st.constraint c).toConstraintSpec.settle (.constraint c)) =
      (st.table e.2).constraints.map fun c => (st.constraint c).toConstraintSpec :=
    List.map_congr_left fun c hc => ConstraintSpec.settle_eq_self (h.constraint c hc) _
  rw [settledOutline, hfields, hconstraints]
  rfl

/-- So are the name and the database of a schema. -/
theorem settledSchema_eq_reread (h : st.Exportable s) :
    settledSchema st s = ⟨(st.schema s).name, (st.schema s).database,
      (st.schema s).tables.map fun e => rereadOutline st e.2⟩ := by
  rw [settledSchema, h.name.settledText_eq, h.database.settledText_eq,
    List.map_congr_left fun e he => settledOutline_eq_rereadOutline (h.table e he)]

/-- A schema that can be written is read from its document as a new schema with its outline. -/
theorem exists_reread (hst : Reachable st) (h : st.Exportable s) (path : String) (st₀ : Store) :
    ∃ v s' st', encodeSchema st s = .ok v ∧ outcome (decodeDocument path v) st₀ = (.ok s', st') ∧
      Loading st₀ s' (st.schema s).name (st.schema s).database
        ((st.schema s).tables.map fun e => rereadOutline st e.2) st' := by
  have hwritable := h.writable hst
  obtain ⟨v, hencode, hdescribe⟩ := describes_encodeSchema hwritable
  have hbuild := hwritable.buildable
  rw [settledSchema_eq_reread h] at hdescribe hbuild
  obtain ⟨s', st', hdecode, -, hload⟩ :=
    (ensures_decodeDocument hdescribe hbuild path st₀).exists_ok rfl
  exact ⟨v, s', st', hencode, hdecode, hload⟩

/-! ### Equal children -/

theorem sameAttributes_self {ps : Params} (h : ∀ p ∈ ps, p.2.same p.2) : sameAttributes ps ps := by
  refine Value.sameAll_self fun v hv => ?_
  obtain ⟨p, hp, rfl⟩ := List.mem_map.mp hv
  exact h p hp

theorem IsText.isPlain {v : Value} (h : IsText v) : v.isPlain := by
  obtain ⟨s, rfl⟩ := h
  rfl

theorem IsFlag.isPlain {v : Value} (h : IsFlag v) : v.isPlain := by
  obtain ⟨b, rfl⟩ := h
  rfl

theorem IsNameList.isPlain {v : Value} (h : IsNameList v) : v.isPlain := by
  obtain ⟨ns, rfl, -⟩ := h
  exact Value.isPlain_ofTexts ns

theorem IndexSpec.Tidy.sameAttributes {x : IndexSpec} (h : x.Tidy) :
    sameAttributes x.attributes x.attributes := by
  refine sameAttributes_self fun p hp => ?_
  obtain ⟨k, hk⟩ := h.kind
  simp only [IndexSpec.attributes, List.mem_cons, List.not_mem_nil, or_false] at hp
  rcases hp with rfl | rfl | rfl | rfl
  · exact Value.same_self h.name.isText.isPlain
  · exact Value.same_self h.fields.isPlain
  · rw [hk, Value.same]
    exact beq_self_eq_true k
  · exact Value.same_self h.options.isPlain

theorem ConstraintSpec.Tidy.sameAttributes {x : ConstraintSpec} (h : x.Tidy) (hd : x.Declared) :
    sameAttributes x.attributes x.attributes := by
  refine sameAttributes_self fun p hp => ?_
  simp only [ConstraintSpec.attributes, List.mem_cons, List.not_mem_nil, or_false] at hp
  rcases hp with rfl | rfl | rfl | rfl | rfl | rfl | rfl | rfl | rfl | rfl | rfl
  · exact Value.same_self h.name.isText.isPlain
  · rcases h.kind with hk | ⟨k, hk⟩
    · rw [hk]
      exact (Value.same_null _).mpr rfl
    · rw [hk, Value.same]
      exact beq_self_eq_true k
  · exact Value.same_self h.fields.isPlain
  · exact Value.same_self hd.referenceTable.isPlain
  · exact Value.same_self h.referenceFields.isPlain
  · exact Value.same_self hd.expression.isPlain
  · exact Value.same_self hd.onDelete.isPlain
  · exact Value.same_self hd.onUpdate.isPlain
  · exact Value.same_self hd.matchType.isPlain
  · exact Value.same_self hd.deferrable.isPlain
  · exact Value.same_self h.options.isPlain

/-- A plain value equals itself when it is known to be an attribute. -/
theorem same_slotValue {v : Value} (h : v.isPlain) (owner : Ref) (name : String) :
    v.same (slotValue owner name v) := by
  rw [slotValue, Value.same_markedAs]
  exact Value.same_self h

/-- A field that is read again equals the one that was written. -/
theorem sameAttributes_rereadField {f : FieldId} (h : (st.field f).toFieldSpec.Tidy)
    (hd : (st.field f).toFieldSpec.Declared) :
    sameAttributes (st.field f).attributes (rereadField st f).attributes := by
  have hsize : (st.field f).size.isPlain := by
    obtain ⟨ns, hns⟩ := h.size
    rw [hns]
    exact Value.isPlain_ofInts ns
  -- an empty mapping is left out and read as a new one
  have hextra : (st.field f).extra.same (rereadField st f).extra := by
    obtain ⟨entries, m, hm, hplain⟩ := hd.extra
    by_cases htruthy : (st.field f).extra.truthy
    · simp only [rereadField, htruthy, if_true]
      exact same_slotValue (hm ▸ hplain) _ _
    · simp only [rereadField, htruthy, Bool.false_eq_true, if_false]
      rw [hm] at htruthy ⊢
      have hnone : entries = [] := by simpa [Value.truthy] using htruthy
      rw [hnone, Value.same, Value.eachEntryIn]
      rfl
  have hdefault : (st.field f).default.same (rereadField st f).default :=
    same_slotValue hd.default _ _
  have hcomments : (st.field f).comments.same (rereadField st f).comments :=
    same_slotValue hd.comments _ _
  simp only [sameAttributes, FieldSpec.attributes, List.map_cons, List.map_nil, Value.sameAll,
    hextra, hdefault, hcomments, Bool.and_true, Bool.and_eq_true, true_and]
  exact ⟨Value.same_self h.name.isText.isPlain, Value.same_self h.dataType.isText.isPlain,
    Value.same_self hsize, Value.same_self hd.nullable.isPlain,
    Value.same_self hd.autoIncrement.isPlain⟩

/-! ### Reading what was written -/

/-- Two tables have the same name and options, and equal fields, indices and constraints in the same
order. -/
structure SameTable (st st' : Store) (t t' : TableId) : Prop where
  name : (st'.table t').name = (st.table t).name
  fields : ∃ fs fs', fieldsOf st t = .ok fs ∧ fieldsOf st' t' = .ok fs' ∧
    List.Forall₂ (fun f f' => sameAttributes (st.field f).attributes (st'.field f').attributes)
      fs fs'
  indices : List.Forall₂
    (fun i i' => sameAttributes (st.index i).attributes (st'.index i').attributes)
    (st.table t).indices (st'.table t').indices
  constraints : List.Forall₂
    (fun c c' => sameAttributes (st.constraint c).attributes (st'.constraint c').attributes)
    (st.table t).constraints (st'.table t').constraints
  options : (st'.table t').options = (st.table t).options

section

variable {e e' : Value × TableId} (hst : st.Coherent) (he : st.ExportableTable s e)
  (he' : ListedAs st' s' e' (rereadOutline st e.2))
include hst he he'

theorem alike_reread : Alike st s st' s' e e' where
  key := he.key.symm.trans he'.key.symm
  owner := he.owner
  owner' := he'.owner
  coherent := hst.table e.2
  coherent' := he'.coherent
  rules := by
    rw [he'.outline]
    exact ⟨rfl, by simp only [Store.outline, rereadOutline, List.map_map]; rfl, rfl, rfl⟩
  named := by
    refine ⟨fun x hx => ?_, fun x hx => ?_, fun x hx => ?_⟩
    · obtain ⟨d, -, rfl⟩ := List.mem_map.mp hx
      exact (hst.fieldTidy d.2).name.isText
    · obtain ⟨i, -, rfl⟩ := List.mem_map.mp hx
      exact (hst.indexTidy i).name.isText
    · obtain ⟨c, -, rfl⟩ := List.mem_map.mp hx
      exact (hst.constraintTidy c).name.isText

theorem sameTable_reread : SameTable st st' e.2 e'.2 where
  name := congrArg TableOutline.name he'.outline
  fields := by
    have hfields : (st.table e.2).fields.map (fun d => rereadField st d.2) =
        (st'.table e'.2).fields.map fun d => (st'.field d.2).toFieldSpec :=
      (congrArg TableOutline.fields he'.outline).symm
    have hne : (st'.table e'.2).fields ≠ [] := fun hnil => by
      rw [hnil, List.map_nil, List.map_eq_nil_iff] at hfields
      exact he.fields hfields
    refine ⟨_, _, (hst.table e.2).fieldsOf he.fields, he'.coherent.fieldsOf hne,
      List.forall₂_map_left_iff.mpr (List.forall₂_map_right_iff.mpr ?_)⟩
    refine (forall₂_of_map_eq hfields).imp fun d d' hd => ?_
    obtain ⟨hmem, -, hsame⟩ := hd
    rw [← hsame]
    exact sameAttributes_rereadField (hst.fieldTidy d.2) (he.field d hmem)
  indices := by
    have hindices : (st.table e.2).indices.map (fun i => (st.index i).toIndexSpec) =
        (st'.table e'.2).indices.map fun i => (st'.index i).toIndexSpec :=
      (congrArg TableOutline.indices he'.outline).symm
    refine (forall₂_of_map_eq hindices).imp fun i i' hi => ?_
    rw [← hi.2.2]
    exact (hst.indexTidy i).sameAttributes
  constraints := by
    have hconstraints : (st.table e.2).constraints.map
        (fun c => (st.constraint c).toConstraintSpec) =
        (st'.table e'.2).constraints.map fun c => (st'.constraint c).toConstraintSpec :=
      (congrArg TableOutline.constraints he'.outline).symm
    refine (forall₂_of_map_eq hconstraints).imp fun c c' hc => ?_
    rw [← hc.2.2]
    exact (hst.constraintTidy c).sameAttributes (he.constraint c hc.1)
  options := congrArg TableOutline.options he'.outline

end

/-- **What is written is read as it was.**  The document of a schema that can be written is read
into any store without an error, and gives a schema with the same name and database, with the same
table names in the same order and with equal tables.  Checking the two schemas gives the same
verdict, with the same first error. -/
theorem decode_encode (hst : Reachable st) (h : st.Exportable s) (path : String) (st₀ : Store) :
    ∃ v s' st' tables tables',
      encodeSchema st s = .ok v ∧ outcome (decodeDocument path v) st₀ = (.ok s', st') ∧
      (st'.schema s').name = (st.schema s).name ∧
      (st'.schema s').database = (st.schema s).database ∧
      tableNames st' s' = tableNames st s ∧
      tablesOf st s = .ok tables ∧ tablesOf st' s' = .ok tables' ∧
      List.Forall₂ (SameTable st st') tables tables' ∧
      checkSchema st' s' = checkSchema st s := by
  have hcoh := coherent_of_reachable hst
  obtain ⟨v, s', st', hencode, hdecode, hload⟩ := exists_reread hst h path st₀
  -- the tables of the two schemas are matched by the outline that was written and read
  have hlisted : List.Forall₂ (fun e e' => st.ExportableTable s e ∧
      ListedAs st' s' e' (rereadOutline st e.2)) (st.schema s).tables (st'.schema s').tables :=
    (List.forall₂_and_left _ _).mpr ⟨h.table, (List.forall₂_map_right_iff.mp hload.lists).flip⟩
  have halike : List.Forall₂ (Alike st s st' s') (st.schema s).tables (st'.schema s').tables :=
    hlisted.imp fun _ _ he => alike_reread hcoh he.1 he.2
  have hsame : List.Forall₂ (fun e e' => SameTable st st' e.2 e'.2) (st.schema s).tables
      (st'.schema s').tables := hlisted.imp fun _ _ he => sameTable_reread hcoh he.1 he.2
  have hne : (st'.schema s').tables ≠ [] := fun hnil => by
    rw [hnil, List.forall₂_nil_right_iff] at hlisted
    exact h.tables hlisted
  refine ⟨v, s', st', _, _, hencode, hdecode, hload.name, hload.database, ?_,
    tablesOf_eq h.tables, tablesOf_eq hne,
    List.forall₂_map_left_iff.mpr (List.forall₂_map_right_iff.mpr hsame),
    (checkSchema_congr halike).symm⟩
  rw [tableNames, tableNames, ← List.forall₂_eq_eq_eq]
  exact List.forall₂_map_left_iff.mpr (List.forall₂_map_right_iff.mpr
    (halike.flip.imp fun _ _ he => he.key.symm))

/-- A schema `shop` with one table, in which there are two fields, an index and a primary key, is
read from its document into the store that holds it, as a second schema that is as valid as the
first. -/
theorem decode_encode_of_shop :
    let st := history [.makeSchema (.text "shop") (.text "mysql"),
      .addTable ⟨0⟩ .null [("name", .text "users")],
      .addField ⟨0⟩ .null [("name", .text "id"), ("data_type", .text "int"),
        ("is_auto_increment", .bool true)],
      .addField ⟨0⟩ .null [("name", .text "note"), ("data_type", .text "varchar"),
        ("size", .ofInts [20]), ("default_value", .text "none")],
      .addIndex ⟨0⟩ .null [("fields", .ofTexts ["note"]), ("type", .text "unique")],
      .primaryKey ⟨0⟩ [.text "id"]]
    Reachable st ∧ st.Exportable ⟨0⟩ ∧
      ∃ v s' st', encodeSchema st ⟨0⟩ = .ok v ∧
        outcome (decodeDocument "shop.yaml" v) st = (.ok s', st') ∧
        (tableNames st' s').map Value.asText? = [some "users"] ∧
        (checkSchema st' s').toOption.isSome := by
  intro st
  have hst : Reachable st := reachable_history _
  have h : st.Exportable ⟨0⟩ := by decide +kernel
  have hnames : (tableNames st ⟨0⟩).map Value.asText? = [some "users"] := by decide +kernel
  have hvalid : (checkSchema st ⟨0⟩).toOption.isSome := by decide +kernel
  obtain ⟨v, s', st', -, -, hencode, hdecode, -, -, hnames', -, -, -, hcheck⟩ :=
    decode_encode hst h "shop.yaml" st
  refine ⟨hst, h, v, s', st', hencode, hdecode, ?_, ?_⟩
  · rw [hnames', hnames]
  · rw [hcheck, hvalid]

end DbSchema
