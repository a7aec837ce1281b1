import DbSchema.Proofs.Document.Children
import DbSchema.Proofs.Model.Outline

/-!
# Tables in documents

A table definition that describes an outline is read as a table with that outline, beside all that
was in the store before.  Reading such definitions one after the other gives a schema that lists
tables with these outlines in the same order.

## Main definitions

* `Describes v o` — the table definition `v` describes the outline `o`.
* `TableOutline.Buildable o` — the fields of the outline have distinct names, none of them empty.
* `Loading b s name database done st` — how far the reading of a list of them has come.

## Main results

* `ensures_decodeTableBody` — reading a table definition gives a table with its outline.
* `ensures_decodeTables` — reading a list of them gives a schema that lists such tables.
-/

namespace DbSchema

/-! ### Steps of reading -/

theorem ensures_pureStep {α β : Type} {P E : Store → Prop} {R : β → Store → Prop}
    {r : Except LoadError α} {a : α} {f : α → Load β} (h : r = .ok a) (hf : Ensures P (f a) R E) :
    Ensures P (Load.pureStep r >>= f) R E := by
  rw [h, Load.pureStep, pure_bind]
  exact hf

/-- Reading the definitions of children adds one child after the other. -/
theorem ensures_decodeChildren {σ : Type} {params : Value → Except LoadError Params}
    {ofParams : Params → Except ModelError σ} {add : Params → Edit Unit}
    {P : List σ → Store → Prop} {all : List σ} {vs : List Value}
    (hadd : ∀ done spec rest, all = done ++ spec :: rest → ∀ ps, ofParams ps = .ok spec →
      Ensures (P done) (add ps) (fun _ => P (done ++ [spec])) fun _ => False)
    (h : List.Forall₂ (ReadAs params ofParams) vs all) :
    Ensures (P []) (decodeChildren params add vs) (fun _ => P all) fun _ => False := by
  -- the induction is on what is left, with what was added before it in the condition
  have hrest : ∀ {vs specs}, List.Forall₂ (ReadAs params ofParams) vs specs → ∀ done,
      all = done ++ specs →
      Ensures (P done) (decodeChildren params add vs) (fun _ => P all) fun _ => False := by
    intro vs specs h
    induction h with
    | nil =>
      intro done hall
      rw [List.append_nil] at hall
      exact .pure fun _ hs => hall ▸ hs
    | @cons v spec vs specs hv _ ih =>
      intro done hall
      obtain ⟨ps, hps, hspec⟩ := hv
      refine ensures_pureStep hps ?_
      refine Ensures.bind (hadd done spec specs hall ps hspec).adapt fun _ => ?_
      exact ih (done ++ [spec]) (by rw [hall, List.append_cons])
  exact hrest h [] rfl

/-! ### Table definitions -/

/-- The fields of the outline have names, and no name equals a later one. -/
structure TableOutline.Buildable (o : TableOutline) : Prop where
  named : ∀ x ∈ o.fields, x.name.truthy
  distinct : o.fields.Pairwise fun x y => x.name.same y.name = false

/-- The entries of a table definition describe an outline: every section is a list of definitions
that are read as the descriptions in it. -/
structure EntriesDescribe (entries : List (Value × Value)) (o : TableOutline) : Prop where
  fields : ∃ vs, sectionItems "fields" entries = .ok vs ∧
    List.Forall₂ (ReadAs fieldParams FieldSpec.ofParams) vs o.fields
  indices : ∃ vs, sectionItems "indices" entries = .ok vs ∧
    List.Forall₂ (ReadAs (childParams .index) IndexSpec.ofParams) vs o.indices
  constraints : ∃ vs, sectionItems "constraints" entries = .ok vs ∧
    List.Forall₂ (ReadAs (childParams .constraint) ConstraintSpec.ofParams) vs o.constraints
  options : if (valueAt "options" entries).truthy then
      splitNames [valueAt "options" entries] = .ok o.options
    else o.options = []

/-- The table definition describes an outline. -/
def Describes (v : Value) (o : TableOutline) : Prop :=
  ∃ entries name, partEntries .table v = .ok entries ∧ tableName entries = .ok name ∧
    o.name = .text name ∧ EntriesDescribe entries o

theorem truthy_of_tableName {entries : List (Value × Value)} {name : String}
    (h : tableName entries = .ok name) : (Value.text name).truthy := by
  rw [tableName] at h
  split at h
  · cases h
  · next hv =>
    split at h
    · next s hs =>
      cases h
      rw [hs] at hv
      simpa using hv
    · cases h

variable {b st : Store} {t : TableId} {o : TableOutline}

/-- Reading the name of a table definition makes a table with this name and nothing else. -/
theorem ensures_newTable {name : String} (hname : (Value.text name).truthy) :
    Ensures b.Extends (Load.edit (Edit.newTable { name := .text name }))
      (fun t => Drafts b t { name := .text name }) fun _ => False := by
  refine Ensures.adapt fun st hst => ?_
  obtain ⟨t, st', hnew, hdraft⟩ := drafts_newTable hst hname
  rw [hnew]
  exact hdraft

/-- Reading the fields of a buildable outline adds them to a table without any: each has a name that
the ones before it do not have. -/
theorem ensures_decodeFields {vs : List Value} (hbuild : o.Buildable)
    (h : List.Forall₂ (ReadAs fieldParams FieldSpec.ofParams) vs o.fields) :
    Ensures (Drafts b t { name := o.name })
      (decodeChildren fieldParams (fun ps => discard (Edit.addField t .null ps)) vs)
      (fun _ => Drafts b t { name := o.name, fields := o.fields }) fun _ => False := by
  refine ensures_decodeChildren (P := fun l => Drafts b t { name := o.name, fields := l })
    (fun done spec rest hall ps hps => ?_) h
  have hdistinct := hbuild.distinct
  rw [hall] at hdistinct
  have hnew : ∀ x ∈ done, x.name.same spec.name = false := fun x hx =>
    (List.pairwise_append.mp hdistinct).2.2 x hx spec List.mem_cons_self
  exact Ensures.discard (Drafts.addField hps (hbuild.named spec (by simp [hall])) hnew)

theorem ensures_decodeIndices {vs : List Value} {fields : List FieldSpec} {name : Value}
    {indices : List IndexSpec}
    (h : List.Forall₂ (ReadAs (childParams .index) IndexSpec.ofParams) vs indices) :
    Ensures (Drafts b t { name, fields })
      (decodeChildren (childParams .index) (fun ps => discard (Edit.addIndex t .null ps)) vs)
      (fun _ => Drafts b t { name, fields, indices }) fun _ => False :=
  ensures_decodeChildren (P := fun l => Drafts b t { name, fields, indices := l })
    (fun _ _ _ _ _ hps => Ensures.discard (Drafts.addIndex hps)) h

theorem ensures_decodeConstraints {vs : List Value} {fields : List FieldSpec} {name : Value}
    {indices : List IndexSpec} {constraints : List ConstraintSpec}
    (h : List.Forall₂ (ReadAs (childParams .constraint) ConstraintSpec.ofParams) vs constraints) :
    Ensures (Drafts b t { name, fields, indices })
      (decodeChildren (childParams .constraint)
        (fun ps => discard (Edit.addConstraint t .null ps)) vs)
      (fun _ => Drafts b t { name, fields, indices, constraints }) fun _ => False :=
  ensures_decodeChildren (P := fun l => Drafts b t { name, fields, indices, constraints := l })
    (fun _ _ _ _ _ hps => Ensures.discard (Drafts.addConstraint hps)) h

/-- Reading a table definition gives a new table with the outline that it describes. -/
theorem ensures_decodeTableBody {entries : List (Value × Value)} {name : String}
    (hname : tableName entries = .ok name) (ho : o.name = .text name)
    (h : EntriesDescribe entries o) (hbuild : o.Buildable) :
    Ensures b.Extends (decodeTableBody name entries) (fun t => Drafts b t o) fun _ => False := by
  obtain ⟨fields, hfields, hreadFields⟩ := h.fields
  obtain ⟨indices, hindices, hreadIndices⟩ := h.indices
  obtain ⟨constraints, hconstraints, hreadConstraints⟩ := h.constraints
  have hoptions := h.options
  refine Ensures.bind (ensures_newTable (truthy_of_tableName hname)) fun t => ?_
  rw [← ho]
  refine ensures_pureStep hfields ?_
  refine Ensures.bind (ensures_decodeFields hbuild hreadFields) fun _ => ?_
  refine ensures_pureStep hindices ?_
  refine Ensures.bind (ensures_decodeIndices hreadIndices) fun _ => ?_
  refine ensures_pureStep hconstraints ?_
  refine Ensures.bind (ensures_decodeConstraints hreadConstraints) fun _ => ?_
  -- options that are null or empty are not added, and the outline has none then
  split at hoptions
  · next htruthy =>
    have hadd : Ensures (Drafts b t { o with options := [] })
        (discard (Load.edit (Edit.addOptions t [valueAt "options" entries])))
        (fun _ => Drafts b t { o with options := [] ++ o.options }) fun _ => False :=
      Ensures.discard (Drafts.addOptions hoptions).adapt
    simp only [htruthy, if_true]
    exact Ensures.bind hadd fun _ => .pure fun _ h => h
  · next htruthy =>
    simp only [htruthy]
    refine .pure fun _ h => ?_
    rw [← hoptions] at h
    exact h

/-! ### Lists of table definitions -/

/-- How far the reading of a document has come: the store `b` is as it was, and a new schema with
the given name and database lists tables with the outlines read so far. -/
structure Loading (b : Store) (s : SchemaId) (name database : Value) (done : List TableOutline)
    (st : Store) : Prop where
  old : b.Extends st
  new : b.schemas.size ≤ s.index
  inUse : s.index < st.schemas.size
  name : (st.schema s).name = name
  database : (st.schema s).database = database
  lists : st.Lists s done

/-- A new schema starts the reading. -/
theorem loading_newSchema (st : Store) (name database : Value) :
    Loading st ⟨st.schemas.size⟩ name database []
      (st.setSchema ⟨st.schemas.size⟩ { name, database }) where
  old := (Store.Extends.refl st).setSchema le_rfl _
  new := le_rfl
  inUse := by
    rw [Store.setSchema, Slots.size_set]
    exact lt_of_lt_of_le (Nat.lt_succ_self _) (le_max_right _ _)
  name := by rw [Store.schema_setSchema_self]
  database := by rw [Store.schema_setSchema_self]
  lists := by
    rw [Store.Lists, Store.schema_setSchema_self]
    exact .nil

variable {s : SchemaId} {name database : Value} {done outlines : List TableOutline} {v : Value}

/-- A table that was built with a new name can be listed. -/
theorem Loading.listed (h : Loading b s name database done st) {st' : Store}
    (hdraft : Drafts st t o st') (hnew : ∀ o' ∈ done, o'.name.same o.name = false) :
    Loading b s name database (done ++ [o]) (Edit.listed st' s t) := by
  have hschema : st'.schema s = st.schema s := hdraft.building.old.schema_eq h.inUse
  have hname : (st'.table t).name = o.name := congrArg TableOutline.name hdraft.outline
  have hput : ((Edit.listed st' s t).schema s).tables =
      (st.schema s).tables ++ [((st'.table t).name, t)] := by
    rw [Edit.listed, Store.schema_setSchema_self, hschema, hname]
    exact Keyed.put_of_find?_eq_none (find?_of_lists h.lists hnew) t
  have ht : b.tables.size ≤ t.index :=
    h.old.tables.size_le.trans hdraft.building.new
  refine ⟨?_, h.new, ?_, ?_, ?_, ?_⟩
  · exact ((h.old.trans hdraft.building.old).setTable ht _).setSchema h.new _
  · have hsize := h.inUse.trans_le hdraft.building.old.schemas.size_le
    rw [Edit.listed, Store.setSchema, Slots.size_set]
    exact hsize.trans_le (le_max_left _ _)
  · rw [Edit.listed, Store.schema_setSchema_self, hschema]
    exact h.name
  · rw [Edit.listed, Store.schema_setSchema_self, hschema]
    exact h.database
  · rw [Store.Lists, hput]
    refine List.rel_append (h.lists.imp fun e o' he => ?_) (.cons ?_ .nil)
    · -- the table is new, so it is none of those that were listed before
      have hlt : e.2.index < st.tables.size := Store.table_lt_of_owner he.owner
      have hne : e.2 ≠ t := fun het =>
        Nat.not_lt_of_le hdraft.building.new (het ▸ hlt)
      exact (he.of_extends hdraft.building.old).of_listed hne
    · exact hdraft.outline ▸ listedAs_listed hdraft.coherent s

/-- Reading one more table definition. -/
theorem ensures_decodeTable (hv : Describes v o) (hbuild : o.Buildable)
    (hnew : ∀ o' ∈ done, o'.name.same o.name = false) :
    Ensures (Loading b s name database done) (decodeTable s v)
      (fun _ => Loading b s name database (done ++ [o])) fun _ => False := by
  obtain ⟨entries, text, hentries, htext, ho, hdescribe⟩ := hv
  refine ensures_pureStep hentries (ensures_pureStep htext (Ensures.adapt fun st h => ?_))
  obtain ⟨t, st', hbody, hdraft⟩ :=
    (ensures_decodeTableBody (b := st) htext ho hdescribe hbuild).exists_ok (.refl st)
  -- the table was named by its definition, and no table read before has that name
  have hmay : Edit.mayList st' s t = .ok () := by
    have hname : (st'.table t).name = .text text :=
      (congrArg TableOutline.name hdraft.outline).trans ho
    have hfree := find?_of_lists h.lists hnew
    rw [ho] at hfree
    rw [Edit.mayList, hname, if_pos (truthy_of_tableName htext), lookupTable,
      if_pos (by rfl), hdraft.building.old.schema_eq h.inUse, hfree]
  rw [outcome_bind, hbody]
  dsimp only
  rw [Load.edit, outcome_adapt, Edit.outcome_addTable_object, Edit.outcome_register, hmay]
  exact h.listed hdraft hnew

/-- **Reading table definitions** gives a schema that lists tables with the outlines that they
describe, in the same order. -/
theorem ensures_decodeTables {vs : List Value} (h : List.Forall₂ Describes vs outlines)
    (hbuild : ∀ o ∈ outlines, o.Buildable)
    (hnew : (done ++ outlines).Pairwise fun o o' => o.name.same o'.name = false) :
    Ensures (Loading b s name database done) (decodeTables s vs)
      (fun _ => Loading b s name database (done ++ outlines)) fun _ => False := by
  induction h generalizing done with
  | nil =>
    rw [List.append_nil]
    exact .pure fun _ h => h
  | @cons v o vs outlines hv _ ih =>
    have hfirst : ∀ o' ∈ done, o'.name.same o.name = false := fun o' ho' =>
      (List.pairwise_append.mp hnew).2.2 o' ho' o List.mem_cons_self
    rw [List.append_cons] at hnew ⊢
    have hone := @ensures_decodeTable b _ s name database done _ hv
      (hbuild o List.mem_cons_self) hfirst
    exact Ensures.bind hone.discard fun _ =>
      ih (fun o' ho' => hbuild o' (List.mem_cons_of_mem o ho')) hnew

end DbSchema
