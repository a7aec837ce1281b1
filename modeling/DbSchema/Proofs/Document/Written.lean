import DbSchema.Proofs.Document.Accepted
import DbSchema.Proofs.Model.Sound

/-!
# Schemas that are written

A schema with tables, all of which have names and fields, is written as a document that describes
its settled outline: the outline of the schema, in which what counts as false or as empty is the
default that it was left out for.

## Main definitions

* `Store.LegibleTable st t`, `Store.Legible st s` — what is asked of a table and of a schema.
* `Store.WritableTable st t`, `Store.Writable st s` — the same, with tidy names of constraints.
* `SchemaOutline.Filled o` — the outline has tables, all of which have fields.
* `settledOutline st t`, `settledSchema st s` — the outlines that are read again.

## Main results

* `encodeTable_eq`, `encodeSchema_eq` — the entries of what is written.
* `describes_encodeTable`, `describes_encodeSchema` — what is written describes the settled outline.
* `Store.Writable.buildable` — a schema with such an outline can be built.
* `DescribesSchema.writable`, `filled_of_encodeSchema` — a schema that was read can be written
  exactly when it has tables and these have fields.
-/

namespace DbSchema

variable {st : Store} {s : SchemaId} {t : TableId}

/-! ### Sections of a mapping -/

theorem lookup_entryIf (c : Bool) (key name : String) (v : Value) :
    (entryIf c name v).lookup key = if c && key == name then some v else none := by
  cases c
  · rfl
  · by_cases h : key = name <;> simp [entryIf, h]

theorem valueAt_pairs (key : String) (pairs : List (String × Value)) :
    valueAt key (pairs.map fun p => (.text p.1, p.2)) = (pairs.lookup key).getD .null := by
  rw [valueAt, entry?_pairs]

/-- A section that is left out when it has no items. -/
theorem sectionItems_of_lookup {key : String} {pairs : List (String × Value)} {vs : List Value}
    (h : pairs.lookup key = if !vs.isEmpty then some (.ofList vs) else none) :
    sectionItems key (pairs.map fun p => (.text p.1, p.2)) = .ok vs := by
  rw [sectionItems, valueAt_pairs, h]
  cases vs <;> rfl

/-- Objects that can be written one by one become values that can be read one by one. -/
theorem encodeAll_forall₂ {α σ : Type} {encode : α → Except ModelError Value} {f : α → σ}
    {R : Value → σ → Prop} {l : List α} (h : ∀ a ∈ l, ∃ v, encode a = .ok v ∧ R v (f a)) :
    ∃ vs, encodeAll encode l = .ok vs ∧ List.Forall₂ R vs (l.map f) := by
  induction l with
  | nil => exact ⟨[], rfl, .nil⟩
  | cons a r ih =>
    obtain ⟨v, hv, hR⟩ := h a List.mem_cons_self
    obtain ⟨vs, hvs, hall⟩ := ih fun b hb => h b (List.mem_cons_of_mem a hb)
    refine ⟨v :: vs, ?_, .cons hR hall⟩
    rw [encodeAll, hv, hvs]
    rfl

/-! ### Schemas that can be written -/

/-- A sound table has a name and fields. -/
structure Store.LegibleTable (st : Store) (t : TableId) : Prop extends st.SoundTable t where
  name : IsText (st.table t).name
  named : (st.table t).name.truthy
  fields : (st.table t).fields ≠ []

/-- The names of its constraints are tidy as well. -/
structure Store.WritableTable (st : Store) (t : TableId) : Prop extends st.LegibleTable t where
  trimmed : ∀ c ∈ (st.table t).constraints, IsTrimmedText (st.constraint c).name

/-- A schema has tables, all of which can be written, under names that differ; the names of
constraints may be trimmed when they are read again. -/
structure Store.Legible (st : Store) (s : SchemaId) : Prop where
  tables : (st.schema s).tables ≠ []
  table : ∀ e ∈ (st.schema s).tables, st.LegibleTable e.2
  distinct : (st.schema s).tables.Pairwise fun e e' =>
    (st.table e.2).name.same (st.table e'.2).name = false

/-- A schema has tables, all of which can be written and read again, under names that differ. -/
structure Store.Writable (st : Store) (s : SchemaId) : Prop where
  tables : (st.schema s).tables ≠ []
  table : ∀ e ∈ (st.schema s).tables, st.WritableTable e.2
  distinct : (st.schema s).tables.Pairwise fun e e' =>
    (st.table e.2).name.same (st.table e'.2).name = false

theorem Store.Writable.legible (h : st.Writable s) : st.Legible s :=
  ⟨h.tables, fun e he => (h.table e he).toLegibleTable, h.distinct⟩

/-! ### What was read can be written -/

/-- The outline has tables, all of which have fields. -/
structure SchemaOutline.Filled (o : SchemaOutline) : Prop where
  tables : o.tables ≠ []
  fields : ∀ t ∈ o.tables, t.fields ≠ []

/-- A table with a tidy outline is sound. -/
theorem ListedAs.sound {e : Value × TableId} {o : TableOutline} (h : ListedAs st s e o)
    (htidy : o.Tidy) : st.SoundTable e.2 := by
  obtain ⟨-, -, hcoh, rfl⟩ := h
  exact
    { coherent := hcoh
      field := fun d hd => htidy.field _ (List.mem_map_of_mem hd)
      index := fun i hi => htidy.index _ (List.mem_map_of_mem hi)
      constraint := fun c hc => (htidy.constraint _ (List.mem_map_of_mem hc)).nearly }

/-- If it has fields, it can be written. -/
theorem ListedAs.writable {e : Value × TableId} {o : TableOutline} (h : ListedAs st s e o)
    (htidy : o.Tidy) (hfields : o.fields ≠ []) : st.WritableTable e.2 := by
  have hsound := h.sound htidy
  obtain ⟨-, -, -, rfl⟩ := h
  exact
    { hsound with
      name := htidy.name
      named := htidy.named
      fields := fun hnil => hfields (by rw [Store.outline, hnil, List.map_nil])
      trimmed := fun c hc => (htidy.constraint _ (List.mem_map_of_mem hc)).name }

variable {b : Store} {o : SchemaOutline} {v : Value}

/-- A schema that is read can be written, if it has tables and these have fields. -/
theorem DescribesSchema.writable (h : DescribesSchema v o) (hbuild : o.Buildable)
    (hfilled : o.Filled) (hload : Loading b s o.name o.database o.tables st) : st.Writable s where
  tables hnil := by
    have hlists := hload.lists
    rw [Store.Lists, hnil, List.forall₂_nil_left_iff] at hlists
    exact hfilled.tables hlists
  table e he := by
    obtain ⟨x, hx, hlisted⟩ := exists_of_forall₂ hload.lists he
    exact hlisted.writable (h.tidy x hx) (hfilled.fields x hx)
  distinct := by
    have hdistinct := hbuild.distinct
    rw [← hload.schemaOutline_eq] at hdistinct
    exact List.pairwise_map.mp hdistinct

/-! ### Tables -/

/-- The outline of a table that is read again. -/
def settledOutline (st : Store) (t : TableId) : TableOutline :=
  { st.outline t with
    fields := (st.table t).fields.map fun e => (st.field e.2).toFieldSpec.settle (.field e.2)
    constraints := (st.table t).constraints.map fun c =>
      (st.constraint c).toConstraintSpec.settle (.constraint c) }

/-- The outline with trimmed names of constraints. -/
def TableOutline.trimmed (o : TableOutline) : TableOutline :=
  { o with constraints := o.constraints.map ConstraintSpec.trimmed }

theorem trimmed_settledOutline (h : st.WritableTable t) :
    (settledOutline st t).trimmed = settledOutline st t := by
  have hconstraints : (settledOutline st t).constraints.map ConstraintSpec.trimmed =
      (settledOutline st t).constraints.map id := by
    refine List.map_congr_left fun x hx => ?_
    obtain ⟨c, hc, rfl⟩ := List.mem_map.mp hx
    exact ConstraintSpec.trimmed_eq (h.trimmed c hc)
  rw [TableOutline.trimmed, hconstraints, List.map_id]

/-- The entries of a table, where its children are written already. -/
def tableEntries (name : String) (options : List String) (fields indices constraints : List Value) :
    List (String × Value) :=
  entryIf true "table" (.text name) ++ entryIf (!options.isEmpty) "options" (.ofTexts options) ++
    entryIf true "fields" (.ofList fields) ++
    entryIf (!indices.isEmpty) "indices" (.ofList indices) ++
    entryIf (!constraints.isEmpty) "constraints" (.ofList constraints)

/-- The entries of a table describe an outline as soon as the children in them do. -/
theorem entriesDescribe_tableEntries {name : String} {fields indices constraints : List Value}
    {o : TableOutline} (hoptions : Normalised o.options)
    (hfields : List.Forall₂ (ReadAs fieldParams FieldSpec.ofParams) fields o.fields)
    (hindices : List.Forall₂ (ReadAs (childParams .index) IndexSpec.ofParams) indices o.indices)
    (hconstraints : List.Forall₂ (ReadAs (childParams .constraint) ConstraintSpec.ofParams)
      constraints o.constraints) (hne : fields ≠ []) :
    EntriesDescribe ((tableEntries name o.options fields indices constraints).map fun p =>
      (.text p.1, p.2)) o where
  fields := ⟨fields, sectionItems_of_lookup
    (by simp [tableEntries, List.lookup_append, lookup_entryIf, hne]), hfields⟩
  indices := ⟨indices, sectionItems_of_lookup
    (by simp [tableEntries, List.lookup_append, lookup_entryIf]), hindices⟩
  constraints := ⟨constraints, sectionItems_of_lookup
    (by simp [tableEntries, List.lookup_append, lookup_entryIf]), hconstraints⟩
  options := by
    have hvalue : valueAt "options" ((tableEntries name o.options fields indices constraints).map
        fun p => (.text p.1, p.2)) =
        if !o.options.isEmpty then .ofTexts o.options else .null := by
      rw [valueAt_pairs]
      by_cases h : o.options = [] <;>
        simp [tableEntries, List.lookup_append, lookup_entryIf, h]
    rw [hvalue]
    rcases h : o.options with _ | ⟨n, r⟩
    · rfl
    · rw [h] at hoptions
      have hread := splitNames_texts (n :: r) .own
      rw [normalizeNames_eq_self hoptions] at hread
      exact hread

/-- The mapping of a table, where its indices and constraints are written already. -/
theorem encodeTable_eq (h : st.LegibleTable t) {name : String} {indices constraints : List Value}
    (hn : (st.table t).name = .text name)
    (hindices : encodeAll (encodeIndex st) (st.table t).indices = .ok indices)
    (hconstraints : encodeAll (encodeConstraint st) (st.table t).constraints = .ok constraints) :
    encodeTable st t = .ok (.ofPairs (tableEntries name (st.table t).options
      ((st.table t).fields.map fun d => encodeField st d.2) indices constraints)) := by
  rw [encodeTable, h.coherent.fieldsOf h.fields]
  simp only [bind, Except.bind, hindices, hconstraints, hn, List.map_map]
  rfl

/-- The mapping of a table describes its settled outline, with trimmed names of constraints. -/
theorem describes_encodeTable (h : st.LegibleTable t) :
    ∃ v, encodeTable st t = .ok v ∧ Describes v (settledOutline st t).trimmed := by
  obtain ⟨name, hn⟩ := h.name
  obtain ⟨indices, hindices, hreadIndices⟩ := encodeAll_forall₂
    (f := fun i => (st.index i).toIndexSpec) (l := (st.table t).indices)
    fun i hi => readAs_encodeIndex (h.index i hi)
  obtain ⟨constraints, hconstraints, hreadConstraints⟩ := encodeAll_forall₂
    (f := fun c => ((st.constraint c).toConstraintSpec.settle (.constraint c)).trimmed)
    (l := (st.table t).constraints) fun c hc => readAs_encodeConstraint (h.constraint c hc)
  have hconstraints' : (st.table t).constraints.map
      (fun c => ((st.constraint c).toConstraintSpec.settle (.constraint c)).trimmed) =
      (settledOutline st t).trimmed.constraints := by
    rw [TableOutline.trimmed, settledOutline, List.map_map]
    rfl
  rw [hconstraints'] at hreadConstraints
  have hreadFields : List.Forall₂ (ReadAs fieldParams FieldSpec.ofParams)
      ((st.table t).fields.map fun d => encodeField st d.2) (settledOutline st t).fields := by
    refine List.forall₂_map_left_iff.mpr (List.forall₂_map_right_iff.mpr
      (List.forall₂_same.mpr fun d hd => ?_))
    obtain ⟨-, hdn, htruthy⟩ := h.coherent.field d hd
    exact readAs_encodeField (h.field d hd) (hdn ▸ htruthy)
  have hentries : EntriesDescribe ((tableEntries name (settledOutline st t).options
      ((st.table t).fields.map fun d => encodeField st d.2) indices constraints).map
        fun p => (.text p.1, p.2)) (settledOutline st t).trimmed :=
    entriesDescribe_tableEntries (o := (settledOutline st t).trimmed) h.coherent.options hreadFields
      hreadIndices hreadConstraints (by simpa using h.fields)
  refine ⟨_, encodeTable_eq h hn hindices hconstraints, _, name, partEntries_ofPairs ?_, ?_, hn,
    hentries⟩
  · simp [tableEntries, all_entryIf, Part.keys]
  · -- the definition is not refused for the lack of a name
    have htruthy := h.named
    rw [hn] at htruthy
    rw [tableName, valueAt_pairs]
    simp [tableEntries, List.lookup_append, lookup_entryIf, htruthy]

/-- The settled outline of a table can be built: the names of its fields are the keys under which
the table lists them. -/
theorem buildable_settledOutline (h : st.TableCoherent t) : (settledOutline st t).Buildable where
  named x hx := by
    obtain ⟨d, hd, rfl⟩ := List.mem_map.mp hx
    obtain ⟨-, hname, htruthy⟩ := h.field d hd
    exact hname ▸ htruthy
  distinct := by
    refine List.pairwise_map.mpr (h.distinct.imp_of_mem fun {d d'} hd hd' hne => ?_)
    change (st.field d.2).name.same (st.field d'.2).name = false
    rw [(h.field d hd).2.1, (h.field d' hd').2.1]
    exact hne

/-! ### Schemas -/

/-- The outline of a schema that is read again. -/
def settledSchema (st : Store) (s : SchemaId) : SchemaOutline where
  name := settledText (.schema s) "name" (st.schema s).name
  database := settledText (.schema s) "database" (st.schema s).database
  tables := (st.schema s).tables.map fun e => settledOutline st e.2

/-- The outline with trimmed names of constraints. -/
def SchemaOutline.trimmed (o : SchemaOutline) : SchemaOutline :=
  { o with tables := o.tables.map TableOutline.trimmed }

theorem trimmed_settledSchema (h : st.Writable s) :
    (settledSchema st s).trimmed = settledSchema st s := by
  have htables : (settledSchema st s).tables.map TableOutline.trimmed =
      (settledSchema st s).tables.map id := by
    refine List.map_congr_left fun x hx => ?_
    obtain ⟨e, he, rfl⟩ := List.mem_map.mp hx
    exact trimmed_settledOutline (h.table e he)
  rw [SchemaOutline.trimmed, htables, List.map_id]

/-- The entries of a schema, where its tables are written already. -/
def schemaEntries (st : Store) (s : SchemaId) (tables : List Value) : List (String × Value) :=
  entryIf (!(encodeHead st s).isEmpty) "schema" (.ofPairs (encodeHead st s)) ++
    entryIf true "tables" (.ofList tables)

/-- A heading that is left out when it has no entries. -/
theorem decodeHead_of_lookup {entries head : List (String × Value)}
    (h : entries.lookup "schema" = if !head.isEmpty then some (.ofPairs head) else none) :
    decodeHead (entries.map fun p => (.text p.1, p.2)) =
      .ok ((head.lookup "name").getD (.text ""), (head.lookup "database").getD (.text "")) := by
  rw [decodeHead, valueAt_pairs, h, ← entry?_pairs, ← entry?_pairs]
  cases head <;> rfl

/-- The name and the database are read as they were written, or as empty text. -/
theorem decodeHead_schemaEntries (tables : List Value) :
    decodeHead ((schemaEntries st s tables).map fun p => (.text p.1, p.2)) =
      .ok ((settledSchema st s).name, (settledSchema st s).database) := by
  have hhead : (schemaEntries st s tables).lookup "schema" =
      if !(encodeHead st s).isEmpty then some (.ofPairs (encodeHead st s)) else none := by
    simp [schemaEntries, List.lookup_append, lookup_entryIf]
  have hname : ((encodeHead st s).lookup "name").getD (.text "") = (settledSchema st s).name := by
    by_cases hn : (st.schema s).name.truthy <;>
      simp [encodeHead, settledSchema, settledText, List.lookup_append, lookup_entryIf, hn]
  have hdatabase : ((encodeHead st s).lookup "database").getD (.text "") =
      (settledSchema st s).database := by
    by_cases hd : (st.schema s).database.truthy <;>
      simp [encodeHead, settledSchema, settledText, List.lookup_append, lookup_entryIf, hd]
  rw [decodeHead_of_lookup hhead, hname, hdatabase]

theorem tablesOf_eq (h : (st.schema s).tables ≠ []) :
    tablesOf st s = .ok ((st.schema s).tables.map (·.2)) := by
  rw [tablesOf]
  split
  · next hnone => exact absurd hnone h
  · rfl

/-- The document of a schema, where its tables are written already. -/
theorem encodeSchema_eq (h : (st.schema s).tables ≠ []) {tables : List Value}
    (htables : encodeAll (encodeTable st) ((st.schema s).tables.map (·.2)) = .ok tables) :
    encodeSchema st s = .ok (.ofPairs (schemaEntries st s tables)) := by
  rw [encodeSchema, tablesOf_eq h]
  simp only [bind, Except.bind, htables]
  rfl

/-- **A legible schema** becomes a document that describes its settled outline, with trimmed names
of constraints. -/
theorem Store.Legible.describes (h : st.Legible s) :
    ∃ v, encodeSchema st s = .ok v ∧ DescribesSchema v (settledSchema st s).trimmed := by
  obtain ⟨tables, hwrite, hdescribe⟩ := encodeAll_forall₂
    (f := fun t => (settledOutline st t).trimmed) (R := Describes)
    (l := (st.schema s).tables.map (·.2)) fun t ht => by
      obtain ⟨e, he, rfl⟩ := List.mem_map.mp ht
      exact describes_encodeTable (h.table e he)
  have houtlines : ((st.schema s).tables.map (·.2)).map (fun t => (settledOutline st t).trimmed) =
      (settledSchema st s).trimmed.tables := by
    rw [SchemaOutline.trimmed, settledSchema, List.map_map, List.map_map]
    rfl
  rw [houtlines] at hdescribe
  have hne : tables ≠ [] := fun hnil => by
    rw [hnil, List.forall₂_nil_left_iff, ← houtlines, List.map_eq_nil_iff,
      List.map_eq_nil_iff] at hdescribe
    exact h.tables hdescribe
  have hsome : (Value.entry? "tables" ((schemaEntries st s tables).map fun p =>
      (.text p.1, p.2))).isSome := by
    rw [entry?_pairs]
    simp [schemaEntries, List.lookup_append, lookup_entryIf]
  have hkeys : checkKeys .schema ((schemaEntries st s tables).map fun p => (.text p.1, p.2)) =
      .ok () := checkKeys_pairs (by simp [schemaEntries, all_entryIf, Part.keys])
  have hitems : sectionItems "tables" ((schemaEntries st s tables).map fun p =>
      (.text p.1, p.2)) = .ok tables :=
    sectionItems_of_lookup (by simp [schemaEntries, List.lookup_append, lookup_entryIf, hne])
  exact ⟨_, encodeSchema_eq h.tables hwrite,
    .listed hsome hkeys (decodeHead_schemaEntries tables) hitems hdescribe⟩

/-- **A schema that can be written** becomes a document that describes its settled outline. -/
theorem describes_encodeSchema (h : st.Writable s) :
    ∃ v, encodeSchema st s = .ok v ∧ DescribesSchema v (settledSchema st s) := by
  have hdescribe := h.legible.describes
  rwa [trimmed_settledSchema h] at hdescribe

/-- The settled outline of a legible schema can be built, whether names of constraints are trimmed
or not. -/
theorem Store.Legible.buildable (h : st.Legible s) : (settledSchema st s).trimmed.Buildable where
  table o ho := by
    obtain ⟨x, hx, rfl⟩ := List.mem_map.mp ho
    obtain ⟨e, he, rfl⟩ := List.mem_map.mp hx
    have hbuild := buildable_settledOutline (h.table e he).coherent
    exact ⟨hbuild.named, hbuild.distinct⟩
  distinct := by
    rw [SchemaOutline.trimmed, settledSchema, List.map_map]
    exact List.pairwise_map.mpr h.distinct

theorem Store.Writable.buildable (h : st.Writable s) : (settledSchema st s).Buildable := by
  rw [← trimmed_settledSchema h]
  exact h.legible.buildable

/-! ### What is written has tables and fields -/

/-- Whatever is written one by one can be written. -/
theorem exists_of_encodeAll {α : Type} {encode : α → Except ModelError Value} {l : List α}
    {vs : List Value} (h : encodeAll encode l = .ok vs) : ∀ a ∈ l, ∃ v, encode a = .ok v := by
  induction l generalizing vs with
  | nil => simp
  | cons a r ih =>
    simp only [encodeAll, bind, Except.bind] at h
    rcases ha : encode a with e | v <;> rw [ha] at h
    · cases h
    rcases hr : encodeAll encode r with e | ws <;> rw [hr] at h
    · cases h
    · intro b hb
      rcases List.mem_cons.mp hb with rfl | hb
      · exact ⟨v, ha⟩
      · exact ih hr b hb

/-- A schema that is written has tables, and these have fields. -/
theorem filled_of_encodeSchema (h : encodeSchema st s = .ok v) : (st.schemaOutline s).Filled := by
  have htables : (st.schema s).tables ≠ [] := fun hnil => by
    rw [encodeSchema, tablesOf, hnil] at h
    cases h
  -- one table that cannot be written would keep the whole schema from being written
  have hall : ∀ t ∈ (st.schema s).tables.map (·.2), ∃ v, encodeTable st t = .ok v := by
    simp only [encodeSchema, tablesOf_eq htables, bind, Except.bind] at h
    rcases hwrite : encodeAll (encodeTable st) ((st.schema s).tables.map (·.2)) with e | vs <;>
      rw [hwrite] at h
    · cases h
    · exact exists_of_encodeAll hwrite
  constructor
  · simpa [Store.schemaOutline] using htables
  · intro x hx hnil
    obtain ⟨e, he, rfl⟩ := List.mem_map.mp hx
    obtain ⟨w, hw⟩ := hall e.2 (List.mem_map_of_mem he)
    have hnone : (st.table e.2).fields = [] := List.map_eq_nil_iff.mp hnil
    rw [encodeTable, fieldsOf, hnone] at hw
    cases hw

/-- Settling keeps the tables and their fields. -/
theorem filled_settledSchema (h : (st.schemaOutline s).Filled) : (settledSchema st s).Filled where
  tables := by simpa [settledSchema, Store.schemaOutline] using h.tables
  fields x hx := by
    obtain ⟨e, he, rfl⟩ := List.mem_map.mp hx
    have hne := h.fields _ (List.mem_map_of_mem (f := fun e => st.outline e.2) he)
    simpa [settledOutline, Store.outline] using hne

end DbSchema
