import DbSchema.Proofs.Document.Tables

/-!
# Documents that are read

A document is read without an error exactly when it describes a schema that can be built: every
definition in it is read as the description of a child, the fields of each table have distinct
names, none of them empty, and so have the tables.  The schema that is read lists tables with the
outlines that the document describes.

## Main definitions

* `SchemaOutline` — the name and the database of a schema and the outlines of its tables.
* `SchemaOutline.Buildable o` — every table of the outline can be built, and their names differ.
* `DescribesSchema v o` — the document `v` describes the outline `o`.
* `TableOutline.Tidy o` — the table has a name and its children have tidy descriptions.

## Main results

* `describes_decodeChildren`, `describes_decodeTableBody`, `describes_decodeTables` — what is read
  without an error describes what is built.
* `ensures_decodeDocument` — a document that describes an outline is read as such a schema.
* `describes_decodeDocument` — a document that is read describes the schema that it is read as.
* `decodeDocument_ok_iff` — which documents are read.
-/

namespace DbSchema

open Edit

/-! ### Outlines of schemas -/

/-- What a schema holds, apart from where that is stored. -/
structure SchemaOutline where
  name : Value
  database : Value
  tables : List TableOutline

/-- The outline of a schema. -/
def Store.schemaOutline (st : Store) (s : SchemaId) : SchemaOutline where
  name := (st.schema s).name
  database := (st.schema s).database
  tables := (st.schema s).tables.map fun e => st.outline e.2

/-- Every table of the outline can be built, and no name of a table equals a later one. -/
structure SchemaOutline.Buildable (o : SchemaOutline) : Prop where
  table : ∀ t ∈ o.tables, t.Buildable
  distinct : o.tables.Pairwise fun t t' => t.name.same t'.name = false

/-- The document describes a schema: it is the definition of its only table, or it has a list of
table definitions beside the name and the database. -/
inductive DescribesSchema : Value → SchemaOutline → Prop
  | single {entries : List (Value × Value)} {m : Mark} {t : TableOutline}
      (hnone : Value.entry? "tables" entries = none) (h : Describes (.map entries .own) t) :
      DescribesSchema (.map entries m) ⟨.text "", .text "", [t]⟩
  | listed {entries : List (Value × Value)} {m : Mark} {o : SchemaOutline} {vs : List Value}
      (hsome : (Value.entry? "tables" entries).isSome)
      (hkeys : checkKeys .schema entries = .ok ())
      (hhead : decodeHead entries = .ok (o.name, o.database))
      (hitems : sectionItems "tables" entries = .ok vs)
      (h : List.Forall₂ Describes vs o.tables) : DescribesSchema (.map entries m) o

/-! ### Tidy outlines -/

/-- The table has a name, and its children have tidy descriptions. -/
structure TableOutline.Tidy (o : TableOutline) : Prop where
  name : IsText o.name
  named : o.name.truthy
  field : ∀ x ∈ o.fields, x.Tidy
  index : ∀ x ∈ o.indices, x.Tidy
  constraint : ∀ x ∈ o.constraints, x.Tidy

/-- Whatever values are read as descriptions, these are tidy. -/
theorem tidy_of_forall₂ {σ : Type} {params : Value → Except LoadError Params}
    {ofParams : Params → Except ModelError σ} {Tidy : σ → Prop}
    (htidy : ∀ {ps spec}, ofParams ps = .ok spec → Tidy spec) {vs : List Value} {specs : List σ}
    (h : List.Forall₂ (ReadAs params ofParams) vs specs) : ∀ x ∈ specs, Tidy x := by
  intro x hx
  obtain ⟨v, -, ps, -, hspec⟩ := exists_of_forall₂ h.flip hx
  exact htidy hspec

/-- A table definition describes tidy outlines only. -/
theorem Describes.tidy {v : Value} {o : TableOutline} (h : Describes v o) : o.Tidy := by
  obtain ⟨entries, name, -, htext, hname, hentries⟩ := h
  obtain ⟨_, -, hfields⟩ := hentries.fields
  obtain ⟨_, -, hindices⟩ := hentries.indices
  obtain ⟨_, -, hconstraints⟩ := hentries.constraints
  exact ⟨⟨name, hname⟩, hname ▸ truthy_of_tableName htext,
    tidy_of_forall₂ FieldSpec.tidy_of_ofParams hfields,
    tidy_of_forall₂ IndexSpec.tidy_of_ofParams hindices,
    tidy_of_forall₂ ConstraintSpec.tidy_of_ofParams hconstraints⟩

/-- So does a document. -/
theorem DescribesSchema.tidy {v : Value} {o : SchemaOutline} (h : DescribesSchema v o) :
    ∀ x ∈ o.tables, x.Tidy := by
  intro x hx
  cases h with
  | single _ h =>
    rw [List.mem_singleton.mp hx]
    exact h.tidy
  | listed _ _ _ _ h =>
    obtain ⟨v, -, hv⟩ := exists_of_forall₂ h.flip hx
    exact Describes.tidy hv

variable {b st : Store} {t : TableId} {s : SchemaId} {name database : Value}

/-! ### Steps that may be refused -/

/-- What follows a pure step may use what it gives. -/
theorem ensures_pureStep_of_ok {α β : Type} {P : Store → Prop} {R : β → Store → Prop}
    {r : Except LoadError α} {f : α → Load β}
    (hf : ∀ a, r = .ok a → Ensures P (f a) R fun _ => True) :
    Ensures P (Load.pureStep r >>= f) R fun _ => True := by
  rcases r with e | a
  · exact .throw_bind fun _ _ => trivial
  · exact ensures_pureStep rfl (hf a rfl)

/-! ### Table definitions -/

/-- Definitions of children that are read one after the other are read as descriptions. -/
theorem describes_decodeChildren {σ : Type} {params : Value → Except LoadError Params}
    {ofParams : Params → Except ModelError σ} {add : Params → Edit Unit}
    {P : List σ → Store → Prop}
    (hadd : ∀ done ps, Ensures (P done) (add ps)
      (fun _ st => ∃ spec, ofParams ps = .ok spec ∧ P (done ++ [spec]) st) fun _ => True)
    (vs : List Value) (done : List σ) :
    Ensures (P done) (decodeChildren params add vs)
      (fun _ st => ∃ specs, List.Forall₂ (ReadAs params ofParams) vs specs ∧ P (done ++ specs) st)
      fun _ => True := by
  -- the induction is on what is left, with what was read before it in the condition
  induction vs generalizing done with
  | nil => exact .pure fun _ h => ⟨[], .nil, by rwa [List.append_nil]⟩
  | cons v r ih =>
    refine ensures_pureStep_of_ok fun ps hps => Ensures.bind (hadd done ps).adapt fun _ => ?_
    refine .of_exists fun spec => .of_and fun hspec => ?_
    refine (ih (done ++ [spec])).weaken (fun _ h => h) (fun _ _ h => ?_) fun _ h => h
    obtain ⟨specs, hspecs, hst⟩ := h
    exact ⟨spec :: specs, .cons ⟨ps, hps, hspec⟩ hspecs, by rwa [List.append_cons]⟩

/-- Fields that are read are the fields of an outline that can be built. -/
theorem describes_decodeFields (vs : List Value) :
    Ensures (Drafts b t { name })
      (decodeChildren fieldParams (fun ps => discard (Edit.addField t .null ps)) vs)
      (fun _ st => ∃ fields, List.Forall₂ (ReadAs fieldParams FieldSpec.ofParams) vs fields ∧
        TableOutline.Buildable { name, fields } ∧ Drafts b t { name, fields } st)
      fun _ => True := by
  have hbuild : TableOutline.Buildable { name } := ⟨by simp, .nil⟩
  refine (describes_decodeChildren (P := fun fields st =>
    TableOutline.Buildable { name, fields } ∧ Drafts b t { name, fields } st)
    (fun done ps => .of_and fun hdone => ?_) vs []).weaken (fun _ h => ⟨hbuild, h⟩)
    (fun _ _ h => h) fun _ h => h
  refine Ensures.discard (Drafts.of_addField.weaken (fun _ h => h) (fun _ _ h => ?_) fun _ h => h)
  obtain ⟨spec, hps, ⟨htruthy, hnew⟩, hdraft⟩ := h
  refine ⟨spec, hps, ⟨fun x hx => ?_, ?_⟩, hdraft⟩
  · rcases List.mem_append.mp hx with hx | hx
    · exact hdone.named x hx
    · rwa [List.mem_singleton.mp hx]
  · refine List.pairwise_append.mpr ⟨hdone.distinct, List.pairwise_singleton _ _, ?_⟩
    intro x hx y hy
    rw [List.mem_singleton.mp hy]
    exact hnew x hx

theorem describes_decodeIndices {fields : List FieldSpec} (vs : List Value) :
    Ensures (Drafts b t { name, fields })
      (decodeChildren (childParams .index) (fun ps => discard (Edit.addIndex t .null ps)) vs)
      (fun _ st => ∃ indices,
        List.Forall₂ (ReadAs (childParams .index) IndexSpec.ofParams) vs indices ∧
          Drafts b t { name, fields, indices } st) fun _ => True :=
  describes_decodeChildren (P := fun l => Drafts b t { name, fields, indices := l })
    (fun _ _ => Ensures.discard Drafts.of_addIndex) vs []

theorem describes_decodeConstraints {fields : List FieldSpec} {indices : List IndexSpec}
    (vs : List Value) :
    Ensures (Drafts b t { name, fields, indices })
      (decodeChildren (childParams .constraint)
        (fun ps => discard (Edit.addConstraint t .null ps)) vs)
      (fun _ st => ∃ constraints,
        List.Forall₂ (ReadAs (childParams .constraint) ConstraintSpec.ofParams) vs constraints ∧
          Drafts b t { name, fields, indices, constraints } st) fun _ => True :=
  describes_decodeChildren (P := fun l => Drafts b t { name, fields, indices, constraints := l })
    (fun _ _ => Ensures.discard Drafts.of_addConstraint) vs []

/-- The entries of a table definition that is read describe the outline of the table. -/
theorem describes_decodeTableBody {entries : List (Value × Value)} {name : String}
    (hname : tableName entries = .ok name) :
    Ensures b.Extends (decodeTableBody name entries)
      (fun t st => ∃ o : TableOutline, (o.name = .text name ∧ EntriesDescribe entries o ∧
        o.Buildable) ∧ Drafts b t o st) fun _ => True := by
  have hnew : Ensures b.Extends (Load.edit (Edit.newTable { name := .text name }))
      (fun t => Drafts b t { name := .text name }) fun _ => True :=
    (ensures_newTable (truthy_of_tableName hname)).weaken (fun _ h => h) (fun _ _ h => h)
      fun _ h => h.elim
  refine Ensures.bind hnew fun t => ?_
  refine ensures_pureStep_of_ok fun vs hfields => ?_
  refine Ensures.bind (describes_decodeFields vs) fun _ => ?_
  refine .of_exists fun fields => .of_and fun hreadFields => .of_and fun hbuild => ?_
  refine ensures_pureStep_of_ok fun vs' hindices => ?_
  refine Ensures.bind (describes_decodeIndices vs') fun _ => ?_
  refine .of_exists fun indices => .of_and fun hreadIndices => ?_
  refine ensures_pureStep_of_ok fun vs'' hconstraints => ?_
  refine Ensures.bind (describes_decodeConstraints vs'') fun _ => ?_
  refine .of_exists fun constraints => .of_and fun hreadConstraints => ?_
  -- all but the options is settled now
  have hall : ∀ options, (if (valueAt "options" entries).truthy then
        splitNames [valueAt "options" entries] = .ok options else options = []) →
      EntriesDescribe entries { name := .text name, fields, indices, constraints, options } ∧
        TableOutline.Buildable { name := .text name, fields, indices, constraints, options } :=
    fun options hoptions => ⟨⟨⟨vs, hfields, hreadFields⟩, ⟨vs', hindices, hreadIndices⟩,
      ⟨vs'', hconstraints, hreadConstraints⟩, hoptions⟩, ⟨hbuild.named, hbuild.distinct⟩⟩
  by_cases htruthy : (valueAt "options" entries).truthy
  · have hadd : Ensures (Drafts b t { name := .text name, fields, indices, constraints })
        (discard (Load.edit (Edit.addOptions t [valueAt "options" entries])))
        (fun _ st => ∃ options, splitNames [valueAt "options" entries] = .ok options ∧
          Drafts b t { name := .text name, fields, indices, constraints, options } st)
        fun _ => True := Ensures.discard Drafts.of_addOptions.adapt
    simp only [htruthy, if_true]
    refine Ensures.bind hadd fun _ => ?_
    refine .of_exists fun options => .of_and fun hoptions => .pure fun st h => ?_
    obtain ⟨hdescribe, hbuild⟩ := hall options (by rwa [if_pos htruthy])
    exact ⟨_, ⟨rfl, hdescribe, hbuild⟩, h⟩
  · simp only [htruthy]
    refine .pure fun st h => ?_
    obtain ⟨hdescribe, hbuild⟩ := hall [] (by rw [if_neg htruthy])
    exact ⟨_, ⟨rfl, hdescribe, hbuild⟩, h⟩

/-! ### Lists of table definitions -/

/-- A table that may be listed beside others has a name that none of them has, when it is newer than
they are. -/
theorem names_ne_of_mayList {done : List TableOutline} {o : TableOutline} {st' : Store}
    (h : st.Lists s done) (hinUse : s.index < st.schemas.size) (hdraft : Drafts st t o st')
    (hmay : mayList st' s t = .ok ()) : ∀ o' ∈ done, o'.name.same o.name = false := by
  have hname : (st'.table t).name = o.name := congrArg TableOutline.name hdraft.outline
  have hschema : st'.schema s = st.schema s := hdraft.building.old.schema_eq hinUse
  have hfree : Keyed.find? Value.same o.name (st.schema s).tables = none := by
    rw [mayList, if_pos (truthy_of_mayList hmay), lookupTable, hname, hschema] at hmay
    split at hmay
    · cases hmay
    · next hlookup =>
      split at hlookup
      · exact Except.ok.inj hlookup
      · cases hlookup
    · next u hlookup =>
      -- a table that is listed is an old one
      split at hlookup
      · have hu : (st.schema s).find? o.name = some u := Except.ok.inj hlookup
        obtain ⟨k, hk, -⟩ := Keyed.mem_of_find? hu
        obtain ⟨o', -, hlisted⟩ := exists_of_forall₂ h hk
        have hold : u.index < st.tables.size := Store.table_lt_of_owner hlisted.owner
        have hne : u ≠ t := fun heq => Nat.not_lt_of_le hdraft.building.new (heq ▸ hold)
        rw [if_neg hne] at hmay
        cases hmay
      · cases hlookup
  intro o' ho'
  obtain ⟨e, he, hlisted⟩ := exists_of_forall₂ h.flip ho'
  have hkey : e.1 = o'.name := ListedAs.key hlisted
  rw [← hkey]
  exact Keyed.find?_eq_none.mp hfree e he

/-- A table definition that is read describes the outline of a table with a new name. -/
theorem describes_decodeTable {done : List TableOutline} (v : Value) :
    Ensures (Loading b s name database done) (discard (decodeTable s v))
      (fun _ st => ∃ o : TableOutline, (Describes v o ∧ o.Buildable ∧
        ∀ o' ∈ done, o'.name.same o.name = false) ∧
        Loading b s name database (done ++ [o]) st) fun _ => True := by
  refine Ensures.discard (ensures_pureStep_of_ok fun entries hentries => ?_)
  refine ensures_pureStep_of_ok fun text htext => Ensures.adapt fun st h => ?_
  have hbody := describes_decodeTableBody (b := st) htext st (.refl st)
  rw [outcome_bind]
  rcases hrun : outcome (decodeTableBody text entries) st with ⟨e | t, st'⟩ <;> rw [hrun] at hbody
  · trivial
  obtain ⟨o, ⟨ho, hdescribe, hbuild⟩, hdraft⟩ := hbody
  dsimp only
  rw [Load.edit, outcome_adapt, Edit.outcome_addTable_object, Edit.outcome_register]
  rcases hmay : Edit.mayList st' s t with e | u
  · trivial
  · -- a name that is taken would have been refused
    have hnew := names_ne_of_mayList h.lists h.inUse hdraft hmay
    exact ⟨o, ⟨⟨entries, text, hentries, htext, ho, hdescribe⟩, hbuild, hnew⟩,
      h.listed hdraft hnew⟩

/-- Table definitions that are read one after the other describe the tables that are listed. -/
theorem describes_decodeTables (vs : List Value) (done : List TableOutline) :
    Ensures (fun st => (∀ o ∈ done, o.Buildable) ∧
        done.Pairwise (fun o o' => o.name.same o'.name = false) ∧
        Loading b s name database done st) (decodeTables s vs)
      (fun _ st => ∃ outlines, List.Forall₂ Describes vs outlines ∧
        SchemaOutline.Buildable ⟨name, database, done ++ outlines⟩ ∧
        Loading b s name database (done ++ outlines) st) fun _ => True := by
  induction vs generalizing done with
  | nil =>
    refine .of_and fun hbuild => .of_and fun hdistinct => .pure fun _ h => ?_
    exact ⟨[], .nil, by simpa using ⟨hbuild, hdistinct⟩, by rwa [List.append_nil]⟩
  | cons v r ih =>
    refine .of_and fun hbuild => .of_and fun hdistinct => ?_
    refine Ensures.bind (describes_decodeTable v) fun _ => .of_exists fun o =>
      .of_and fun ho => ?_
    obtain ⟨hv, hbuildable, hnew⟩ := ho
    -- the table that was read is done when the rest is read
    refine (ih (done ++ [o])).weaken (fun _ h => ⟨?_, ?_, h⟩) (fun _ _ h => ?_) fun _ h => h
    · intro o' ho'
      rcases List.mem_append.mp ho' with ho' | ho'
      · exact hbuild o' ho'
      · rwa [List.mem_singleton.mp ho']
    · refine List.pairwise_append.mpr ⟨hdistinct, List.pairwise_singleton _ _, ?_⟩
      intro o' ho' o'' ho''
      rw [List.mem_singleton.mp ho'']
      exact hnew o' ho'
    · obtain ⟨outlines, hr, hall, hst⟩ := h
      rw [← List.append_cons] at hall hst
      exact ⟨o :: outlines, .cons hv hr, hall, hst⟩

/-! ### Documents -/

variable {v : Value} {o : SchemaOutline}

/-- A new schema lists no tables. -/
theorem ensures_newSchema (st₀ : Store) (name database : Value) :
    Ensures (· = st₀) (Load.edit (Edit.newSchema name database))
      (fun s st => s = ⟨st₀.schemas.size⟩ ∧ Loading st₀ s name database [] st) fun _ => False := by
  refine Ensures.adapt fun st hst => ?_
  rw [hst, Edit.newSchema, Edit.outcome_addSchemaCell]
  exact ⟨rfl, loading_newSchema st₀ name database⟩

/-- **A document that describes a schema** which can be built is read, into any store, as a new
schema with this outline. -/
theorem ensures_decodeDocument (h : DescribesSchema v o) (hbuild : o.Buildable) (path : String)
    (st₀ : Store) :
    Ensures (· = st₀) (decodeDocument path v)
      (fun s st => s = ⟨st₀.schemas.size⟩ ∧ Loading st₀ s o.name o.database o.tables st)
      fun _ => False := by
  cases h with
  | @single entries m t hnone h =>
    refine ensures_pureStep rfl ?_
    rw [decodeEntries, if_pos (by rw [hnone]; rfl)]
    refine Ensures.bind (ensures_newSchema st₀ _ _) fun s => .of_and fun hs => ?_
    have hread : Ensures (Loading st₀ s (.text "") (.text "") [])
        (discard (decodeTable s (.map entries .own)))
        (fun _ => Loading st₀ s (.text "") (.text "") ([] ++ [t])) fun _ => False :=
      Ensures.discard (ensures_decodeTable h (hbuild.table t List.mem_cons_self) (by simp))
    exact Ensures.bind hread fun _ => .pure fun _ h => ⟨hs, h⟩
  | @listed entries m o vs hsome hkeys hhead hitems h =>
    refine ensures_pureStep rfl ?_
    have hnone : ¬ (Value.entry? "tables" entries).isNone := by
      simpa [Option.isSome_iff_ne_none] using hsome
    rw [decodeEntries, if_neg hnone]
    refine ensures_pureStep hkeys (ensures_pureStep hhead ?_)
    refine Ensures.bind (ensures_newSchema st₀ _ _) fun s => .of_and fun hs => ?_
    refine ensures_pureStep hitems ?_
    have hread : Ensures (Loading st₀ s o.name o.database []) (decodeTables s vs)
        (fun _ => Loading st₀ s o.name o.database ([] ++ o.tables)) fun _ => False :=
      ensures_decodeTables h hbuild.table (by simpa using hbuild.distinct)
    exact Ensures.bind hread fun _ => .pure fun _ h => ⟨hs, h⟩

/-- A document that is accepted is a mapping. -/
theorem documentEntries_ok {path : String} {v : Value} {entries : List (Value × Value)}
    (h : documentEntries path v = .ok entries) : ∃ m, v = .map entries m := by
  cases v <;> cases h
  exact ⟨_, rfl⟩

/-- **A document that is read** describes the schema that it is read as. -/
theorem describes_decodeDocument (path : String) (v : Value) (st₀ : Store) :
    Ensures (· = st₀) (decodeDocument path v)
      (fun s st => ∃ o, DescribesSchema v o ∧ o.Buildable ∧
        Loading st₀ s o.name o.database o.tables st) fun _ => True := by
  have hnew : ∀ name database, Ensures (· = st₀) (Load.edit (Edit.newSchema name database))
      (fun s => Loading st₀ s name database []) fun _ => True := by
    intro name database
    exact (ensures_newSchema st₀ name database).weaken (fun _ h => h) (fun _ _ h => h.2)
      fun _ h => h.elim
  refine ensures_pureStep_of_ok fun entries hentries => ?_
  obtain ⟨m, rfl⟩ := documentEntries_ok hentries
  rw [decodeEntries]
  split
  · next hnone =>
    -- a document without a list of tables is a table, in a schema without a name
    refine Ensures.bind (hnew _ _) fun s => ?_
    refine Ensures.bind (describes_decodeTable _) fun _ => .of_exists fun t =>
      .of_and fun ht => .pure fun st h => ?_
    obtain ⟨hdescribe, hbuild, -⟩ := ht
    exact ⟨⟨.text "", .text "", [t]⟩, .single (by simpa using hnone) hdescribe,
      ⟨by simpa using hbuild, List.pairwise_singleton _ _⟩, h⟩
  · next hsome =>
    refine ensures_pureStep_of_ok fun _ hkeys => ensures_pureStep_of_ok fun head hhead => ?_
    refine Ensures.bind (hnew _ _) fun s => ensures_pureStep_of_ok fun vs hitems => ?_
    have hread : Ensures (Loading st₀ s head.1 head.2 []) (decodeTables s vs)
        (fun _ st => ∃ outlines, List.Forall₂ Describes vs outlines ∧
          SchemaOutline.Buildable ⟨head.1, head.2, [] ++ outlines⟩ ∧
          Loading st₀ s head.1 head.2 ([] ++ outlines) st) fun _ => True :=
      (describes_decodeTables vs []).weaken (fun _ h => ⟨by simp, .nil, h⟩) (fun _ _ h => h)
        fun _ h => h
    refine Ensures.bind hread fun _ => .of_exists fun outlines => .of_and fun hdescribe =>
      .of_and fun hbuild => .pure fun st h => ?_
    refine ⟨⟨head.1, head.2, outlines⟩, .listed ?_ hkeys hhead hitems hdescribe, hbuild, h⟩
    simpa [Option.isSome_iff_ne_none] using hsome

/-- A schema that is read has the outline that the document describes. -/
theorem Loading.schemaOutline_eq (h : Loading b s o.name o.database o.tables st) :
    st.schemaOutline s = o := by
  have htables : (st.schema s).tables.map (fun e => st.outline e.2) = o.tables := by
    rw [← List.forall₂_eq_eq_eq]
    exact List.forall₂_map_left_iff.mpr (h.lists.imp fun _ _ he => he.outline)
  rw [Store.schemaOutline, h.name, h.database, htables]

/-- A document is read without an error exactly when it describes a schema that can be built. -/
theorem decodeDocument_ok_iff (path : String) (v : Value) (st₀ : Store) :
    (∃ s st, outcome (decodeDocument path v) st₀ = (.ok s, st)) ↔
      ∃ o, DescribesSchema v o ∧ o.Buildable := by
  constructor
  · rintro ⟨s, st, hrun⟩
    have hread := describes_decodeDocument path v st₀ st₀ rfl
    rw [hrun] at hread
    obtain ⟨o, h, hbuild, -⟩ := hread
    exact ⟨o, h, hbuild⟩
  · rintro ⟨o, h, hbuild⟩
    obtain ⟨s, st, hrun, -⟩ := (ensures_decodeDocument h hbuild path st₀).exists_ok rfl
    exact ⟨s, st, hrun⟩

end DbSchema
