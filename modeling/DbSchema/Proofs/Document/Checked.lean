import DbSchema.Proofs.Document.Files
import DbSchema.Proofs.Document.Refusals
import DbSchema.Proofs.Model.Obstacles

/-!
# Checking what was loaded

Loading looks at the form of most attributes, and those that it takes as they are given are only
asked whether they count as true when a schema is checked, with one exception: the table that a
foreign key refers to is looked up.  So checking a schema that was loaded comes to a verdict unless
a document gives that table as a list, a mapping or something else that can be no key.

## Main definitions

* `DefinedAt d path part v` — `v` is the definition of a part in a document that stands at a path.
* `ListsDefined d path s st` — the tables that the schema lists are defined in such documents.
* `UnfitReference d path v` — a document at a path gives a foreign key a reference table that can be
  no key.

## Main results

* `ensures_loadPath_of_change` — loading keeps what changes keep.
* `describes_loadPath` — every constraint of a schema that was loaded is defined in a document.
* `judged_of_loadPath` — asking about a schema that was loaded comes to a verdict, unless the check
  stops at a foreign key with such a reference table.
-/

namespace DbSchema

variable {d : Folder} {path : Path} {st st' : Store} {s : SchemaId}

/-! ### Loading as changes -/

section Keeping

variable {P : Store → Prop} (hchange : ∀ {st st'}, Change st st' → P st → P st')
include hchange

theorem ensures_edit_of_change {α : Type} {e : Edit α} (he : Traced e) :
    Ensures P (Load.edit e) (fun _ => P) P :=
  Ensures.adapt (Ensures.iff_outcome.mpr fun st hst => (he st).keeps hchange hst)

omit hchange in
theorem ensures_pureStep_keeps {α : Type} (r : Except LoadError α) :
    Ensures P (Load.pureStep r) (fun _ => P) P := by
  rcases r with e | a
  · exact .throw fun _ h => h
  · exact .pure fun _ h => h

theorem ensures_decodeChildren_of_change {params : Value → Except LoadError Params}
    {add : Params → Edit Unit} (hadd : ∀ ps, Traced (add ps)) (vs : List Value) :
    Ensures P (decodeChildren params add vs) (fun _ => P) P := by
  induction vs with
  | nil => exact .pure fun _ h => h
  | cons v r ih =>
    exact .bind (ensures_pureStep_keeps _) fun ps =>
      .bind (ensures_edit_of_change hchange (hadd ps)) fun _ => ih

theorem ensures_decodeTableBody_of_change (name : String) (entries : List (Value × Value)) :
    Ensures P (decodeTableBody name entries) (fun _ => P) P := by
  refine .bind (ensures_edit_of_change hchange (Edit.traced_newTable _)) fun t => ?_
  refine .bind (ensures_pureStep_keeps _) fun fields => ?_
  refine .bind (ensures_decodeChildren_of_change hchange
    (fun ps => (Edit.traced_addField t .null ps).discard) fields) fun _ => ?_
  refine .bind (ensures_pureStep_keeps _) fun indices => ?_
  refine .bind (ensures_decodeChildren_of_change hchange
    (fun ps => (Edit.traced_addIndex t .null ps).discard) indices) fun _ => ?_
  refine .bind (ensures_pureStep_keeps _) fun constraints => ?_
  refine .bind (ensures_decodeChildren_of_change hchange
    (fun ps => (Edit.traced_addConstraint t .null ps).discard) constraints) fun _ => ?_
  dsimp only
  split
  · exact .bind (Ensures.discard (ensures_edit_of_change hchange (Edit.traced_addOptions t _)))
      fun _ => .pure fun _ h => h
  · exact .pure fun _ h => h

theorem ensures_decodeTable_of_change (s : SchemaId) (v : Value) :
    Ensures P (decodeTable s v) (fun _ => P) P :=
  .bind (ensures_pureStep_keeps _) fun entries => .bind (ensures_pureStep_keeps _) fun name =>
    Ensures.adapt (.bind (ensures_decodeTableBody_of_change hchange name entries) fun _ =>
      ensures_edit_of_change hchange (Edit.traced_addTable s _ _))

theorem ensures_decodeTables_of_change (s : SchemaId) (vs : List Value) :
    Ensures P (decodeTables s vs) (fun _ => P) P := by
  induction vs with
  | nil => exact .pure fun _ h => h
  | cons v r ih =>
    exact .bind (Ensures.discard (ensures_decodeTable_of_change hchange s v)) fun _ => ih

theorem ensures_decodeDocument_of_change (path : String) (v : Value) :
    Ensures P (decodeDocument path v) (fun _ => P) P := by
  refine .bind (ensures_pureStep_keeps _) fun entries => ?_
  have hnew : ∀ name database,
      Ensures P (Load.edit (Edit.newSchema name database)) (fun _ => P) P :=
    fun name database => ensures_edit_of_change hchange fun _ => .single (.newSchema name database)
  rw [decodeEntries]
  split
  · exact .bind (hnew _ _) fun s => .bind
      (Ensures.discard (ensures_decodeTable_of_change hchange s _)) fun _ => .pure fun _ h => h
  · refine .bind (ensures_pureStep_keeps _) fun _ => .bind (ensures_pureStep_keeps _) fun head => ?_
    exact .bind (hnew _ _) fun s => .bind (ensures_pureStep_keeps _) fun vs =>
      .bind (ensures_decodeTables_of_change hchange s vs) fun _ => .pure fun _ h => h

variable (hnode : ∀ {st : Store} (n : Nat), P st → P { st with nextNode := n })
include hnode

omit hchange in
theorem ensures_parseText_keeps (path text : String) :
    Ensures P (parseText path text) (fun _ => P) P := by
  intro st hst
  rw [parseText, outcome_get_bind]
  rcases Yaml.readDocument st.nextNode text with (f | f) | ⟨v, next⟩
  · exact hst
  · exact hst
  · exact hnode next hst

theorem ensures_loadFiles_of_change (s : SchemaId) (names : List String) :
    Ensures P (loadFiles d path s names) (fun _ => P) P := by
  induction names with
  | nil => exact .pure fun _ h => h
  | cons name r ih =>
    rw [loadFiles]
    rcases d.entry (path.child name) with f | text | _
    · exact .throw fun _ h => h
    · exact .bind (ensures_parseText_keeps hnode _ _) fun v =>
        .bind (ensures_pureStep_keeps _) fun entries =>
          .bind (Ensures.discard (ensures_decodeTable_of_change hchange s _)) fun _ => ih
    · exact .throw fun _ h => h

/-- **Loading keeps what changes keep.** -/
theorem ensures_loadPath_of_change (d : Folder) (path : Path) :
    Ensures P (loadPath d path) (fun _ => P) P := by
  rw [loadPath]
  rcases d.entry path with f | text | _
  · cases f <;> exact .throw fun _ h => h
  · exact .bind (ensures_parseText_keeps hnode _ _) fun v =>
      ensures_decodeDocument_of_change hchange _ v
  · refine .bind (ensures_edit_of_change hchange fun _ => .single (.newSchema _ _)) fun s => ?_
    exact .bind (ensures_loadFiles_of_change hchange hnode s _) fun _ => .pure fun _ h => h

end Keeping

/-- Loading into a coherent store leaves a coherent one. -/
theorem Store.Coherent.of_loadPath {r : Except LoadError SchemaId} (h : st.Coherent)
    (hload : outcome (loadPath d path) st = (r, st')) : st'.Coherent := by
  have hnode : ∀ {st : Store} (n : Nat), st.Coherent → { st with nextNode := n }.Coherent :=
    fun n h => ⟨h.fieldTidy, h.indexTidy, h.constraintTidy, h.keys, fun t => by
      have ht := h.table t
      exact ⟨ht.field, ht.distinct, ht.orders, ht.index, ht.constraint, ht.options⟩⟩
  have hkeeps := Ensures.iff_outcome.mp
    (ensures_loadPath_of_change Store.Coherent.of_change hnode d path) st h
  rwa [hload] at hkeeps

/-! ### Definitions behind a schema -/

/-- The value is the definition of a part in a document that stands at a path: in the file there, or
in one of the files of the folder there, each of which defines a table. -/
inductive DefinedAt (d : Folder) (path : Path) : Part → Value → Prop
  | file {text : String} {base next : Nat} {document : List (Value × Value)} {m : Mark}
      {part : Part} {v : Value} (h : d.entry path = .ok (.file text))
      (hread : Yaml.readDocument base text = .ok (.map document m, next))
      (hv : DefinitionIn (topPart document) document part v) : DefinedAt d path part v
  | fileInside {name text : String} {base next : Nat} {document : List (Value × Value)} {m : Mark}
      {part : Part} {v : Value} (h : d.entry path = .ok .folder)
      (hname : name ∈ documentNames d path) (hfile : d.entry (path.child name) = .ok (.file text))
      (hread : Yaml.readDocument base text = .ok (.map document m, next))
      (hv : DefinitionIn .table document part v) : DefinedAt d path part v

/-- The definition of a table in a document has the definitions of its constraints. -/
theorem Describes.exists_constraint {top : Part} {document : List (Value × Value)} {v : Value}
    {o : TableOutline} {x : ConstraintSpec} (h : Describes v o)
    (hv : DefinitionIn top document .table v) (hx : x ∈ o.constraints) :
    ∃ w, DefinitionIn top document .constraint w ∧
      ReadAs (childParams .constraint) ConstraintSpec.ofParams w x := by
  obtain ⟨entries, name, hentries, -, -, hdescribe⟩ := h
  obtain ⟨⟨m, rfl⟩, -⟩ := partEntries_ok hentries
  obtain ⟨ws, hitems, hall⟩ := hdescribe.constraints
  obtain ⟨w, hw, hread⟩ := exists_of_forall₂ hall.flip hx
  obtain ⟨m', hlist⟩ | ⟨-, rfl⟩ := sectionItems_ok hitems
  · exact ⟨w, .item hv (by simp [Part.sections]) hlist hw, hread⟩
  · cases hw

/-- A document has the definitions of the tables that it describes. -/
theorem DescribesSchema.exists_table {document : List (Value × Value)} {m : Mark}
    {o : SchemaOutline} {t : TableOutline} (h : DescribesSchema (.map document m) o)
    (ht : t ∈ o.tables) :
    ∃ v, DefinitionIn (topPart document) document .table v ∧ Describes v t := by
  cases h with
  | single hnone h =>
    rw [List.mem_singleton.mp ht, topPart, if_neg (by simp [hnone])]
    exact ⟨_, .document, h⟩
  | listed hsome _ _ hitems h =>
    obtain ⟨v, hv, hdescribe⟩ := exists_of_forall₂ h.flip ht
    rw [topPart, if_pos hsome]
    obtain ⟨m', hlist⟩ | ⟨-, rfl⟩ := sectionItems_ok hitems
    · exact ⟨v, .item .document (by simp [Part.sections]) hlist hv, hdescribe⟩
    · cases hv

/-- The tables of an outline are defined in documents that stand at a path, with all of their
constraints. -/
def TablesDefinedAt (d : Folder) (path : Path) (outlines : List TableOutline) : Prop :=
  ∀ o ∈ outlines, ∀ x ∈ o.constraints, ∃ w, DefinedAt d path .constraint w ∧
    ReadAs (childParams .constraint) ConstraintSpec.ofParams w x

/-- What follows the reading of a text may use that it holds the value. -/
theorem Ensures.parseText_bind {α : Type} {P : Store → Prop} {R : α → Store → Prop}
    {path text : String} {f : Value → Load α}
    (hnode : ∀ {st : Store} (n : Nat), P st → P { st with nextNode := n })
    (hf : ∀ v, (∃ base next, Yaml.readDocument base text = .ok (v, next)) →
      Ensures P (f v) R fun _ => True) :
    Ensures P (parseText path text >>= f) R fun _ => True := by
  intro st hst
  have hkeeps := ensures_parseText_keeps hnode path text st hst
  rw [outcome_bind]
  rcases hrun : outcome (parseText path text) st with ⟨e | v, st'⟩ <;> rw [hrun] at hkeeps
  · trivial
  · obtain ⟨next, hread⟩ := readDocument_of_parseText hrun
    exact hf v ⟨_, next, hread⟩ st' hkeeps

variable {b : Store} {name database : Value} {done : List TableOutline}

/-- Files that are read one after the other define the tables that are listed. -/
theorem describes_loadFiles (h : d.entry path = .ok .folder) {names : List String}
    (hnames : ∀ name ∈ names, name ∈ documentNames d path)
    (hdone : TablesDefinedAt d path done) :
    Ensures (Loading b s name database done) (loadFiles d path s names)
      (fun _ st => ∃ outlines, TablesDefinedAt d path outlines ∧
        Loading b s name database outlines st) fun _ => True := by
  induction names generalizing done with
  | nil => exact .pure fun _ hst => ⟨done, hdone, hst⟩
  | cons file r ih =>
    rw [loadFiles]
    rcases hentry : d.entry (path.child file) with f | text | _
    · exact .throw fun _ _ => trivial
    · refine Ensures.parseText_bind (fun n hst => hst.numbered n) fun v hv => ?_
      obtain ⟨base, next, hread⟩ := hv
      refine ensures_pureStep_of_ok fun document hdocument => ?_
      obtain ⟨m, rfl⟩ := documentEntries_ok hdocument
      refine .bind (describes_decodeTable _) fun _ => .of_exists fun o => .of_and fun ho => ?_
      refine ih (fun n hn => hnames n (List.mem_cons_of_mem file hn)) ?_
      -- what is defined in the file is defined in the folder
      intro o' ho' x hx
      rcases List.mem_append.mp ho' with ho' | ho'
      · exact hdone o' ho' x hx
      · obtain rfl := List.mem_singleton.mp ho'
        have htable : DefinitionIn .table document .table (.map document .own) := .document
        obtain ⟨w, hw, hspec⟩ := ho.1.exists_constraint htable hx
        exact ⟨w, .fileInside h (hnames file List.mem_cons_self) hentry hread hw, hspec⟩
    · exact .throw fun _ _ => trivial

/-- The tables that the schema lists are defined in documents that stand at a path. -/
def ListsDefined (d : Folder) (path : Path) (s : SchemaId) (st : Store) : Prop :=
  ∃ outlines, TablesDefinedAt d path outlines ∧ st.Lists s outlines

/-- The document in the file at a path defines the tables of the schema that it is read as. -/
theorem describes_decodeText {text : String} (h : d.entry path = .ok (.file text)) :
    Ensures (fun _ => True) (decodeText path.text text) (ListsDefined d path) fun _ => True := by
  refine Ensures.parseText_bind (fun _ hst => hst) fun v hv st _ => ?_
  obtain ⟨base, next, hread⟩ := hv
  suffices hfrom : Ensures (· = st) (decodeDocument path.text v) (ListsDefined d path)
      fun _ => True from hfrom st rfl
  refine (describes_decodeDocument path.text v st).weaken (fun _ hst => hst) ?_ fun _ hst => hst
  rintro s st' ⟨o, ho, -, hload⟩
  obtain ⟨document, m, rfl⟩ : ∃ document m, v = .map document m := by
    cases ho <;> exact ⟨_, _, rfl⟩
  refine ⟨o.tables, fun t ht x hx => ?_, hload.lists⟩
  obtain ⟨w, hw, hdescribe⟩ := ho.exists_table ht
  obtain ⟨u, hu, hspec⟩ := hdescribe.exists_constraint hw hx
  exact ⟨u, .file h hread hu, hspec⟩

/-- **The tables of a schema that was loaded are defined in documents**, with their constraints. -/
theorem describes_loadPath (d : Folder) (path : Path) :
    Ensures (fun _ => True) (loadPath d path) (ListsDefined d path) fun _ => True := by
  rw [loadPath]
  rcases hentry : d.entry path with f | text | _
  · cases f <;> exact .throw fun _ _ => trivial
  · exact describes_decodeText hentry
  · intro st _
    have hnew : Ensures (· = st) (Load.edit (Edit.newSchema (.text "") (.text "")))
        (fun s => Loading st s (.text "") (.text "") []) fun _ => True :=
      (ensures_newSchema st _ _).weaken (fun _ h => h) (fun _ _ h => h.2) fun _ h => h.elim
    have hnone : TablesDefinedAt d path [] := fun o ho => absurd ho List.not_mem_nil
    have hfiles : ∀ s, Ensures (Loading st s (.text "") (.text "") [])
        (loadFiles d path s (documentNames d path))
        (fun _ st' => ∃ outlines, TablesDefinedAt d path outlines ∧
          Loading st s (.text "") (.text "") outlines st') fun _ => True :=
      fun s => describes_loadFiles hentry (fun _ h => h) hnone
    refine Ensures.bind hnew (fun s => .bind (hfiles s) fun _ => .pure ?_) st rfl
    rintro st' ⟨outlines, hdefined, hload⟩
    exact ⟨outlines, hdefined, hload.lists⟩

/-! ### Verdicts on what was loaded -/

/-- A document at a path defines a foreign key, with a reference table that can be no key. -/
structure UnfitReference (d : Folder) (path : Path) (v : Value) : Prop where
  truthy : v.truthy
  unhashable : ¬ v.hashable
  defined : ∃ entries m spec, DefinedAt d path .constraint (.map entries m) ∧
    ReadAs (childParams .constraint) ConstraintSpec.ofParams (.map entries m) spec ∧
    spec.kind = .constraintKind .foreignKey ∧ (.text "reference_table", v) ∈ entries

/-- Tidying a constraint takes its reference table as it is given. -/
theorem ConstraintSpec.referenceTable_of_tidy {raw spec : ConstraintSpec}
    (h : raw.tidy = .ok spec) : spec.referenceTable = raw.referenceTable := by
  simp only [tidy, bind, Except.bind] at h
  rcases hname : cleanText "constraint name" raw.name with e | name <;> rw [hname] at h
  · cases h
  rcases hfields : nameList raw.fields with e | fields <;> rw [hfields] at h
  · cases h
  rcases hreference : nameList raw.referenceFields with e | reference <;> rw [hreference] at h
  · cases h
  rcases hoptions : nameList raw.options with e | options <;> rw [hoptions] at h
  · cases h
  rcases hkind : readKind raw.kind with e | kind <;> rw [hkind] at h <;> cases h
  rfl

/-- The reference table of a constraint that is read is the one in its definition. -/
theorem ReadAs.mem_reference {v : Value} {spec : ConstraintSpec}
    (h : ReadAs (childParams .constraint) ConstraintSpec.ofParams v spec)
    (hgiven : spec.referenceTable.truthy) :
    ∃ entries m, v = .map entries m ∧ (.text "reference_table", spec.referenceTable) ∈ entries := by
  obtain ⟨ps, hps, hspec⟩ := h
  obtain ⟨entries, m, rfl, -, rfl⟩ := childParams_ok hps
  refine ⟨entries, m, rfl, ?_⟩
  rw [ConstraintSpec.ofParams, specOf] at hspec
  rcases hraw : fillParams ConstraintSpec.fill {} (paramsOf id entries) with _ | raw <;>
    rw [hraw] at hspec
  · cases hspec
  have hmem : ∀ x : ConstraintSpec, ("reference_table", x.referenceTable) ∈ x.attributes :=
    fun x => by simp [ConstraintSpec.attributes]
  rw [ConstraintSpec.referenceTable_of_tidy hspec] at hgiven ⊢
  rcases ConstraintSpec.fillsIn.mem_attributes hraw (hmem raw) with hstandard | hparam
  -- the standard reference table is empty, so it is not the one that is given
  · rw [ConstraintSpec.fillsIn.value_eq hstandard (hmem {})] at hgiven
    cases hgiven
  · obtain ⟨k, he, rfl⟩ := mem_paramsOf_iff.mp hparam
    exact he

/-- The constraints of a schema that was loaded are read from definitions at the path. -/
theorem exists_definition_of_loadPath (hload : outcome (loadPath d path) st = (.ok s, st'))
    {e : Value × TableId} (he : e ∈ (st'.schema s).tables) {c : ConstraintId}
    (hc : c ∈ (st'.table e.2).constraints) :
    ∃ v, DefinedAt d path .constraint v ∧
      ReadAs (childParams .constraint) ConstraintSpec.ofParams v
        (st'.constraint c).toConstraintSpec := by
  have hdescribes := describes_loadPath d path st trivial
  rw [hload] at hdescribes
  obtain ⟨outlines, hdefined, hlists⟩ := hdescribes
  obtain ⟨o, ho, hlisted⟩ := exists_of_forall₂ hlists he
  refine hdefined o ho _ ?_
  rw [← hlisted.outline]
  exact List.mem_map_of_mem hc

/-- **Asking about a schema that was loaded comes to a verdict**, whatever the values in the
documents are, with one exception: a document gives a foreign key a reference table that can be no
key, and the check stops at it. -/
theorem judged_of_loadPath (h : Reachable st)
    (hload : outcome (loadPath d path) st = (.ok s, st')) :
    (Judged st' s ∧ ∀ f, ¬ st'.StopsAt s f) ∨
      ∃ v, UnfitReference d path v ∧ st'.StopsAt s (.unhashable v) ∧
        checkSchema st' s = .error (.fault (.unhashable v)) ∧
        outcome (Edit.isValid (.schema s)) st' = (.error (.fault (.unhashable v)), st') := by
  have hcoherent : st'.Coherent := (coherent_of_reachable h).of_loadPath hload
  by_cases hgoes : ∀ f, ¬ st'.StopsAt s f
  · exact .inl ⟨hcoherent.judged_iff.mpr hgoes, hgoes⟩
  · obtain ⟨f, hstops⟩ := not_forall_not.mp hgoes
    obtain ⟨e, he, c, hc, hun, rfl⟩ := hstops.exists_unfindable
    obtain ⟨v, hdefined, hread⟩ := exists_definition_of_loadPath hload he hc
    obtain ⟨entries, m, rfl, hmem⟩ := hread.mem_reference hun.given
    obtain ⟨hcheck, hask⟩ := hstops.outcome hcoherent
    exact .inr ⟨_, ⟨hun.given, hun.unhashable, entries, m, _, hdefined, hread,
      isOfKind_iff.mp hun.foreign, hmem⟩, hstops, hcheck, hask⟩

/-- A world with one file: a table with a foreign key that refers to a table by the value that is
written. -/
def referringFolder (reference : String) : Folder :=
  .ofEntries [] [(.ofText "t.yaml", .file ("table: t\nfields:\n- name: id\n  data_type: int\n" ++
    "constraints:\n- type: FOREIGN KEY\n  fields: id\n  reference_table: " ++ reference))]

/-- Whether reading gives a schema in a store that passes a test. -/
def readsTo (test : SchemaId → Store → Bool) : Except LoadError SchemaId × Store → Bool
  | (.ok s, st) => test s st
  | (.error _, _) => false

theorem exists_of_readsTo (test : SchemaId → Store → Bool)
    {r : Except LoadError SchemaId × Store} (h : readsTo test r = true) :
    ∃ s st', r = (.ok s, st') ∧ test s st' = true := by
  obtain ⟨e | s, st'⟩ := r
  · cases h
  · exact ⟨s, st', rfl, h⟩

/-- Reading a file passes a test if reading the value of its text does. -/
theorem readsTo_loadPath {test : SchemaId → Store → Bool} {text : String}
    (hentry : d.entry path = .ok (.file text))
    (h : ∃ p ∈ (Yaml.readDocument st.nextNode text).toOption,
      readsTo test (outcome (decodeDocument path.text p.1) { st with nextNode := p.2 }) = true) :
    readsTo test (outcome (loadPath d path) st) = true := by
  obtain ⟨⟨v, next⟩, hmem, htest⟩ := h
  rcases hread : Yaml.readDocument st.nextNode text with f | p <;> rw [hread] at hmem <;> cases hmem
  have hparse : outcome (parseText path.text text) st =
      (.ok v, { st with nextNode := next }) := by
    rw [parseText, outcome_get_bind, hread]
    rfl
  rw [loadPath, hentry]
  dsimp only
  rw [decodeText, outcome_bind_of_ok hparse]
  exact htest

/-- A foreign key that refers to a table by a number, which is a key that no table has. -/
theorem judged_of_loadPath_number : ∃ s st',
    outcome (loadPath (referringFolder "5") (.ofText "t.yaml")) .empty = (.ok s, st') ∧
      Judged st' s := by
  have hreads : readsTo (fun s st' => (st'.schemaObstacles s).isEmpty)
      (outcome (loadPath (referringFolder "5") (.ofText "t.yaml")) .empty) = true := by
    refine readsTo_loadPath rfl ?_
    -- the kernel is slow to take characters out of a text
    rw [Yaml.readDocument, Text.toList_pieces]
    decide +kernel
  obtain ⟨s, st', hload, hclear⟩ := exists_of_readsTo _ hreads
  refine ⟨s, st', hload, ?_⟩
  obtain ⟨hjudged, -⟩ | ⟨v, -, hstops, -⟩ := judged_of_loadPath .empty hload
  · exact hjudged
  · rw [Store.StopsAt, List.isEmpty_iff.mp hclear] at hstops
    cases hstops

/-- It is not so that asking about every schema that was loaded comes to a verdict: a list can be no
key. -/
theorem not_judged_of_loadPath :
    ¬ ∀ (d : Folder) (path : Path) (st st' : Store) (s : SchemaId), Reachable st →
      outcome (loadPath d path) st = (.ok s, st') → Judged st' s := by
  intro h
  have hreads : readsTo
      (fun s st' => (checkSchema st' s).mapError (fun e => e.fault?.isSome) = .error true)
      (outcome (loadPath (referringFolder "[x]") (.ofText "t.yaml")) .empty) = true := by
    refine readsTo_loadPath rfl ?_
    rw [Yaml.readDocument, Text.toList_pieces]
    decide +kernel
  obtain ⟨s, st', hload, hfaulty⟩ := exists_of_readsTo _ hreads
  cases h _ _ _ _ _ .empty hload with
  | valid hcheck => simp [hcheck, Except.mapError] at hfaulty
  | invalid hcheck hfault => simp [hcheck, hfault, Except.mapError] at hfaulty

end DbSchema
