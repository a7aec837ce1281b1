import DbSchema.Proofs.Document.Files

/-!
# Folders of tables that are loaded

The tables of a schema are written to a folder that holds no documents before: one file directly
inside it for each table, and nothing else changes.  Loading the folder gives a schema with the same
table names, and each of its tables is written in the same way as before.

The names of the files are made from those of the tables without looking at them, so this is so only
for names that can stand in the name of a file.  The tables `a` and `./a` are written to one file.

## Main definitions

* `Folder.Prepared d folder d₀ place` — the folder has been made and holds no documents.
* `Store.TextReadsBack st t` — the text of a table is read as the mapping that it was made from.
* `tableFiles st s` — the names and texts of the files that the tables are written to.
* `SameForm st st' e e'` — two tables have one name and are written in the same way.

## Main results

* `exists_exportTables` — each table is written to a file of its own.
* `ensures_loadPath` — a folder of files that describe outlines is loaded as tables with these.
* `exported_tables_load_back` — what is written to a folder is loaded from it as it was.
-/

namespace DbSchema

/-- The folder has been made where the names `place` lead to, and nothing in it is named like a
document. -/
structure Folder.Prepared (d : Folder) (folder : Path) (d₀ : Folder) (place : List String) :
    Prop where
  made : d.makeFolders folder = .ok d₀
  resolve : d₀.resolve folder = .ok place
  free : ∀ file, Text.hasEnd file documentSuffix → d₀.at? (place ++ [file]) = none

variable {st : Store} {s : SchemaId} {d d₀ d₁ : Folder} {folder : Path} {place : List String}

/-- There is a folder then. -/
theorem Folder.Prepared.at?_place (h : d.Prepared folder d₀ place) :
    d₀.at? place = some .folder :=
  at?_of_makeFolders h.made h.resolve

/-- The mapping that a table is written as has a text, and this is read as the mapping, but for
marks. -/
def Store.TextReadsBack (st : Store) (t : TableId) : Prop :=
  ∀ v ∈ (encodeTable st t).toOption, ∃ text ∈ (documentText st v).toOption,
    ∃ p ∈ (Yaml.readDocument 0 text).toOption, p.1.bare = v.bare

instance (st : Store) (t : TableId) : Decidable (st.TextReadsBack t) :=
  inferInstanceAs (Decidable (∀ v ∈ (encodeTable st t).toOption,
    ∃ text ∈ (documentText st v).toOption,
      ∃ p ∈ (Yaml.readDocument 0 text).toOption, p.1.bare = v.bare))

/-! ### Names -/

/-- Texts that differ are not the same. -/
theorem IsText.same_eq_false {v w : Value} (hv : IsText v) (hw : IsText w) (hne : v ≠ w) :
    v.same w = false := by
  obtain ⟨n, rfl⟩ := hv
  obtain ⟨m, rfl⟩ := hw
  simpa [Value.same] using hne

/-- The names of the tables of a schema differ. -/
theorem nodup_tableNames (hst : Reachable st)
    (h : ∀ e ∈ (st.schema s).tables, st.ExportableTable s e) :
    ((st.schema s).tables.map (·.1)).Nodup := by
  refine List.pairwise_map.mpr
    (((coherent_of_reachable hst).keys s).imp_of_mem fun {e e'} he _ hne heq => ?_)
  obtain ⟨n, hn⟩ := (h e he).name
  rw [← heq, hn] at hne
  simp [Value.same] at hne

/-- The names of the tables that are listed are those in their outlines. -/
theorem tableNames_of_lists {outlines : List TableOutline} (h : st.Lists s outlines) :
    tableNames st s = outlines.map (·.name) := by
  rw [tableNames, ← List.forall₂_eq_eq_eq]
  exact List.forall₂_map_left_iff.mpr (List.forall₂_map_right_iff.mpr (h.imp fun _ _ he => he.key))

/-! ### Writing -/

/-- The names and texts of the files that the tables of a schema are written to. -/
def tableFiles (st : Store) (s : SchemaId) : List (String × String) :=
  (st.schema s).tables.map fun e => (tableFile st e.2, ((tableText st e.2).toOption).getD "")

theorem mem_tableFiles {e : Value × TableId} (he : e ∈ (st.schema s).tables) {text : String}
    (htext : tableText st e.2 = .ok text) : (tableFile st e.2, text) ∈ tableFiles st s :=
  List.mem_map.mpr ⟨e, he, by rw [htext]; rfl⟩

/-- These names differ. -/
theorem nodup_tableFiles (hst : Reachable st)
    (h : ∀ e ∈ (st.schema s).tables, st.ExportableTable s e) :
    ((tableFiles st s).map Prod.fst).Nodup := by
  rw [tableFiles, List.map_map, List.Nodup, List.pairwise_map]
  refine ((coherent_of_reachable hst).keys s).imp_of_mem fun {e e'} he he' hne => ?_
  refine tableFile_ne ?_ ?_ ?_
  · exact (h e he).key ▸ (h e he).name
  · exact (h e' he').key ▸ (h e' he').name
  · rw [(h e he).key, (h e' he').key]
    exact hne

/-- The paths to the files lead directly inside the folder. -/
theorem paths_tableFiles (hnames : ∀ e ∈ (st.schema s).tables, folder.Admits (tableFile st e.2)) :
    ((tableFiles st s).map fun f => (folder.child f.1, f.2)).map Prod.fst =
      (st.schema s).tables.map fun e => ⟨folder.base, folder.parts ++ [tableFile st e.2]⟩ := by
  rw [tableFiles, List.map_map, List.map_map]
  refine List.map_congr_left fun e he => ?_
  rw [Function.comp_apply, Function.comp_apply, Path.child_of_admits (hnames e he)]

/-- No two of them are the same. -/
theorem nodup_paths (hst : Reachable st) (h : ∀ e ∈ (st.schema s).tables, st.ExportableTable s e)
    (hnames : ∀ e ∈ (st.schema s).tables, folder.Admits (tableFile st e.2)) :
    (((tableFiles st s).map fun f => (folder.child f.1, f.2)).map Prod.fst).Nodup := by
  have hadmits : ∀ name ∈ (tableFiles st s).map Prod.fst, folder.Admits name := by
    simp only [tableFiles, List.forall_mem_map]
    exact hnames
  have hpaths : ((tableFiles st s).map fun f => (folder.child f.1, f.2)).map Prod.fst =
      ((tableFiles st s).map Prod.fst).map folder.child := by
    rw [List.map_map, List.map_map]
    rfl
  rw [hpaths]
  exact (nodup_tableFiles hst h).map_on fun x hx y hy =>
    Path.child_injective (hadmits x hx) (hadmits y hy)

/-- **Each table is written to a file of its own** in a folder that is prepared for them. -/
theorem exists_exportTables (hst : Reachable st)
    (h : ∀ e ∈ (st.schema s).tables, st.ExportableTable s e)
    (hnames : ∀ e ∈ (st.schema s).tables, folder.Admits (tableFile st e.2))
    (hfolder : d.Prepared folder d₀ place)
    (htexts : ∀ e ∈ (st.schema s).tables, ∃ text, tableText st e.2 = .ok text) :
    ∃ d₁, d₀.Filled place (tableFiles st s) d₁ ∧
      exportTables st s folder d = if (st.schema s).tables.isEmpty then .error (.empty .tables)
        else .ok (d₁, (tableFiles st s).map fun f => (folder.child f.1, f.2)) := by
  have hfiles : List.Forall₂ (fun f t => f.1 = tableFile st t ∧ tableText st t = .ok f.2)
      (tableFiles st s) ((st.schema s).tables.map (·.2)) := by
    refine List.forall₂_map_left_iff.mpr (List.forall₂_map_right_iff.mpr
      (List.forall₂_same.mpr fun e he => ⟨rfl, ?_⟩))
    obtain ⟨text, htext⟩ := htexts e he
    rw [htext]
    rfl
  obtain ⟨d₁, hwrite, hfilled⟩ := exists_writeTables hfolder.resolve hfolder.at?_place .nil hfiles
    (List.forall_mem_map.mpr hnames)
    (List.forall_mem_map.mpr fun e _ => hfolder.free _ (hasEnd_tableFile st e.2))
    (nodup_tableFiles hst h)
  refine ⟨d₁, hfilled, ?_⟩
  rw [exportTables, hfolder.made]
  dsimp only
  -- the export of a schema without tables is refused
  by_cases hnil : (st.schema s).tables = []
  · rw [tablesOf, hnil]
    rfl
  · rw [if_neg (by simpa using hnil), tablesOf_eq hnil]
    exact hwrite

/-! ### Loading -/

/-- The names of the files are those that are looked at when the folder is loaded. -/
theorem perm_documents (hfilled : d₀.Filled place (tableFiles st s) d₁)
    (hnodup : ((tableFiles st s).map Prod.fst).Nodup)
    (hfree : ∀ file, Text.hasEnd file documentSuffix → d₀.at? (place ++ [file]) = none) :
    ((d₁.names place).filter fun name => Text.hasEnd name documentSuffix).Perm
      ((tableFiles st s).map Prod.fst) := by
  refine (List.perm_ext_iff_of_nodup (Folder.nodup_names.filter _) hnodup).mpr fun name => ?_
  rw [List.mem_filter]
  constructor
  · rintro ⟨hname, hend⟩
    exact (hfilled.mem_names (hfree name hend)).mp hname
  · intro hname
    obtain ⟨f, hf, rfl⟩ := List.mem_map.mp hname
    obtain ⟨e, -, rfl⟩ := List.mem_map.mp hf
    have hend := hasEnd_tableFile st e.2
    exact ⟨(hfilled.mem_names (hfree _ hend)).mpr hname, hend⟩

/-- **A folder of files that describe outlines** is loaded as a schema that lists tables with these
outlines, up to marks and to their order. -/
theorem ensures_loadPath (hresolve : d.resolve folder = .ok place)
    (hplace : d.at? place = some .folder) {files : List String} {outlines : List TableOutline}
    (hfiles : ((d.names place).filter fun name => Text.hasEnd name documentSuffix).Perm files)
    (h : List.Forall₂ (FileDescribes d folder) files outlines)
    (hbuild : ∀ o ∈ outlines, o.Buildable) (hnodup : (outlines.map (·.name)).Nodup)
    (st₀ : Store) :
    Ensures (· = st₀) (loadPath d folder)
      (fun s st => ∃ sorted : List TableOutline, sorted.Perm outlines ∧
        LoadingBare st₀ s (.text "") (.text "") sorted st) fun _ => False := by
  -- the files are read in the order of their names
  obtain ⟨sorted, hsorted, hperm⟩ := List.perm_comp_forall₂ hfiles h
  have htext : ∀ o ∈ sorted, IsText o.name := fun o ho => by
    obtain ⟨_, -, _, _, _, _, -, -, -, hdescribe⟩ := exists_of_forall₂ hsorted.flip ho
    exact hdescribe.tidy.name
  have hnew : ([] ++ sorted).Pairwise fun (o o' : TableOutline) => o.name.same o'.name = false :=
    (List.pairwise_map.mp ((hperm.map _).nodup_iff.mpr hnodup)).imp_of_mem fun ho ho' hne =>
      (htext _ ho).same_eq_false (htext _ ho') hne
  have hentry : d.entry folder = .ok .folder := by
    rw [Folder.entry, hresolve]
    simp only [bind, Except.bind, hplace]
    rfl
  rw [loadPath, hentry, hresolve]
  refine Ensures.bind (ensures_newSchema st₀ _ _) fun s => .of_and fun _ => ?_
  have hread : Ensures (Loading st₀ s (.text "") (.text "") []) (loadFiles d folder s _)
      (fun _ => LoadingBare st₀ s (.text "") (.text "") ([] ++ sorted)) fun _ => False :=
    (ensures_loadFiles hsorted (fun o ho => hbuild o (hperm.mem_iff.mp ho)) hnew
      (List.forall_mem_nil _)).weaken
      (fun _ hload => ⟨[], rfl, List.forall_mem_nil _, hload⟩) (fun _ _ h => h) fun _ h => h
  exact Ensures.bind hread fun _ => .pure fun _ h => ⟨sorted, hperm, h⟩

/-! ### There and back -/

/-- Two tables have one name and are written in the same way. -/
structure SameForm (st st' : Store) (e e' : Value × TableId) : Prop where
  key : e'.1 = e.1
  form : ∃ v v', encodeTable st e.2 = .ok v ∧ encodeTable st' e'.2 = .ok v' ∧ v'.bare = v.bare

/-- A table that is written has a text, and what is read from it describes the table. -/
theorem exists_text {t : TableId} (h : st.WritableTable t) (htext : st.TextReadsBack t) :
    ∃ text u next v, tableText st t = .ok text ∧ Yaml.readDocument 0 text = .ok (u, next) ∧
      u.bare = v.bare ∧ Describes v (settledOutline st t) := by
  obtain ⟨v, hv, hdescribe⟩ := describes_encodeTable h.toLegibleTable
  rw [trimmed_settledOutline h] at hdescribe
  obtain ⟨text, hprint, ⟨u, next⟩, hread, hbare⟩ := htext v (by rw [hv]; rfl)
  refine ⟨text, u, next, v, ?_, toOption_eq_some_iff.mp hread, hbare, hdescribe⟩
  rw [tableText, hv]
  exact toOption_eq_some_iff.mp hprint

/-- When the tables have been written, every file describes the settled outline of its table. -/
theorem fileDescribes_tableFiles (h : ∀ e ∈ (st.schema s).tables, st.WritableTable e.2)
    (htexts : ∀ e ∈ (st.schema s).tables, st.TextReadsBack e.2)
    (hnames : ∀ e ∈ (st.schema s).tables, folder.Admits (tableFile st e.2))
    (hfolder : d.Prepared folder d₀ place) (hfilled : d₀.Filled place (tableFiles st s) d₁) :
    List.Forall₂ (FileDescribes d₁ folder) ((tableFiles st s).map Prod.fst)
      ((st.schema s).tables.map fun e => settledOutline st e.2) := by
  rw [tableFiles, List.map_map]
  refine List.forall₂_map_left_iff.mpr (List.forall₂_map_right_iff.mpr
    (List.forall₂_same.mpr fun e he => ?_))
  obtain ⟨text, u, next, v, ht, hread, hbare, hdescribe⟩ := exists_text (h e he) (htexts e he)
  refine ⟨text, u, next, v, ?_, hread, hbare, hdescribe⟩
  exact hfilled.entry hfolder.resolve hfolder.at?_place (mem_tableFiles he ht) (hnames e he)

/-- A table that is listed with the outline of a table that can be written, up to marks, is written
in the same way. -/
theorem sameForm_of_bare {st' : Store} {s' : SchemaId} {e e' : Value × TableId} {o : TableOutline}
    (he : st.ExportableTable s e) (h : st.WritableTable e.2) (he' : ListedAs st' s' e' o)
    (htidy : o.Tidy) (hbare : o.bare = (settledOutline st e.2).bare) : SameForm st st' e e' where
  key := by
    have hname : o.name.bare = (st.table e.2).name.bare := congrArg TableOutline.name hbare
    rwa [htidy.name.bare_eq, h.name.bare_eq, ← he'.key, he.key] at hname
  form := by
    have hfields : o.fields ≠ [] := fun hnil => by
      have hread := congrArg TableOutline.fields hbare
      rw [TableOutline.bare, hnil] at hread
      simp only [TableOutline.bare, settledOutline, List.map_nil, List.map_map, eq_comm (a := []),
        List.map_eq_nil_iff] at hread
      exact h.fields hread
    obtain ⟨v, hv, hdocument⟩ := bare_encodeTable h.toLegibleTable
    obtain ⟨v', hv', hdocument'⟩ :=
      bare_encodeTable (he'.writable htidy hfields).toLegibleTable
    refine ⟨v, v', hv, hv', ?_⟩
    rw [hdocument', he'.outline, ← TableOutline.document_bare, hbare, TableOutline.document_bare,
      document_settledOutline, hdocument]

/-- **What is written to a folder is loaded from it as it was.**  The attributes of the schema have
values of the declared types, its tables have fields and are listed under their names, and these
can stand in the names of files; the folder holds no documents before, and every table has a text
that is read as what it was made from.  Then each table is written to a file of its own directly
inside the folder, and nothing else is changed; a schema without tables is refused.  Loading the
folder, into any store, gives a schema with the same table names, and each table is written in the
same way as before. -/
theorem exported_tables_load_back (hst : Reachable st)
    (h : ∀ e ∈ (st.schema s).tables, st.ExportableTable s e)
    (hnames : ∀ e ∈ (st.schema s).tables, folder.Admits (tableFile st e.2))
    (hfolder : d.Prepared folder d₀ place)
    (htexts : ∀ e ∈ (st.schema s).tables, st.TextReadsBack e.2) (st₀ : Store) :
    ∃ d₁ written s' st',
      (exportTables st s folder d = if (st.schema s).tables.isEmpty then .error (.empty .tables)
        else .ok (d₁, written)) ∧
      written.map Prod.fst = (st.schema s).tables.map
        (fun e => ⟨folder.base, folder.parts ++ [tableFile st e.2]⟩) ∧
      (written.map Prod.fst).Nodup ∧
      (∀ names, (∀ e ∈ (st.schema s).tables, names ≠ place ++ [tableFile st e.2]) →
        d₁.at? names = d₀.at? names) ∧
      outcome (loadPath d₁ folder) st₀ = (.ok s', st') ∧
      (tableNames st' s').Perm (tableNames st s) ∧
      ∀ e ∈ (st.schema s).tables, ∃ e' ∈ (st'.schema s').tables, SameForm st st' e e' := by
  have hwritable := fun e he => (h e he).writable hst he
  obtain ⟨d₁, hfilled, hexport⟩ := exists_exportTables hst h hnames hfolder fun e he =>
    have ⟨text, _, _, _, ht, _⟩ := exists_text (hwritable e he) (htexts e he)
    ⟨text, ht⟩
  have hdescribe := fileDescribes_tableFiles hwritable htexts hnames hfolder hfilled
  have hkeys : ((st.schema s).tables.map fun e => settledOutline st e.2).map (·.name) =
      tableNames st s := by
    rw [List.map_map]
    exact List.map_congr_left fun e he => (h e he).key
  obtain ⟨s', st', hload, sorted, hperm, outlines, hbare, htidy, hloading⟩ :=
    (ensures_loadPath (hfilled.resolve hfolder.resolve) (hfilled.folders hfolder.at?_place)
      (perm_documents hfilled (nodup_tableFiles hst h) hfolder.free) hdescribe
      (List.forall_mem_map.mpr fun e he => buildable_settledOutline (hwritable e he).coherent)
      (hkeys ▸ nodup_tableNames hst h) st₀).exists_ok rfl
  refine ⟨d₁, _, s', st', hexport, ?_, ?_, ?_, hload, ?_, ?_⟩
  · exact paths_tableFiles hnames
  · exact nodup_paths hst h hnames
  · refine fun names hother => hfilled.other names ?_
    exact List.forall_mem_map.mpr hother
  · -- the names in outlines have no marks
    have hnames' : outlines.map (·.name) = sorted.map (·.name) := by
      refine map_eq_of_bare_eq (fun o ho => ?_) (fun o ho => (htidy o ho).name.bare_eq) hbare
      obtain ⟨e, he, rfl⟩ := List.mem_map.mp (hperm.mem_iff.mp ho)
      exact (hwritable e he).name.bare_eq
    rw [tableNames_of_lists hloading.lists, hnames', ← hkeys]
    exact hperm.map _
  · intro e he
    have hmem : (settledOutline st e.2).bare ∈ outlines.map TableOutline.bare := by
      rw [hbare]
      exact List.mem_map_of_mem (hperm.mem_iff.mpr (List.mem_map_of_mem he))
    obtain ⟨o, ho, heq⟩ := List.mem_map.mp hmem
    obtain ⟨e', he', hlisted⟩ := exists_of_forall₂ hloading.lists.flip ho
    exact ⟨e', he', sameForm_of_bare (h e he) (hwritable e he) hlisted (htidy o ho) heq⟩

/-- An empty world is prepared by making the folder `out/yaml` in it. -/
theorem prepared_empty : Folder.Prepared {} (.ofText "out/yaml")
    ⟨[(["out"], .folder), (["out", "yaml"], .folder)], []⟩ ["out", "yaml"] where
  made := rfl
  resolve := rfl
  free file _ := by simp [Folder.at?]

/-- A schema with two tables of the given names, each with one field. -/
def twoTables (name name' : String) : Store :=
  history [.makeSchema (.text "shop") (.text ""),
    .addTable ⟨0⟩ .null [("name", .text name)],
    .addField ⟨0⟩ .null [("name", .text "id"), ("data_type", .text "int")],
    .addTable ⟨0⟩ .null [("name", .text name')],
    .addField ⟨1⟩ .null [("name", .text "x"), ("data_type", .text "int")]]

/-- A schema with two tables has texts that read back if both have. -/
theorem textsReadBack_of_two (t t' : TableId) (htables : (st.schema s).tables.map (·.2) = [t, t'])
    (h : st.TextReadsBack t) (h' : st.TextReadsBack t') :
    ∀ e ∈ (st.schema s).tables, st.TextReadsBack e.2 := by
  refine List.forall_mem_map.mp ?_
  rw [htables, List.forall_mem_cons]
  exact ⟨h, List.forall_mem_singleton.mpr h'⟩

/-- Two tables are written to the files `users.yaml` and `notes.yaml`, and loaded from there. -/
theorem exported_tables_load_back_of_two_tables :
    let st := twoTables "users" "notes"
    ∃ d₁ written s' st', exportTables st ⟨0⟩ (.ofText "out/yaml") {} = .ok (d₁, written) ∧
      (written.map Prod.fst).map Path.text = ["out/yaml/users.yaml", "out/yaml/notes.yaml"] ∧
      outcome (loadPath d₁ (.ofText "out/yaml")) st = (.ok s', st') ∧
      ((tableNames st' s').map Value.asText?).Perm [some "users", some "notes"] := by
  intro st
  have hst : Reachable st := reachable_history _
  have htables : ∀ e ∈ (st.schema ⟨0⟩).tables, st.ExportableTable ⟨0⟩ e := by decide +kernel
  have hadmits : ∀ e ∈ (st.schema ⟨0⟩).tables,
      (Path.ofText "out/yaml").Admits (tableFile st e.2) := by decide +kernel
  have htexts : ∀ e ∈ (st.schema ⟨0⟩).tables, st.TextReadsBack e.2 :=
    textsReadBack_of_two ⟨0⟩ ⟨1⟩ (by decide +kernel) (by decide +kernel) (by decide +kernel)
  have hsome : (st.schema ⟨0⟩).tables.isEmpty = false := by decide +kernel
  have hfiles : ((st.schema ⟨0⟩).tables.map fun e =>
      (⟨.here, ["out", "yaml"] ++ [tableFile st e.2]⟩ : Path)).map Path.text =
      ["out/yaml/users.yaml", "out/yaml/notes.yaml"] := by decide +kernel
  have hlisted : (tableNames st ⟨0⟩).map Value.asText? = [some "users", some "notes"] := by
    decide +kernel
  obtain ⟨d₁, written, s', st', hexport, hpaths, -, -, hload, hnames, -⟩ :=
    exported_tables_load_back hst htables hadmits prepared_empty htexts st
  rw [hsome, if_neg Bool.false_ne_true] at hexport
  have hperm := hnames.map Value.asText?
  rw [hlisted] at hperm
  exact ⟨d₁, written, s', st', hexport, (congrArg _ hpaths).trans hfiles, hload, hperm⟩

/-- A table whose name leads out of the folder is written elsewhere, and not found when the folder
is loaded. -/
theorem not_inside_of_dots :
    ¬ ∀ (st : Store) (s : SchemaId) (d d₀ d₁ : Folder) (folder : Path) (place : List String)
        (written : List (Path × String)), Reachable st →
      (∀ e ∈ (st.schema s).tables, st.ExportableTable s e) →
      (∀ e ∈ (st.schema s).tables, st.TextReadsBack e.2) → d.Prepared folder d₀ place →
      exportTables st s folder d = .ok (d₁, written) →
      (written.map Prod.fst).Nodup ∧
        (∀ f ∈ written, ∃ file, f.1 = ⟨folder.base, folder.parts ++ [file]⟩) ∧
        ∃ s' st', outcome (loadPath d₁ folder) {} = (.ok s', st') ∧
          (tableNames st' s').Perm (tableNames st s) := by
  intro h
  let st := twoTables "a" "../a"
  have htables : ∀ e ∈ (st.schema ⟨0⟩).tables, st.ExportableTable ⟨0⟩ e := by decide +kernel
  have htexts : ∀ e ∈ (st.schema ⟨0⟩).tables, st.TextReadsBack e.2 :=
    textsReadBack_of_two ⟨0⟩ ⟨1⟩ (by decide +kernel) (by decide +kernel) (by decide +kernel)
  have hpaths : ((exportTables st ⟨0⟩ (.ofText "out/yaml") {}).toOption.map
      fun r => r.2.map fun f => f.1.parts) =
      some [["out", "yaml", "a.yaml"], ["out", "yaml", "..", "a.yaml"]] := by decide +kernel
  rcases hexport : exportTables st ⟨0⟩ (.ofText "out/yaml") {} with e | ⟨d₁, written⟩ <;>
    rw [hexport] at hpaths
  · cases hpaths
  obtain ⟨-, hinside, -⟩ := h st ⟨0⟩ _ _ _ _ _ _ (reachable_history _) htables htexts
    prepared_empty hexport
  -- the second path has four names, and one directly inside the folder would have three
  have hlengths : ∀ f ∈ written, f.1.parts.length = 3 := fun f hf => by
    obtain ⟨file, hfile⟩ := hinside f hf
    rw [hfile]
    rfl
  have hmem : ["out", "yaml", "..", "a.yaml"] ∈ written.map fun f => f.1.parts := by
    rw [show (written.map fun f => f.1.parts) = _ from Option.some.inj hpaths]
    decide
  obtain ⟨f, hf, hparts⟩ := List.mem_map.mp hmem
  exact absurd (hparts ▸ hlengths f hf) (by decide)

end DbSchema
