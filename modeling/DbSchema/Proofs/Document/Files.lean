import DbSchema.Document.Files
import DbSchema.Proofs.Document.Nodes
import DbSchema.Proofs.Document.RoundTrip
import DbSchema.Proofs.Folder.Inside

/-!
# Tables in the files of a folder

Each table of a schema is written to a file of its own, whose name is that of the table with an
ending.  Reading the files of a folder gives a schema with the tables that they describe, in the
order of the files.

## Main definitions

* `tableFile st t` — the name of the file that a table is written to.
* `LoadingBare b s name database done st` — how far the reading of files has come, up to marks.
* `FileDescribes d folder file o` — the file in the folder describes an outline, but for marks.

## Main results

* `exists_writeTables` — tables are written to files directly inside the folder.
* `ensures_loadFiles` — files that describe outlines are read as tables with these outlines.
-/

namespace DbSchema

variable {st b : Store} {s : SchemaId} {t : TableId} {d d₀ : Folder} {folder : Path}

/-! ### The names of the files -/

/-- The name of the file that a table is written to. -/
def tableFile (st : Store) (t : TableId) : String := st.plain (st.table t).name ++ documentSuffix

theorem hasEnd_tableFile (st : Store) (t : TableId) :
    Text.hasEnd (tableFile st t) documentSuffix := by
  have hreverse : (tableFile st t).toList.reverse =
      documentSuffix.toList.reverse ++ (st.plain (st.table t).name).toList.reverse := by
    rw [tableFile, String.toList_append, List.reverse_append]
  rw [Text.hasEnd, Text.endsWith, hreverse]
  rfl

/-- Tables with different names are written to different files. -/
theorem tableFile_ne {t' : TableId} (h : IsText (st.table t).name) (h' : IsText (st.table t').name)
    (hne : (st.table t).name.same (st.table t').name = false) :
    tableFile st t ≠ tableFile st t' := by
  obtain ⟨n, hn⟩ := h
  obtain ⟨n', hn'⟩ := h'
  intro heq
  rw [tableFile, tableFile, hn, hn', String.append_left_inj] at heq
  have hsame : n = n' := heq
  rw [hn, hn', hsame] at hne
  simp [Value.same] at hne

/-! ### Writing -/

/-- **Tables are written** to files directly inside the folder, one after the other. -/
theorem exists_writeTables {place : List String} (hresolve : d₀.resolve folder = .ok place)
    (hplace : d₀.at? place = some .folder) {done files : List (String × String)}
    {tables : List TableId} (hdone : d₀.Filled place done d)
    (hfiles : List.Forall₂ (fun f t => f.1 = tableFile st t ∧ tableText st t = .ok f.2) files
      tables)
    (hadmits : ∀ f ∈ files, folder.Admits f.1) (hfree : ∀ f ∈ files, d₀.at? (place ++ [f.1]) = none)
    (hnew : ((done ++ files).map Prod.fst).Nodup) :
    ∃ d₁, writeTables st folder d tables = .ok (d₁, files.map fun f => (folder.child f.1, f.2)) ∧
      d₀.Filled place (done ++ files) d₁ := by
  induction hfiles generalizing d done with
  | nil => exact ⟨d, rfl, by rwa [List.append_nil]⟩
  | @cons f t files tables hf _ ih =>
    obtain ⟨name, text⟩ := f
    obtain ⟨hname, htext⟩ := hf
    rw [List.forall_mem_cons] at hadmits hfree
    -- the name is none of those that were written
    have hother : ∀ g ∈ done, g.1 ≠ name := by
      rw [List.map_append] at hnew
      exact fun g hg heq => List.disjoint_left.mp (List.disjoint_of_nodup_append hnew)
        (List.mem_map_of_mem hg) (heq ▸ List.mem_cons_self)
    obtain ⟨d₁, hwrite, hfilled⟩ :=
      hdone.write hresolve hplace hadmits.1 hother hfree.1 text
    rw [List.append_cons] at hnew ⊢
    obtain ⟨d₂, hrest, hfilled⟩ := ih hfilled hadmits.2 hfree.2 hnew
    refine ⟨d₂, ?_, hfilled⟩
    rw [writeTables, ← tableFile, htext]
    simp only [bind, Except.bind]
    rw [← hname, hwrite]
    simp only [hrest]
    rfl

/-! ### Reading -/

variable {name database : Value} {done : List TableOutline}

/-- Reading a text numbers its nodes and leaves what was read before alone. -/
theorem Loading.numbered (h : Loading b s name database done st) (n : Nat) :
    Loading b s name database done { st with nextNode := n } where
  old := ⟨h.old.schemas, h.old.tables, h.old.fields, h.old.indices, h.old.constraints⟩
  new := h.new
  inUse := h.inUse
  name := h.name
  database := h.database
  lists := List.Forall₂.imp (fun _ _ he =>
    he.of_sameCells ⟨rfl, fun _ _ => rfl, fun _ _ => rfl, fun _ _ => rfl⟩) h.lists

/-- How far the reading of files has come: the outlines that were read differ in marks only. -/
def LoadingBare (b : Store) (s : SchemaId) (name database : Value) (done : List TableOutline)
    (st : Store) : Prop :=
  ∃ outlines : List TableOutline, outlines.map TableOutline.bare = done.map TableOutline.bare ∧
    (∀ o ∈ outlines, o.Tidy) ∧ Loading b s name database outlines st

/-- A text that is read from zero on is read in any store, with other marks. -/
theorem ensures_parseText {path text : String} {v : Value} {next : Nat}
    (h : Yaml.readDocument 0 text = .ok (v, next)) :
    Ensures (LoadingBare b s name database done) (parseText path text)
      (fun w st => w.bare = v.bare ∧ LoadingBare b s name database done st) fun _ => False := by
  rintro st ⟨outlines, hbare, htidy, hload⟩
  obtain ⟨w, hread, hw⟩ := Yaml.readDocument_bare h st.nextNode
  rw [parseText, outcome_get_bind, hread]
  exact ⟨hw, outlines, hbare, htidy, hload.numbered _⟩

/-- A table definition is a mapping. -/
theorem Describes.exists_map {v : Value} {o : TableOutline} (h : Describes v o) :
    ∃ entries m, v = .map entries m ∧ Describes (.map entries .own) o := by
  obtain ⟨entries, text, hentries, hrest⟩ := h
  cases v with
  | map entries' m => exact ⟨entries', m, rfl, entries, text, hentries, hrest⟩
  | _ => cases hentries

/-- A table definition that differs in marks from one of the outline is read as a table that does
so too. -/
theorem ensures_decodeTable_bare {v w : Value} {o : TableOutline} (hv : Describes v o)
    (hw : w.bare = v.bare) (hbuild : o.Buildable)
    (hnew : ∀ o' ∈ done, o'.name.same o.name = false) (htidy : ∀ o' ∈ done, o'.Tidy) :
    Ensures (LoadingBare b s name database done) (decodeTable s w)
      (fun _ => LoadingBare b s name database (done ++ [o])) fun _ => False := by
  obtain ⟨o', hdescribe, hbare⟩ := hv.of_bare hw
  have hname : o'.name = o.name := by
    have hnames : o'.name.bare = o.name.bare := congrArg TableOutline.name hbare
    rwa [hdescribe.tidy.name.bare_eq, hv.tidy.name.bare_eq] at hnames
  rintro st ⟨outlines, houtlines, htidy', hload⟩
  have hnames : outlines.map (·.name) = done.map (·.name) :=
    map_eq_of_bare_eq (fun x hx => (htidy x hx).name.bare_eq)
      (fun x hx => (htidy' x hx).name.bare_eq) houtlines
  have hnew' : ∀ x ∈ outlines, x.name.same o'.name = false := by
    have hall : ∀ n ∈ outlines.map (·.name), n.same o.name = false := by
      rw [hnames]
      exact List.forall_mem_map.mpr hnew
    exact fun x hx => hname ▸ hall _ (List.mem_map_of_mem hx)
  obtain ⟨t, st', hread, hload'⟩ := (ensures_decodeTable hdescribe
    (hbuild.of_bare hv.tidy hdescribe.tidy hbare) hnew').exists_ok hload
  rw [hread]
  refine ⟨outlines ++ [o'], by rw [List.map_append, List.map_append, houtlines]; simp [hbare], ?_,
    hload'⟩
  simp only [List.forall_mem_append, List.forall_mem_singleton]
  exact ⟨htidy', hdescribe.tidy⟩

/-- The file in the folder describes an outline, but for marks. -/
def FileDescribes (d : Folder) (folder : Path) (file : String) (o : TableOutline) : Prop :=
  ∃ text u next v, d.entry (folder.child file) = .ok (.file text) ∧
    Yaml.readDocument 0 text = .ok (u, next) ∧ u.bare = v.bare ∧ Describes v o

/-- **Files that describe outlines** are read as tables with these outlines, up to marks. -/
theorem ensures_loadFiles {files : List String} {outlines : List TableOutline}
    (h : List.Forall₂ (FileDescribes d folder) files outlines)
    (hbuild : ∀ o ∈ outlines, o.Buildable)
    (hnew : (done ++ outlines).Pairwise fun o o' => o.name.same o'.name = false)
    (htidy : ∀ o ∈ done, o.Tidy) :
    Ensures (LoadingBare b s name database done) (loadFiles d folder s files)
      (fun _ => LoadingBare b s name database (done ++ outlines)) fun _ => False := by
  induction h generalizing done with
  | nil =>
    rw [List.append_nil]
    exact .pure fun _ h => h
  | @cons file o files outlines hfile _ ih =>
    obtain ⟨text, u, next, v, hentry, hread, hu, hdescribe⟩ := hfile
    have hfirst : ∀ o' ∈ done, o'.name.same o.name = false := fun o' ho' =>
      (List.pairwise_append.mp hnew).2.2 o' ho' o List.mem_cons_self
    rw [List.append_cons] at hnew ⊢
    rw [loadFiles, hentry]
    refine Ensures.bind (ensures_parseText hread) fun w => Ensures.of_and fun hw => ?_
    -- what is read differs from what was written in marks only
    replace hw := hw.trans hu
    obtain ⟨_, hw', -⟩ := hdescribe.of_bare hw
    obtain ⟨entries, m, rfl, -⟩ := hw'.exists_map
    refine ensures_pureStep rfl (Ensures.bind (Ensures.discard ?_) fun _ => ih
      (fun o' ho' => hbuild o' (List.mem_cons_of_mem o ho')) hnew ?_)
    · exact ensures_decodeTable_bare (w := .map entries .own) hdescribe hw
        (hbuild o List.mem_cons_self) hfirst htidy
    · simp only [List.forall_mem_append, List.forall_mem_singleton]
      exact ⟨htidy, hdescribe.tidy⟩

end DbSchema
