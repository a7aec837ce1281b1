import DbSchema.Proofs.Source.Clustering
import DbSchema.Proofs.Source.Drawing
import DbSchema.Proofs.Source.InTurn
import Mathlib.Data.List.Pairwise

/-!
# Tables that a catalog describes

The views of a catalog list tables of all kinds and tell of the columns, the keys, the checks and
the properties of each.  Of a listing exactly the Delta tables are read, in order, with the fields,
the constraints and the options that are described, in whatever form the rows come.  The reading
fails only at a Delta table whose clustering columns cannot be read.

## Main definitions

* `Catalog.ColumnReport`, `Catalog.InfoReport` — what is told of a column and of a table.
* `Catalog.TableReport` — what is told of a listed table; `TableReport.Sound` — it describes one,
  `TableReport.Readable` — its clustering columns can be read.
* `Catalog.Has row cells` — a row of any form has these cells.
* `Catalog.Lists c p listing` — the database lists these tables and tells of them.
* `TableReport.outline` — the outline of the table that is described.

## Main results

* `Catalog.nodup_statements` — tables of different names are asked about with different statements.
* `Catalog.lists_answering` — every listing of tables with different names is that of some database,
  in any forms of rows.
* `Catalog.draws_readMembers`, `Catalog.draws_readOptions` — what the parts of the reading add.
* `Catalog.draws_readTable`, `Catalog.fails_readTable` — a table is read as described, or it cannot
  be read.
* `Catalog.readTables_of_lists` — the Delta tables of a listing are read as described.
-/

namespace DbSchema.Source.Catalog

open Probe

/-! ### Reports -/

/-- What is told of a column. -/
structure ColumnReport where
  name : String
  /-- The declared type and its parts. -/
  declared : Value
  dataType : String
  size : List Int
  typed : splitType declared = .ok (dataType, size)
  nullable : Bool
  default : Value
  comments : Value

/-- What a row of the table view tells of a table. -/
structure InfoReport where
  name : String
  tableType : Option String
  format : Option String
  clustering : Value

/-- What is told of a listed table. -/
structure TableReport where
  name : String
  /-- The rows of the table view that the question about the table gives; the first one with just
  its name is its own. -/
  infos : List InfoReport
  columns : List ColumnReport
  /-- The columns of the primary key in order, each with the name of the key. -/
  key : List (String × String)
  /-- The checks in order: their names and what they check. -/
  checks : List (String × String)
  /-- The properties in order: their keys and their values. -/
  properties : List (String × String)

/-- The description of the field: its type is written in upper case. -/
def ColumnReport.spec (x : ColumnReport) : FieldSpec :=
  { name := .text x.name
    dataType := .text (Text.trim (Text.upper x.dataType))
    size := .ofInts x.size
    nullable := .bool x.nullable
    default := x.default
    comments := x.comments }

namespace InfoReport

variable (x : InfoReport)

/-- What is known of the table. -/
def info : TableInfo := ⟨textOrNull x.tableType, textOrNull x.format, x.clustering⟩

/-- Whether the table is a Delta table. -/
def isDelta : Bool :=
  let format := Text.upper (Text.trim (x.format.getD ""))
  readTypes.contains (Text.upper (x.tableType.getD "")) && (format == "" || format == "DELTA")

/-- The columns that the table is clustered by. -/
def clusters : List String := (clusterNames x.clustering).toOption.getD []

/-- The option that names the columns that the table is clustered by, if there are any. -/
def clusterOptions : List String := if x.clusters = [] then [] else [clusterOption x.clusters]

end InfoReport

/-- The description of a check. -/
def checkSpec (e : String × String) : ConstraintSpec :=
  { name := .text (Text.trim e.1), kind := .constraintKind .check, expression := .text e.2 }

namespace TableReport

variable (d : TableReport)

/-- The own row of the table. -/
def own : Option InfoReport := d.infos.find? fun x => x.name = d.name

/-- Whether the table is read. -/
def isRead : Bool := d.own.any (·.isDelta)

/-- The description of the primary key, if there is one; its first row names it. -/
def keyConstraint : List ConstraintSpec :=
  match d.key with
  | [] => []
  | first :: _ => [{ Edit.keySpec (d.key.map (·.2)) with name := .text first.1 }]

/-- The options that the properties give. -/
def propertyOptions : List String := d.properties.map fun e => e.1 ++ "=" ++ e.2

/-- The options: one for the clustering columns if there are any, and one for each property, which
is trimmed as a whole. -/
def options : List String :=
  d.own.toList.flatMap (·.clusterOptions) ++ d.propertyOptions.map Text.trim

/-- The outline of the table. -/
def outline : TableOutline :=
  { name := .text d.name
    fields := d.columns.map (·.spec)
    constraints := d.keyConstraint ++ d.checks.map checkSpec
    options := d.options }

/-- The report describes a table: the names of columns are trimmed, not empty and different, the key
is over columns of the table, and what clusters it holds no objects. -/
structure Sound : Prop where
  columns : (d.columns.map (·.name)).Nodup
  normalised : Normalised (d.columns.map (·.name))
  key : d.key.map (·.2) ⊆ d.columns.map (·.name)
  clustering : ∀ x ∈ d.own, x.clustering.refs = []

/-- The clustering columns of a table that is read can be read. -/
def Readable : Prop := ∀ x ∈ d.own, x.isDelta → ∃ names, clusterNames x.clustering = .ok names

end TableReport

/-! ### Rows of any form -/

/-- The row, in whatever form, has these cells; one that is null may be missing. -/
def Has (row : Row) (cells : List (String × Value)) : Prop :=
  ∀ e ∈ cells, (row.find e.1).getD .null = e.2

theorem Has.column {row : Row} {cells : List (String × Value)} {name : String} {v : Value}
    (h : Has row cells) (hmem : (name, v) ∈ cells) : column row name = v := by
  rw [column_eq, h _ hmem]

/-- The row of a column. -/
def TellsColumn (row : Row) (x : ColumnReport) : Prop :=
  Has row [("column_name", .text x.name), ("data_type", x.declared), ("column_default", x.default),
      ("comment", x.comments)] ∧
    ((row.find "is_nullable").getD .null).same (.text "NO") = !x.nullable

/-- The row of a table. -/
def TellsInfo (row : Row) (x : InfoReport) : Prop :=
  Has row [("table_name", .text x.name), ("table_type", textOrNull x.tableType),
    ("data_source_format", textOrNull x.format), ("clustering_columns", x.clustering)]

/-- The row of a column of the key; a name of the key that is missing or null is empty. -/
def TellsKey (row : Row) (e : String × String) : Prop :=
  Has row [("column_name", .text e.2)] ∧ orEmpty (row.find "constraint_name") = .text e.1

/-- The row of a check. -/
def TellsCheck (row : Row) (e : String × String) : Prop :=
  Has row [("constraint_name", .text e.1), ("check_clause", .text e.2)]

/-- The row of a property. -/
def TellsProperty (row : Row) (e : String × String) : Prop :=
  Has row [("key", .text e.1), ("value", .text e.2)]

/-- The database tells of the members of the table. -/
structure TellsMembers (c : Connection) (p : Place) (d : TableReport) : Prop where
  columns : ∃ rows, Answers c (columnsStatement p d.name) none rows ∧
    List.Forall₂ TellsColumn rows d.columns
  key : ∃ rows, Answers c (keyStatement p d.name) none rows ∧ List.Forall₂ TellsKey rows d.key
  checks : ∃ rows, Answers c (checksStatement p d.name) none rows ∧
    List.Forall₂ TellsCheck rows d.checks
  properties : ∃ rows, Answers c (propertiesStatement p d.name) none rows ∧
    List.Forall₂ TellsProperty rows d.properties

/-- The database tells of the table, and of its members if it is read. -/
structure TellsOf (c : Connection) (p : Place) (d : TableReport) : Prop where
  infos : ∃ rows, Answers c (infoStatement p d.name) none rows ∧ List.Forall₂ TellsInfo rows d.infos
  members : d.isRead → TellsMembers c p d

/-- The database lists these tables and tells of each. -/
structure Lists (c : Connection) (p : Place) (listing : List TableReport) : Prop where
  names : ∃ rows, Answers c (tablesStatement p) none rows ∧
    List.Forall₂ (fun row d => Has row [("table_name", .text d.name)]) rows listing
  tells : ∀ d ∈ listing, TellsOf c p d

/-! ### Databases that tell reports -/

/-- A row of the given form that has these cells. -/
def rowOf (form : RowForm) (cells : List (String × Value)) : Row :=
  { Row.ofCells cells with form }

theorem has_rowOf (form : RowForm) {cells : List (String × Value)} (h : (cells.map (·.1)).Nodup) :
    Has (rowOf form cells) cells := by
  intro e he
  have hfind : (rowOf form cells).find e.1 = some e.2 := (Row.shows_ofCells h).cell e he
  rw [hfind, Option.getD_some]

theorem Has.mono {row : Row} {cells cells' : List (String × Value)} (h : Has row cells)
    (hsub : ∀ e ∈ cells', e ∈ cells) : Has row cells' := fun e he => h e (hsub e he)

/-- The row of a column. -/
def ColumnReport.row (form : RowForm) (x : ColumnReport) : Row :=
  rowOf form [("column_name", .text x.name), ("data_type", x.declared),
    ("is_nullable", .text (if x.nullable then "YES" else "NO")), ("column_default", x.default),
    ("comment", x.comments)]

theorem tells_columnRow (form : RowForm) (x : ColumnReport) : TellsColumn (x.row form) x := by
  have hhas : Has (x.row form) _ := has_rowOf form (by simp)
  refine ⟨hhas.mono (by simp), ?_⟩
  rw [hhas ("is_nullable", .text (if x.nullable then "YES" else "NO")) (by simp)]
  cases x.nullable <;> simp [Value.same]

/-- The row of a table. -/
def InfoReport.row (form : RowForm) (x : InfoReport) : Row :=
  rowOf form [("table_name", .text x.name), ("table_type", textOrNull x.tableType),
    ("data_source_format", textOrNull x.format), ("clustering_columns", x.clustering)]

theorem tells_infoRow (form : RowForm) (x : InfoReport) : TellsInfo (x.row form) x :=
  has_rowOf form (by simp)

/-- The row of a column of the key. -/
def keyRow (form : RowForm) (e : String × String) : Row :=
  rowOf form [("constraint_name", .text e.1), ("column_name", .text e.2)]

theorem tells_keyRow (form : RowForm) (e : String × String) : TellsKey (keyRow form e) e := by
  have hhas : Has (keyRow form e) _ := has_rowOf form (by simp)
  refine ⟨hhas.mono (by simp), ?_⟩
  have hfind : (keyRow form e).find "constraint_name" = some (.text e.1) :=
    (Row.shows_ofCells (by simp)).cell ("constraint_name", .text e.1) (by simp)
  rw [hfind, orEmpty_text]

/-- The row of a check. -/
def checkRow (form : RowForm) (e : String × String) : Row :=
  rowOf form [("constraint_name", .text e.1), ("check_clause", .text e.2)]

theorem tells_checkRow (form : RowForm) (e : String × String) : TellsCheck (checkRow form e) e :=
  has_rowOf form (by simp)

/-- The row of a property. -/
def propertyRow (form : RowForm) (e : String × String) : Row :=
  rowOf form [("key", .text e.1), ("value", .text e.2)]

theorem tells_propertyRow (form : RowForm) (e : String × String) :
    TellsProperty (propertyRow form e) e := has_rowOf form (by simp)

/-- What a database that holds the table answers to the statements about it, with rows of the given
form. -/
def TableReport.answers (form : RowForm) (p : Place) (d : TableReport) :
    List (String × List Row) :=
  [(infoStatement p d.name, d.infos.map (·.row form)),
    (columnsStatement p d.name, d.columns.map (·.row form)),
    (keyStatement p d.name, d.key.map (keyRow form)),
    (checksStatement p d.name, d.checks.map (checkRow form)),
    (propertiesStatement p d.name, d.properties.map (propertyRow form))]

/-- What a database that holds these tables answers, each with rows of its form. -/
def answersOf (p : Place) (listing : List (RowForm × TableReport)) : List (String × List Row) :=
  (tablesStatement p, listing.map fun e => rowOf e.1 [("table_name", .text e.2.name)]) ::
    listing.flatMap fun e => e.2.answers e.1 p

/-- A database that answers like one that holds the table tells of it. -/
theorem tellsOf_of_answers {c : Connection} {form : RowForm} {p : Place} {d : TableReport}
    (h : ∀ a ∈ d.answers form p, Answers c a.1 none a.2) : TellsOf c p d := by
  simp only [TableReport.answers, List.forall_mem_cons] at h
  obtain ⟨hinfos, hcolumns, hkey, hchecks, hproperties, -⟩ := h
  exact
    { infos := ⟨_, hinfos, forall₂_map_row (tells_infoRow form) _⟩
      members := fun _ =>
        { columns := ⟨_, hcolumns, forall₂_map_row (tells_columnRow form) _⟩
          key := ⟨_, hkey, forall₂_map_row (tells_keyRow form) _⟩
          checks := ⟨_, hchecks, forall₂_map_row (tells_checkRow form) _⟩
          properties := ⟨_, hproperties, forall₂_map_row (tells_propertyRow form) _⟩ } }

/-- A database that answers like one that holds these tables lists them. -/
theorem lists_of_answers {c : Connection} {p : Place} {listing : List (RowForm × TableReport)}
    (h : ∀ a ∈ answersOf p listing, Answers c a.1 none a.2) :
    Lists c p (listing.map (·.2)) := by
  obtain ⟨hnames, htables⟩ := List.forall_mem_cons.mp h
  have hrows : List.Forall₂ (fun row d => Has row [("table_name", .text d.name)])
      (listing.map fun e => rowOf e.1 [("table_name", .text e.2.name)]) (listing.map (·.2)) := by
    rw [List.forall₂_map_left_iff, List.forall₂_map_right_iff, List.forall₂_same]
    exact fun e _ => has_rowOf e.1 (by simp)
  refine ⟨⟨_, hnames, hrows⟩, fun d hd => ?_⟩
  obtain ⟨e, he, rfl⟩ := List.mem_map.mp hd
  exact tellsOf_of_answers fun a ha => htables a (List.mem_flatMap.mpr ⟨e, he, ha⟩)

/-! ### Different statements

The statements begin with words that differ in the character at place 17, except for those about the
two kinds of constraints, which differ at place 29. -/

/-- A text has this character at this place. -/
def Marked (i : Nat) (c : Char) (s : String) : Prop := s.toList[i]? = some c

namespace Marked

variable {i : Nat} {c c' : Char} {s s' : String}

theorem ofList {cs : List Char} (h : cs[i]? = some c) : Marked i c (String.ofList cs) := by
  rw [Marked, String.toList_ofList, h]

theorem append (h : Marked i c s) (t : String) : Marked i c (s ++ t) := by
  have hi : i < s.toList.length := (List.getElem?_eq_some_iff.mp h).1
  rw [Marked, String.toList_append, List.getElem?_append_left hi, h]

theorem ofList_append (h : Marked i c s) (cs : List Char) :
    Marked (cs.length + i) c (String.ofList cs ++ s) := by
  rw [Marked, String.toList_append, String.toList_ofList,
    List.getElem?_append_right (Nat.le_add_right _ _), Nat.add_sub_cancel_left, h]

theorem ne (h : Marked i c s) (h' : Marked i c' s') (hne : c ≠ c') : s ≠ s' := by
  rintro rfl
  exact hne (Option.some.inj (h.symm.trans h'))

end Marked

/-- The statements about a table. -/
def statementsAbout (p : Place) : List (String → String) :=
  [infoStatement p, columnsStatement p, keyStatement p, checksStatement p, propertiesStatement p]

section

variable (p : Place) (name : String)

theorem marked_tablesStatement : Marked 17 ' ' (tablesStatement p) :=
  (((Marked.ofList rfl).append _).append _).append _

theorem marked_infoStatement : Marked 17 ',' (infoStatement p name) :=
  (((((Marked.ofList rfl).append _).append _).append _).append _).append _

theorem marked_columnsStatement : Marked 17 'e' (columnsStatement p name) :=
  ((((((Marked.ofList rfl).append _).append _).append _).append _).append _).append _

theorem marked_constraintsStatement {i : Nat} {c : Char} {column : String}
    (h : Marked i c ("SELECT tc.constraint_name, " ++ column)) (other view type : String) :
    Marked i c (constraintsStatement p name column other view type) := by
  iterate 15 refine Marked.append ?_ _
  exact h

theorem marked_keyStatement :
    Marked 17 'i' (keyStatement p name) ∧ Marked 29 'u' (keyStatement p name) :=
  ⟨marked_constraintsStatement p name ((Marked.ofList rfl).append _) _ _ _,
    marked_constraintsStatement p name ((Marked.ofList (i := 2) rfl).ofList_append _) _ _ _⟩

theorem marked_checksStatement :
    Marked 17 'i' (checksStatement p name) ∧ Marked 29 '.' (checksStatement p name) :=
  ⟨marked_constraintsStatement p name ((Marked.ofList rfl).append _) _ _ _,
    marked_constraintsStatement p name ((Marked.ofList (i := 2) rfl).ofList_append _) _ _ _⟩

theorem marked_propertiesStatement : Marked 17 'S' (propertiesStatement p name) :=
  (((((Marked.ofList rfl).append _).append _).append _).append _).append _

/-- What the statements ask for keeps them apart, whichever tables they are about. -/
theorem pairwise_statements : ((fun _ => tablesStatement p) :: statementsAbout p).Pairwise
    fun f f' => ∀ n n', f n ≠ f' n' := by
  have htables := marked_tablesStatement p
  have hinfo := marked_infoStatement p
  have hcolumns := marked_columnsStatement p
  have hkey := marked_keyStatement p
  have hchecks := marked_checksStatement p
  have hproperties := marked_propertiesStatement p
  simp only [statementsAbout, List.pairwise_cons, List.forall_mem_cons, List.not_mem_nil,
    false_implies, implies_true, and_true, List.Pairwise.nil]
  refine ⟨⟨?_, ?_, ?_, ?_, ?_⟩, ⟨?_, ?_, ?_, ?_⟩, ⟨?_, ?_, ?_⟩, ⟨?_, ?_⟩, ?_⟩ <;> intro n n'
  · exact htables.ne (hinfo n') (by decide)
  · exact htables.ne (hcolumns n') (by decide)
  · exact htables.ne (hkey n').1 (by decide)
  · exact htables.ne (hchecks n').1 (by decide)
  · exact htables.ne (hproperties n') (by decide)
  · exact (hinfo n).ne (hcolumns n') (by decide)
  · exact (hinfo n).ne (hkey n').1 (by decide)
  · exact (hinfo n).ne (hchecks n').1 (by decide)
  · exact (hinfo n).ne (hproperties n') (by decide)
  · exact (hcolumns n).ne (hkey n').1 (by decide)
  · exact (hcolumns n).ne (hchecks n').1 (by decide)
  · exact (hcolumns n).ne (hproperties n') (by decide)
  · exact (hkey n).2.ne (hchecks n').2 (by decide)
  · exact (hkey n).1.ne (hproperties n') (by decide)
  · exact (hchecks n).1.ne (hproperties n') (by decide)

theorem injective_between (q : String) : Function.Injective fun n => q ++ n ++ q :=
  fun _ _ h => (String.append_right_inj _).mp ((String.append_left_inj _).mp h)

theorem injective_constraintsStatement (column other view type : String) :
    Function.Injective fun n => constraintsStatement p n column other view type := by
  intro n n' h
  have hquoted : _ ++ literal n = _ ++ literal n' := (String.append_left_inj _).mp
    ((String.append_left_inj _).mp ((String.append_left_inj _).mp h))
  exact injective_between _ ((String.append_right_inj _).mp hquoted)

/-- A statement tells which table it is about. -/
theorem injective_of_mem_statementsAbout : ∀ f ∈ statementsAbout p, Function.Injective f := by
  simp only [statementsAbout, List.forall_mem_cons, List.not_mem_nil, false_implies, implies_true,
    and_true]
  refine ⟨fun n n' h => ?_, fun n n' h => ?_, injective_constraintsStatement p _ _ _ _,
    injective_constraintsStatement p _ _ _ _, fun n n' h => ?_⟩
  · exact injective_between _ ((String.append_right_inj _).mp h)
  · exact injective_between _ ((String.append_right_inj _).mp ((String.append_left_inj _).mp h))
  · exact injective_between _ ((String.append_right_inj _).mp h)

end

/-- What is made of different things in ways that keep them apart is different. -/
theorem nodup_flatMap {α β : Type} {fs : List (α → β)} {as : List α}
    (hne : fs.Pairwise fun f f' => ∀ a a', f a ≠ f' a')
    (hinj : ∀ f ∈ fs, Function.Injective f) (h : as.Nodup) :
    (as.flatMap fun a => fs.map (· a)).Nodup := by
  have : Std.Symm fun f f' : α → β => ∀ a a', f a ≠ f' a' := ⟨fun f f' h a a' => (h a' a).symm⟩
  refine List.nodup_flatMap.mpr ⟨fun a _ => List.pairwise_map.mpr (hne.imp fun h => h a a),
    h.imp fun {a a'} ha b hb hb' => ?_⟩
  obtain ⟨f, hf, rfl⟩ := List.mem_map.mp hb
  obtain ⟨f', hf', heq⟩ := List.mem_map.mp hb'
  by_cases hff : f' = f
  · subst hff
    exact ha (hinj f' hf heq.symm)
  · exact hne.forall hf' hf hff a' a heq

theorem statements_answersOf (p : Place) (listing : List (RowForm × TableReport)) :
    (answersOf p listing).map (·.1) = tablesStatement p ::
      (listing.map (·.2.name)).flatMap fun n => (statementsAbout p).map (· n) := by
  simp only [answersOf, statementsAbout, TableReport.answers, List.map_cons, List.map_nil,
    List.map_flatMap, List.flatMap_map]

/-- Tables of different names are asked about with different statements. -/
theorem nodup_statements {p : Place} {listing : List (RowForm × TableReport)}
    (h : (listing.map (·.2.name)).Nodup) : ((answersOf p listing).map (·.1)).Nodup := by
  obtain ⟨htables, hapart⟩ := List.pairwise_cons.mp (pairwise_statements p)
  rw [statements_answersOf, List.nodup_cons]
  refine ⟨fun hmem => ?_, nodup_flatMap hapart (injective_of_mem_statementsAbout p) h⟩
  obtain ⟨n, -, hn⟩ := List.mem_flatMap.mp hmem
  obtain ⟨f, hf, heq⟩ := List.mem_map.mp hn
  exact htables f hf n n heq.symm

/-- Every listing of tables with different names is that of some database, in whatever forms of
rows. -/
theorem lists_answering {p : Place} {listing : List (RowForm × TableReport)}
    (hn : (listing.map (·.2.name)).Nodup) :
    Lists (answering (answersOf p listing)) p (listing.map (·.2)) :=
  lists_of_answers fun _ ha => answers_answering (nodup_statements hn) ha none

variable {c : Connection} {p : Place} {I : Option Value → Prop} {b : Store} {t : TableId}
  {o : TableOutline} {d : TableReport}

/-! ### Members -/

theorem ColumnReport.ofParams_spec {x : ColumnReport} (h : Trimmed x.name) :
    FieldSpec.ofParams
      [("name", .text x.name), ("data_type", .text (Text.upper x.dataType)),
        ("size", .ofInts x.size), ("is_nullable", .bool x.nullable), ("default_value", x.default),
        ("comments", x.comments)] = .ok x.spec := by
  have htidy := FieldSpec.tidy_of_texts { x.spec with dataType := .text (Text.upper x.dataType) }
    rfl rfl rfl
  rw [h] at htidy
  exact htidy

/-- Reading the columns adds their fields in order. -/
theorem draws_addColumns (hd : d.Sound) {rows : List Row}
    (hrows : List.Forall₂ TellsColumn rows d.columns) :
    Draws I (Drafts b t { o with fields := [] }) (rows.forM (addColumn t))
      fun _ => Drafts b t { o with fields := d.columns.map (·.spec) } := by
  refine draws_addFields (fun _ => rfl) hd.columns hrows fun row x hx o hrow hnew => ?_
  obtain ⟨hcells, hnull⟩ := hrow
  obtain ⟨htrimmed, hne⟩ := hd.normalised _ (List.mem_map_of_mem hx)
  have htyped : splitType (column row "data_type") = .ok (x.dataType, x.size) := by
    rw [hcells.column (v := x.declared) (by simp), x.typed]
  have hnullable : (!(column row "is_nullable").same (.text "NO")) = x.nullable := by
    rw [column_eq, hnull, Bool.not_not]
  refine (yields_pureStep htyped).bind ?_
  dsimp only
  rw [hnullable, hcells.column (v := .text x.name) (by simp),
    hcells.column (v := x.default) (by simp), hcells.column (v := x.comments) (by simp)]
  exact draws_edit_discard (Drafts.addNamed (ColumnReport.ofParams_spec htrimmed) rfl hne hnew)

/-- Reading the key adds it, if there is one. -/
theorem draws_addKey (hd : d.Sound) {rows : List Row} (hrows : List.Forall₂ TellsKey rows d.key) :
    Draws I (Drafts b t { o with fields := d.columns.map (·.spec), constraints := [] })
      (addKey t rows) fun _ => Drafts b t { o with
        fields := d.columns.map (·.spec), constraints := d.keyConstraint } := by
  have hcolumns : (rows.map fun row => column row "column_name") = (d.key.map (·.2)).map .text := by
    rw [List.map_map]
    exact map_eq_of_forall₂ (fun row e h => h.1.column (by simp)) hrows
  have hnames : Normalised (d.key.map (·.2)) := fun n hn => hd.normalised n (hd.key hn)
  have hfields : ∀ n ∈ d.key.map (·.2), ∃ x ∈ d.columns.map (·.spec), x.name = .text n := by
    intro n hn
    obtain ⟨x, hx, rfl⟩ := List.mem_map.mp (hd.key hn)
    exact ⟨x.spec, List.mem_map_of_mem hx, rfl⟩
  -- all rows show the name of the key, and it is taken from the first one
  rcases hkey : d.key with _ | ⟨e, key⟩
  · rw [hkey, List.forall₂_nil_right_iff] at hrows
    rw [hrows, TableReport.keyConstraint, hkey]
    exact .pure fun _ h => h
  rw [hkey] at hrows
  obtain ⟨row, rest, ⟨-, hname⟩, -, rfl⟩ := List.forall₂_cons_right_iff.mp hrows
  have hrenamed : orEmpty (some (column row "constraint_name")) = .text e.1 := by
    rw [← hname, column_eq]
    rcases row.find "constraint_name" with _ | v <;> rfl
  have hadd := draws_changedKey (I := I) (b := b) (t := t)
    (o := { o with fields := d.columns.map (·.spec), constraints := [] })
    (f := fun x => { x with name := .text e.1 }) (g := fun x => { x with name := .text e.1 })
    hnames (by simp [hkey]) hfields (by simp) (fun _ => rfl) fun _ => rfl
  unfold addKey
  dsimp only
  rw [hcolumns, hrenamed, TableReport.keyConstraint, hkey]
  rw [hkey] at hadd
  exact hadd

/-- Reading the checks adds them in order. -/
theorem draws_addChecks {rows : List Row} {checks : List (String × String)}
    (hrows : List.Forall₂ TellsCheck rows checks) :
    Draws I (Drafts b t o) (rows.forM (addCheck t)) fun _ =>
      Drafts b t { o with constraints := o.constraints ++ checks.map checkSpec } := by
  refine draws_addConstraints hrows fun row e _ o hrow => ?_
  unfold addCheck
  rw [hrow.column (v := .text e.1) (by simp), hrow.column (v := .text e.2) (by simp)]
  exact draws_edit_discard (Drafts.addConstraint (ConstraintSpec.ofParams_check e.1 (.text e.2)))

/-- Reads the columns, the key and the checks of a table. -/
def readMembers (c : Connection) (p : Place) (t : TableId) : Probe Unit := do
  let own ← plain ((← get).store.table t).name
  (← fetchAll c (columnsStatement p own) none).forM (addColumn t)
  addKey t (← fetchAll c (keyStatement p own) none)
  (← fetchAll c (checksStatement p own) none).forM (addCheck t)

/-- **Reading the members of a table adds its columns, its key and its checks.** -/
theorem draws_readMembers (hd : d.Sound) (hc : TellsMembers c p d) :
    Draws I (Drafts b t { name := .text d.name }) (readMembers c p t) fun _ => Drafts b t
      { name := .text d.name
        fields := d.columns.map (·.spec)
        constraints := d.keyConstraint ++ d.checks.map checkSpec } := by
  obtain ⟨columnRows, hcolumns, hcolumnRows⟩ := hc.columns
  obtain ⟨keyRows, hkey, hkeyRows⟩ := hc.key
  obtain ⟨checkRows, hchecks, hcheckRows⟩ := hc.checks
  refine Draws.get_bind fun σ hdraft _ => ?_
  have hname : (σ.store.table t).name = .text d.name := congrArg TableOutline.name hdraft.outline
  rw [hname]
  refine yields_plain.bind ((yields_fetchAll hcolumns).bind ?_)
  refine (draws_addColumns (o := { name := .text d.name }) hd hcolumnRows).bind fun _ => ?_
  refine (yields_fetchAll hkey).bind ?_
  refine (draws_addKey (o := { name := .text d.name }) hd hkeyRows).bind fun _ => ?_
  exact (yields_fetchAll hchecks).bind (draws_addChecks hcheckRows)

/-! ### Options -/

theorem trimmed_clusterOption (columns : List String) : Trimmed (clusterOption columns) :=
  Trimmed.around (show Trimmed "CLUSTER BY (" by rfl) (show Trimmed ")" by rfl) (by simp) (by simp)
    (", ".intercalate columns)

/-- Options that are not blank are added as they are, but trimmed. -/
theorem draws_addOptions {options : List String} (h : ∀ s ∈ options, Text.trim s ≠ "") :
    Draws I (Drafts b t o) (addOptions t options) fun _ =>
      Drafts b t { o with options := o.options ++ options.map Text.trim } := by
  have hsplit : splitNames [.ofTexts options] = .ok (options.map Text.trim) := by
    rw [Value.ofTexts, Value.ofList, splitNames_texts, normalizeNames_eq_map h]
  exact draws_edit_discard (Drafts.addOptions hsplit)

/-- Reads the options of a table: the columns that it is clustered by, and its properties. -/
def readOptions (c : Connection) (p : Place) (name : Value) (info : TableInfo) (t : TableId) :
    Probe TableId := do
  let clustering ← pureStep (clusteringColumns (← get).store.shown info.clustering)
  if !clustering.isEmpty then addOptions t [clusterOption clustering]
  let properties ← fetchAll c (propertiesStatement p (← plain name)) none
  addOptions t (← properties.mapM propertyOption)
  return t

/-- An option of a property is not blank, as it has an equals sign. -/
theorem trim_ne_empty_of_property {n : String} (hn : n ∈ d.propertyOptions) : Text.trim n ≠ "" := by
  obtain ⟨e, -, rfl⟩ := List.mem_map.mp hn
  exact trim_ne_empty (c := '=') (by simp) (by decide)

theorem yields_propertyOptions {P : Store → Prop} {rows : List Row}
    (hrows : List.Forall₂ TellsProperty rows d.properties) :
    Yields I P (rows.mapM propertyOption) d.propertyOptions := by
  refine Yields.mapM hrows fun row e hrow => ?_
  unfold propertyOption
  rw [hrow.column (v := .text e.1) (by simp), hrow.column (v := .text e.2) (by simp)]
  exact yields_plain.bind (yields_plain.bind Yields.pure)

/-- **Reading the options of a table adds one for the clustering columns, if there are any, and one
for each property.** -/
theorem draws_readOptions {x : InfoReport} (hx : x.clustering.refs = []) {names : List String}
    (hnames : clusterNames x.clustering = .ok names) (hc : TellsMembers c p d) :
    Draws I (Drafts b t o) (readOptions c p (.text d.name) x.info t) fun u st => u = t ∧
      Drafts b t { o with
        options := o.options ++ (x.clusterOptions ++ d.propertyOptions.map Text.trim) } st := by
  obtain ⟨rows, hanswer, hrows⟩ := hc.properties
  have hclusters : x.clusters = names := by
    rw [InfoReport.clusters, hnames]
    rfl
  -- the options of the properties come last, whether there are clustering columns or not
  have hrest : ∀ o, Draws I (Drafts b t o) (do
      let properties ← fetchAll c (propertiesStatement p (← plain (.text d.name))) none
      addOptions t (← properties.mapM propertyOption)
      return t) fun u st => u = t ∧
        Drafts b t { o with options := o.options ++ d.propertyOptions.map Text.trim } st := by
    intro o
    refine yields_plain.bind ((yields_fetchAll hanswer).bind ?_)
    refine (yields_propertyOptions hrows).bind ?_
    exact (draws_addOptions fun _ => trim_ne_empty_of_property).bind fun _ =>
      .pure fun _ h => ⟨rfl, h⟩
  refine Draws.get_bind fun σ _ _ => (yields_pureStep (v := names) ?_).bind ?_
  · rw [← hnames]
    exact clusteringColumns_eq _ hx
  rw [InfoReport.clusterOptions, hclusters]
  by_cases hne : names = []
  · rw [if_neg (by simp [hne]), if_pos hne]
    exact hrest o
  · rw [if_pos (by simpa using hne), if_neg hne]
    have htrim : Text.trim (clusterOption names) = clusterOption names :=
      trimmed_clusterOption names
    have hblank : ∀ s ∈ [clusterOption names], Text.trim s ≠ "" := by
      rw [List.forall_mem_singleton, htrim]
      simp [clusterOption]
    have hadd := draws_addOptions (I := I) (b := b) (t := t) (o := o) hblank
    rw [List.map_singleton, htrim] at hadd
    refine hadd.bind fun _ => (hrest _).weaken (fun _ h => h) fun _ _ h => ?_
    rwa [List.append_assoc] at h

/-- Clustering columns that cannot be read stop the reading. -/
theorem fails_readOptions {P : Store → Prop} {x : InfoReport} (hx : x.clustering.refs = [])
    {fault : Fault} (hfault : clusterNames x.clustering = .error fault) (name : Value) :
    Fails I P (readOptions c p name x.info t) (· = .model (.fault fault)) := by
  refine Fails.get_bind fun σ _ _ => .bind (.pureStep ?_ rfl)
  rw [← hfault]
  exact clusteringColumns_eq _ hx

/-! ### Tables -/

theorem InfoReport.isDelta_info (x : InfoReport) : x.info.isDelta = .ok x.isDelta := by
  simp only [TableInfo.isDelta, info, textOrEmpty_textOrNull, isDelta]
  rfl

/-- What is known of a table is what its own row tells. -/
theorem yields_tableInfo {P : Store → Prop} {rows : List Row}
    (hanswer : Answers c (infoStatement p d.name) none rows)
    (hrows : List.Forall₂ TellsInfo rows d.infos) :
    Yields I P (tableInfo c p (.text d.name)) (d.own.map (·.info)) := by
  have hfind := find?_of_forall₂ (p := fun row => (column row "table_name").same (.text d.name))
    (q := fun x => x.name = d.name) (fun row x h => by
      rw [h.column (v := .text x.name) (by simp)]
      simp [Value.same, Bool.beq_eq_decide_eq]) hrows
  rw [← TableReport.own] at hfind
  refine yields_plain.bind ((yields_fetchAll hanswer).bind ?_)
  generalize rows.find? _ = found, d.own = own at hfind ⊢
  cases hfind with
  | none => exact Yields.pure
  | @some row x h =>
    dsimp only [Option.map_some]
    rw [h.column (v := textOrNull x.tableType) (by simp),
      h.column (v := textOrNull x.format) (by simp), h.column (v := x.clustering) (by simp)]
    exact Yields.pure

theorem readKnown_eq (c : Connection) (p : Place) (name : Value) (info : TableInfo) :
    readKnown c p name info = (do
      let t ← edit (Edit.newTable { name })
      readMembers c p t
      readOptions c p name info t) := by
  simp only [readKnown, readMembers, readOptions, bind_assoc]

section

variable {x : InfoReport}

/-- The row that tells of a table that is read is that of a Delta table. -/
theorem TableReport.isRead_of_own (hown : d.own = some x) : d.isRead = x.isDelta := by
  rw [isRead, hown, Option.any_some]

/-- A table that is readable is read as described. -/
theorem draws_readKnown (hd : d.Sound) (hc : TellsMembers c p d) (hown : d.own = some x)
    {names : List String} (hnames : clusterNames x.clustering = .ok names) (b : Store) :
    Draws I (fun st => st = b) (readKnown c p (.text d.name) x.info)
      fun t => Drafts b t d.outline := by
  rw [readKnown_eq]
  refine (draws_newTable b d.name).bind fun t => (draws_readMembers hd hc).bind fun _ => ?_
  refine (draws_readOptions (hd.clustering x hown) hnames hc).weaken (fun _ h => h) ?_
  rintro u st ⟨rfl, hdraft⟩
  rw [List.nil_append] at hdraft
  rw [TableReport.outline, TableReport.options, hown, Option.toList_some, List.flatMap_singleton]
  exact hdraft

/-- The reading of a table fails at clustering columns that cannot be read. -/
theorem fails_readKnown (hd : d.Sound) (hc : TellsMembers c p d) (hown : d.own = some x)
    {fault : Fault} (hfault : clusterNames x.clustering = .error fault) (b : Store) :
    Fails I (fun st => st = b) (readKnown c p (.text d.name) x.info)
      (· = .model (.fault fault)) := by
  rw [readKnown_eq]
  refine .after (draws_newTable b d.name) fun t => .after (draws_readMembers hd hc) fun _ => ?_
  exact fails_readOptions (hd.clustering x hown) hfault _

end

/-- **A Delta table that is readable is read as described, and all others are passed over.** -/
theorem draws_readTable (hd : d.isRead → d.Sound) (hr : d.Readable) (hc : TellsOf c p d)
    (b : Store) :
    Draws I (fun st => st = b) (readTable c p (.text d.name)) fun found st =>
      match found with
      | none => d.isRead = false ∧ st = b
      | some t => d.isRead = true ∧ Drafts b t d.outline st := by
  obtain ⟨rows, hanswer, hrows⟩ := hc.infos
  refine (yields_tableInfo hanswer hrows).bind ?_
  rcases hown : d.own with _ | x
  · exact .pure fun st hst => ⟨by rw [TableReport.isRead, hown]; rfl, hst⟩
  have hread := TableReport.isRead_of_own hown
  refine (yields_pureStep x.isDelta_info).bind ?_
  split
  · next hdelta =>
    rw [hdelta] at hread
    obtain ⟨names, hnames⟩ := hr x hown hdelta
    refine (draws_readKnown (hd hread) (hc.members hread) hown hnames b).bind fun t => ?_
    exact .pure fun st hdraft => ⟨hread, hdraft⟩
  · next hdelta => exact .pure fun st hst => ⟨hread.trans (Bool.eq_false_iff.mpr hdelta), hst⟩

/-- What stops the reading is a fault of a value. -/
def IsFault (e : SourceError) : Prop := ∃ f, e = .model (.fault f)

/-- **The reading fails at a Delta table that is not readable.** -/
theorem fails_readTable (hd : d.isRead → d.Sound) (hr : ¬ d.Readable) (hc : TellsOf c p d)
    (b : Store) : Fails I (fun st => st = b) (readTable c p (.text d.name)) IsFault := by
  obtain ⟨rows, hanswer, hrows⟩ := hc.infos
  rw [TableReport.Readable] at hr
  push Not at hr
  obtain ⟨x, hown, hdelta, hnames⟩ := hr
  have hread := (TableReport.isRead_of_own hown).trans hdelta
  rcases hfault : clusterNames x.clustering with fault | names
  · refine .after_yields (yields_tableInfo hanswer hrows) ?_
    rw [hown]
    refine .after_yields (yields_pureStep x.isDelta_info) ?_
    rw [if_pos hdelta]
    refine .bind fun σ hP hI => ?_
    obtain ⟨e, σ', ho, rfl⟩ :=
      fails_readKnown (hd hread) (hc.members hread) hown hfault b σ hP hI
    exact ⟨_, σ', ho, fault, rfl⟩
  · exact absurd hfault (hnames names)

/-! ### Listings -/

/-- The table is in use and has the outline of the report. -/
structure Describes (st : Store) (t : TableId) (d : TableReport) : Prop where
  inUse : t.index < st.tables.size
  coherent : st.TableCoherent t
  outline : st.outline t = d.outline

theorem describes_of_drafts {st : Store} (h : Drafts b t d.outline st) : Describes st t d :=
  ⟨h.building.inUse, h.coherent, h.outline⟩

/-- A store that only grew has the same table. -/
theorem Describes.of_extends {st st' : Store} (h : Describes st t d) (hext : st.Extends st') :
    Describes st' t d := by
  have hsame := Store.sameCells_of_extends hext h.inUse h.coherent
  exact ⟨Nat.lt_of_lt_of_le h.inUse hext.tables.size_le, hsame.coherent h.coherent,
    hsame.outline.trans h.outline⟩

variable {listing : List TableReport}

theorem yields_tableNames {P : Store → Prop} (hc : Lists c p listing) :
    Yields I P (tableNames c p) (listing.map fun d => .text d.name) := by
  obtain ⟨rows, hanswer, hrows⟩ := hc.names
  refine (yields_fetchAll hanswer).bind ?_
  rw [map_eq_of_forall₂ (fun row d h => h.column (v := .text d.name) (by simp)) hrows]
  exact Yields.pure

/-- The tables of a listing are read one after the other, and those that are no Delta tables are
passed over. -/
theorem draws_readEach (hd : ∀ d ∈ listing, d.isRead → d.Sound) (hr : ∀ d ∈ listing, d.Readable)
    (hc : ∀ d ∈ listing, TellsOf c p d) (b : Store) :
    Draws I (fun st => st = b)
      (Reader.readEach c (.catalog p) (listing.map fun d => .text d.name)) fun tables st =>
        b.Extends st ∧ NewTables b tables ∧
          List.Forall₂ (Describes st) tables (listing.filter (·.isRead)) := by
  induction listing generalizing b with
  | nil =>
    refine .pure fun st hst => ?_
    rw [hst]
    exact ⟨.refl b, ⟨.nil, by simp⟩, .nil⟩
  | cons d rest ih =>
    have hrest := ih (fun e he => hd e (List.mem_cons_of_mem d he))
      (fun e he => hr e (List.mem_cons_of_mem d he)) fun e he => hc e (List.mem_cons_of_mem d he)
    rw [List.map_cons, Reader.readEach]
    refine (draws_readTable (hd d List.mem_cons_self) (hr d List.mem_cons_self)
      (hc d List.mem_cons_self) b).bind fun found => ?_
    rcases found with _ | t
    · refine .of_and fun hread => yields_plain.bind ((yields_tell _ _).bind ?_)
      rw [List.filter_cons_of_neg (by simp [hread])]
      exact hrest b
    · refine .of_and fun hread => Draws.get_bind fun σ _ _ => yields_plain.bind ?_
      refine (yields_tell _ _).bind (.of_start fun s hdraft => ?_)
      rw [List.filter_cons_of_pos hread]
      -- the rest is read beside the store that holds the table
      refine (hrest s).bind fun tables => .pure fun st hst => ?_
      obtain ⟨hext, hnew, hall⟩ := hst
      exact ⟨hdraft.building.old.trans hext, hnew.cons hdraft.building,
        .cons ((describes_of_drafts hdraft).of_extends hext) hall⟩

/-- The reading fails at the first Delta table of a listing that is not readable. -/
theorem fails_readEach (hd : ∀ d ∈ listing, d.isRead → d.Sound)
    (hr : ∃ d ∈ listing, ¬ d.Readable) (hc : ∀ d ∈ listing, TellsOf c p d) (b : Store) :
    Fails I (fun st => st = b)
      (Reader.readEach c (.catalog p) (listing.map fun d => .text d.name)) IsFault := by
  induction listing generalizing b with
  | nil => simp at hr
  | cons d rest ih =>
    rw [List.map_cons, Reader.readEach]
    by_cases hhead : d.Readable
    · have hrest := ih (fun e he => hd e (List.mem_cons_of_mem d he))
        (by simpa [hhead] using hr) fun e he => hc e (List.mem_cons_of_mem d he)
      refine .after (draws_readTable (hd d List.mem_cons_self) hhead (hc d List.mem_cons_self) b)
        fun found => .of_start fun s hs => ?_
      rcases found with _ | t
      · exact .after_yields yields_plain (.after_yields (yields_tell _ _) (hrest s))
      · refine Fails.get_bind fun σ _ _ => .after_yields yields_plain ?_
        exact .after_yields (yields_tell _ _) (Fails.bind (hrest s))
    · exact .bind (fails_readTable (hd d List.mem_cons_self) hhead (hc d List.mem_cons_self) b)

/-- Reading a listing with a Delta table that is not readable fails as a failure of the vendor. -/
theorem fails_readTables (hd : ∀ d ∈ listing, d.isRead → d.Sound)
    (hr : ∃ d ∈ listing, ¬ d.Readable) (hc : Lists c p listing) (σ : Session) :
    ∃ cause σ', outcome (readTables .databricks c (.catalog p)) σ =
      (.error (.stopped .databricks cause), σ') := by
  have hfail : Fails (fun _ => True) (fun st => st = σ.store)
      (do Reader.readEach c (.catalog p) (← Reader.tableNames c (.catalog p))) IsFault :=
    .after_yields (yields_tableNames hc) (fails_readEach hd hr hc.tells σ.store)
  obtain ⟨e, σ', ho, fault, rfl⟩ := hfail σ rfl trivial
  refine ⟨SourceError.message σ'.store.shown (.model (.fault fault)), σ', ?_⟩
  rw [readTables, outcome_bind, outcome_attempt, ho]
  rfl

/-- **The Delta tables of a listing are read as described**, in whatever form the rows come.  Unless
one of them has clustering columns that cannot be read, the reading succeeds and leaves what was
there alone; it gives one new table for each, in order, with the columns as fields, the primary key,
the checks and the options, and passes over all other tables.  Otherwise it fails. -/
theorem readTables_of_lists (hd : ∀ d ∈ listing, d.isRead → d.Sound) (hc : Lists c p listing)
    (σ : Session) :
    ((∀ d ∈ listing, d.Readable) →
      ∃ tables σ', outcome (readTables .databricks c (.catalog p)) σ = (.ok tables, σ') ∧
        σ.store.Extends σ'.store ∧ NewTables σ.store tables ∧
        List.Forall₂ (fun t d => σ'.store.outline t = d.outline ∧
            orderedFields σ'.store t = .ok ((σ'.store.table t).fields.map (·.2)))
          tables (listing.filter (·.isRead))) ∧
    ((∃ d ∈ listing, ¬ d.Readable) →
      ∃ cause σ', outcome (readTables .databricks c (.catalog p)) σ =
        (.error (.stopped .databricks cause), σ')) := by
  refine ⟨fun hr => ?_, fun hr => fails_readTables hd hr hc σ⟩
  have hread : Draws (fun _ => True) (fun st => st = σ.store)
      (do Reader.readEach c (.catalog p) (← Reader.tableNames c (.catalog p))) _ :=
    (yields_tableNames hc).bind (draws_readEach hd hr hc.tells σ.store)
  obtain ⟨tables, σ', ho, ⟨hext, hnew, hall⟩, -⟩ := Ensures.exists_ok hread ⟨rfl, trivial⟩
  refine ⟨tables, σ', ?_, hext, hnew, hall.imp fun t d h => ⟨h.outline, h.coherent.orderedFields⟩⟩
  rw [readTables, outcome_bind, outcome_attempt, ho]
  rfl

/-- A managed table with a key of two columns, clustered by the names in a JSON text, and with
properties that have commas and blanks. -/
def trips : TableReport where
  name := "trips"
  infos := [
    { name := "TRIPS", tableType := some "VIEW", format := none, clustering := .null },
    { name := "trips", tableType := some "Managed", format := some " delta ",
      clustering := .text "[\"day\", \"rider\"]" }]
  columns := [
    { name := "day", declared := .text "date", dataType := "date", size := [], typed := rfl,
      nullable := false, default := .null, comments := .null },
    { name := "rider", declared := .text "varchar(20)", dataType := "varchar", size := [20],
      typed := rfl, nullable := false, default := .null, comments := .text "who rode" },
    { name := "fare", declared := .text "decimal(6, 2)", dataType := "decimal", size := [6, 2],
      typed := rfl, nullable := true, default := .text "0", comments := .null }]
  key := [("trips_key", "rider"), ("trips_key", "day")]
  checks := [("fair", "fare >= 0"), ("early", "day > '2000-01-01'")]
  properties := [("delta.features", "a, b"), ("note", " spaced "), ("", "")]

/-- An external table without a format that is clustered by a list and has nothing else. -/
def riders : TableReport where
  name := "riders"
  infos := [{ name := "riders", tableType := some "EXTERNAL", format := none,
              clustering := .ofTexts ["name", " "] }]
  columns := [{ name := "name", declared := .text "string", dataType := "string", size := [],
                typed := rfl, nullable := true, default := .null, comments := .null }]
  key := []
  checks := []
  properties := []

/-- A view. -/
def totals : TableReport where
  name := "totals"
  infos := [{ name := "totals", tableType := some "VIEW", format := none, clustering := .null }]
  columns := []
  key := []
  checks := []
  properties := []

/-- A managed table of another format. -/
def exports : TableReport where
  name := "exports"
  infos := [{ name := "exports", tableType := some "MANAGED", format := some "PARQUET",
              clustering := .null }]
  columns := []
  key := []
  checks := []
  properties := []

/-- A catalog whose tables are told in the four forms of rows. -/
def fleet : List (RowForm × TableReport) :=
  [(.mapping, trips), (.lookup, totals), (.record, riders), (.indexed, exports)]

theorem sound_fleet : ∀ d ∈ fleet.map (·.2), d.isRead → d.Sound := by
  have hother : totals.isRead = false ∧ exports.isRead = false := by decide +kernel
  have htrips : trips.own = some (trips.infos[1]) := by rfl
  have hriders : riders.own = some (riders.infos[0]) := by rfl
  have hclean : trips.infos[1].clustering.refs = [] ∧ riders.infos[0].clustering.refs = [] := by
    simp [trips, riders, Value.refs, Value.refsAll, Value.ofTexts, Value.ofList]
  simp only [fleet, List.map_cons, List.map_nil, List.forall_mem_cons]
  refine ⟨fun _ => ?_, fun h => ?_, fun _ => ?_, fun h => ?_, by simp⟩
  · refine ⟨by decide +kernel, ?_, by decide +kernel, fun x hx => ?_⟩
    · simp only [trips, Normalised, Trimmed, List.map_cons, List.map_nil]
      decide +kernel
    · cases htrips.symm.trans hx
      exact hclean.1
  · exact absurd h (by simp [hother])
  · refine ⟨by decide +kernel, ?_, by decide +kernel, fun x hx => ?_⟩
    · simp only [riders, Normalised, Trimmed, List.map_cons, List.map_nil]
      decide +kernel
    · cases hriders.symm.trans hx
      exact hclean.2
  · exact absurd h (by simp [hother])

theorem lists_fleet :
    Lists (answering (answersOf ⟨"main", "sales"⟩ fleet)) ⟨"main", "sales"⟩ (fleet.map (·.2)) :=
  lists_answering (by decide)

theorem readable_fleet : ∀ d ∈ fleet.map (·.2), d.Readable := by
  have hread : ∀ d ∈ fleet.map (·.2), d.own.all fun x => (clusterNames x.clustering).isOk := by
    decide +kernel
  intro d hd x hx _
  have hok := hread d hd
  rw [show d.own = some x from hx, Option.all_some] at hok
  rcases hnames : clusterNames x.clustering with fault | names
  · rw [hnames] at hok
    cases hok
  · exact ⟨names, rfl⟩

theorem readTables_of_lists_fleet :
    (∀ d ∈ fleet.map (·.2), d.isRead → d.Sound) ∧
      Lists (answering (answersOf ⟨"main", "sales"⟩ fleet)) ⟨"main", "sales"⟩ (fleet.map (·.2)) ∧
      (∀ d ∈ fleet.map (·.2), d.Readable) ∧
      trips.options =
        ["CLUSTER BY (day, rider)", "delta.features=a, b", "note= spaced", "="] ∧
      ∃ tables σ', outcome (readTables .databricks
          (answering (answersOf ⟨"main", "sales"⟩ fleet)) (.catalog ⟨"main", "sales"⟩)) {} =
          (.ok tables, σ') ∧
        List.Forall₂ (fun t d => σ'.store.outline t = d.outline) tables [trips, riders] := by
  obtain ⟨tables, σ', ho, -, -, hall⟩ :=
    (readTables_of_lists sound_fleet lists_fleet {}).1 readable_fleet
  exact ⟨sound_fleet, lists_fleet, readable_fleet, by decide +kernel, tables, σ', ho,
    hall.imp fun _ _ h => h.1⟩

/-- A managed table that is clustered by a list with an integer of 4301 digits. -/
def ledger : TableReport where
  name := "ledger"
  infos := [{ name := "ledger", tableType := some "MANAGED", format := none,
              clustering := .text (Json.longList 4301) }]
  columns := []
  key := []
  checks := []
  properties := []

/-- Clustering columns that cannot be read stop the reading of a catalog. -/
theorem not_read_of_longInteger :
    ¬ ∀ (c : Connection) (p : Place) (listing : List TableReport),
      (∀ d ∈ listing, d.Sound) → Lists c p listing →
        ∃ tables σ', outcome (readTables .databricks c (.catalog p)) {} = (.ok tables, σ') := by
  intro h
  have hown : ledger.own = some (ledger.infos[0]) := by rfl
  have hsound : ledger.Sound := by
    refine ⟨by simp [ledger], by simp [ledger, normalised_nil], by simp [ledger], fun x hx => ?_⟩
    cases hown.symm.trans hx
    simp [ledger, Value.refs]
  have hunreadable : ¬ ledger.Readable := by
    intro hr
    obtain ⟨names, hnames⟩ := hr _ hown (by decide +kernel)
    have herror := clusterNames_longList (n := 4301) (by decide)
    exact absurd (hnames.symm.trans herror) (by simp)
  have hlists : Lists (answering (answersOf ⟨"main", "sales"⟩ [(.mapping, ledger)]))
      ⟨"main", "sales"⟩ [ledger] := lists_answering (by simp)
  obtain ⟨tables, σ', ho⟩ := h _ _ [ledger] (by simpa using hsound) hlists
  obtain ⟨cause, σ₁, hfail⟩ := fails_readTables (by simpa using fun _ => hsound)
    ⟨ledger, List.mem_cons_self, hunreadable⟩ hlists {}
  cases ho.symm.trans hfail

end DbSchema.Source.Catalog
