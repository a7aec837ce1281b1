import DbSchema.Proofs.Source.Drawing

/-!
# Tables that the standard views describe

The views of the information schema tell of the columns of a table, of its keys, its foreign keys
and its indices, the parts of each one after the other, and MySQL tells of its engine and collation.
A table that is read from such views has the columns, the constraints, the indices that do not back
a key, and the options that they describe.

## Main definitions

* `StandardViews.ColumnReport`, `StandardViews.KeyReport`, `StandardViews.ReferenceReport`,
  `StandardViews.IndexReport` — what is reported of a column, of a key, of a foreign key and of an
  index.
* `StandardViews.TableReport` — what is reported of a table; `TableReport.Sound` — it describes one.
* `StandardViews.Shown c schema d` — the database shows the report in its views.
* `TableReport.outline` — the outline of the table that is described.
* `ReferenceReport.readSpec` — the foreign key that is read from rows which list some pairs of
  columns.

## Main results

* `ReferenceReport.paired` — a foreign key pairs its columns with those that they refer to.
* `StandardViews.shown_answering` — every report is shown by some database.
* `StandardViews.draws_addColumns`, `StandardViews.draws_addKeys`,
  `StandardViews.draws_addForeignKeys`, `StandardViews.draws_addIndices`,
  `StandardViews.draws_addOptions` — what each part of the reading adds.
* `StandardViews.readTable_of_shown` — the table that is read has the outline.
-/

namespace DbSchema.Source.StandardViews

open Probe

/-! ### Reports -/

/-- What is reported of a column. -/
structure ColumnReport where
  name : String
  dataType : String
  /-- The length in characters, and the precision and the scale of numbers, where there are any. -/
  length : Option Nat
  precision : Option Nat
  scale : Option Nat
  nullable : Bool
  default : Option String

/-- What is reported of the primary key or of a unique constraint, with its columns in order. -/
structure KeyReport where
  name : String
  isPrimary : Bool
  columns : List String
deriving DecidableEq

/-- What is reported of a foreign key, with its columns and those that they refer to in order. -/
structure ReferenceReport where
  name : String
  table : String
  pairs : List (String × String)
  onUpdate : String
  onDelete : String
deriving DecidableEq

/-- What is reported of an index, with its columns in order. -/
structure IndexReport where
  name : String
  nonUnique : Int
  method : Option String
  columns : List String
deriving DecidableEq

/-- What is reported of a table. -/
structure TableReport where
  name : String
  columns : List ColumnReport
  keys : List KeyReport
  references : List ReferenceReport
  indices : List IndexReport
  engine : Option String
  collation : Option String

namespace ColumnReport

variable (x : ColumnReport)

/-- The size: the length in characters, or the precision and the scale of decimals. -/
def size : List Int :=
  if x.length.getD 0 ≠ 0 then [x.length.getD 0]
  else if numericTypes.contains (Text.lower x.dataType) ∧ x.precision.getD 0 ≠ 0 then
    [x.precision.getD 0, x.scale.getD 0]
  else []

/-- The description of the field. -/
def spec : FieldSpec :=
  { name := .text x.name
    dataType := .text (Text.trim x.dataType)
    size := .ofInts x.size
    nullable := .bool x.nullable
    default := textOrNull x.default }

end ColumnReport

/-- The description of the primary key or of the unique constraint. -/
def KeyReport.spec (x : KeyReport) : ConstraintSpec :=
  { name := .text x.name
    kind := .constraintKind (if x.isPrimary then .primaryKey else .unique)
    fields := .ofTexts x.columns }

/-- The description of the foreign key. -/
def ReferenceReport.spec (x : ReferenceReport) : ConstraintSpec :=
  { name := .text x.name
    kind := .constraintKind .foreignKey
    fields := .ofTexts (normalizeNames (x.pairs.map (·.1)))
    referenceTable := .text x.table
    referenceFields := .ofTexts (normalizeNames (x.pairs.map (·.2)))
    onUpdate := .text x.onUpdate
    onDelete := .text x.onDelete }

/-- Trimmed columns that are not empty are paired with those that they refer to. -/
theorem ReferenceReport.paired {x : ReferenceReport} (hfields : Normalised (x.pairs.map (·.1)))
    (htargets : Normalised (x.pairs.map (·.2))) :
    x.spec.fields = .ofTexts (x.pairs.map (·.1)) ∧
      x.spec.referenceFields = .ofTexts (x.pairs.map (·.2)) := by
  rw [spec, normalizeNames_eq_self hfields, normalizeNames_eq_self htargets]
  exact ⟨rfl, rfl⟩

namespace IndexReport

variable (x : IndexReport)

/-- The kind of the index. -/
def kind : IndexKind :=
  let method := Text.upper (x.method.getD "")
  if method = "FULLTEXT" then .fulltext
  else if method = "SPATIAL" then .spatial
  else if x.nonUnique = 0 then .unique
  else .normal

/-- The description of the index. -/
def spec : IndexSpec :=
  { name := .text x.name, kind := .indexKind x.kind, fields := .ofTexts x.columns }

end IndexReport

/-- The option for something that may be missing or empty. -/
def optionFor (key : String) (v : Option String) : List String :=
  (v.toList.filter (· ≠ "")).map fun s => key ++ "=" ++ s

namespace TableReport

variable (d : TableReport)

/-- Whether an index backs a key. -/
def backsKey (x : IndexReport) : Bool := d.keys.any (·.name == x.name)

/-- The outline of the table. -/
def outline : TableOutline :=
  { name := .text d.name
    fields := d.columns.map (·.spec)
    indices := (d.indices.filter fun x => !d.backsKey x).map (·.spec)
    constraints := d.keys.map (·.spec) ++ d.references.map (·.spec)
    options := optionFor "ENGINE" d.engine ++ optionFor "COLLATE" d.collation }

/-- The report describes a table: names are trimmed, not empty and different, at most one key is
primary, keys and indices are over columns of the table, and the columns of a foreign key differ, as
do those that it refers to. -/
structure Sound : Prop where
  columns : (d.columns.map (·.name)).Nodup
  normalised : Normalised (d.columns.map (·.name))
  keys : (d.keys.map (·.name)).Nodup ∧ Normalised (d.keys.map (·.name))
  onePrimary : d.keys.countP (·.isPrimary) ≤ 1
  keyColumns : ∀ k ∈ d.keys, k.columns ≠ [] ∧ k.columns ⊆ d.columns.map (·.name)
  references : (d.references.map (·.name)).Nodup ∧ Normalised (d.references.map (·.name))
  pairs : ∀ k ∈ d.references,
    k.pairs ≠ [] ∧ (k.pairs.map (·.1)).Nodup ∧ (k.pairs.map (·.2)).Nodup
  indices : (d.indices.map (·.name)).Nodup ∧ Normalised (d.indices.map (·.name))
  indexColumns : ∀ x ∈ d.indices, x.columns ≠ [] ∧ x.columns ⊆ d.columns.map (·.name)
  options : ∀ s ∈ d.engine.toList ++ d.collation.toList, Trimmed s ∧ ',' ∉ s.toList

end TableReport

/-! ### Views -/

/-- A number as a value, null if there is none. -/
def numberOrNull (n : Option Nat) : Value := n.elim .null fun n => .int n

/-- The row of a column. -/
structure ShowsColumn (row : Row) (x : ColumnReport) : Prop where
  shows : row.Shows [("column_name", .text x.name), ("data_type", .text x.dataType),
    ("is_nullable", .text (if x.nullable then "YES" else "NO"))]
  length : (row.find "character_maximum_length").getD .null = numberOrNull x.length
  precision : (row.find "numeric_precision").getD .null = numberOrNull x.precision
  scale : (row.find "numeric_scale").getD .null = numberOrNull x.scale
  default : (row.find "column_default").getD .null = textOrNull x.default

/-- The row of a column of a key. -/
def ShowsKey (row : Row) (e : KeyReport × String) : Prop :=
  row.Shows [("constraint_name", .text e.1.name),
    ("constraint_type", .text (if e.1.isPrimary then "PRIMARY KEY" else "UNIQUE")),
    ("column_name", .text e.2)]

/-- The row of a column of a foreign key; rules that are missing or null are empty. -/
def ShowsReference (row : Row) (e : ReferenceReport × String × String) : Prop :=
  row.Shows [("constraint_name", .text e.1.name), ("referenced_table_name", .text e.1.table),
      ("column_name", .text e.2.1), ("referenced_column_name", .text e.2.2)] ∧
    orEmpty (row.find "update_rule") = .text e.1.onUpdate ∧
    orEmpty (row.find "delete_rule") = .text e.1.onDelete

/-- The row of a column of an index. -/
def ShowsIndex (row : Row) (e : IndexReport × String) : Prop :=
  row.Shows [("index_name", .text e.1.name), ("non_unique", .int e.1.nonUnique),
      ("column_name", .text e.2)] ∧
    (row.find "index_type").getD .null = textOrNull e.1.method

/-- The row of the table. -/
def ShowsOptions (row : Row) (d : TableReport) : Prop :=
  row.form = .mapping ∧ (row.find "engine").getD .null = textOrNull d.engine ∧
    (row.find "table_collation").getD .null = textOrNull d.collation

/-- The row of a column. -/
def ColumnReport.row (x : ColumnReport) : Row :=
  .ofCells [("column_name", .text x.name), ("data_type", .text x.dataType),
    ("is_nullable", .text (if x.nullable then "YES" else "NO")),
    ("character_maximum_length", numberOrNull x.length),
    ("numeric_precision", numberOrNull x.precision), ("numeric_scale", numberOrNull x.scale),
    ("column_default", textOrNull x.default)]

theorem ColumnReport.shows_row (x : ColumnReport) : ShowsColumn x.row x := by
  have hshows : x.row.Shows _ := Row.shows_ofCells (by simp)
  have hcell : ∀ column v, x.row.find column = some v → (x.row.find column).getD .null = v :=
    fun _ _ h => by rw [h, Option.getD_some]
  exact
    { shows := hshows.mono (by simp)
      length :=
        hcell _ _ (hshows.cell ("character_maximum_length", numberOrNull x.length) (by simp))
      precision := hcell _ _ (hshows.cell ("numeric_precision", numberOrNull x.precision) (by simp))
      scale := hcell _ _ (hshows.cell ("numeric_scale", numberOrNull x.scale) (by simp))
      default := hcell _ _ (hshows.cell ("column_default", textOrNull x.default) (by simp)) }

/-- The row of a column of a key. -/
def keyRow (e : KeyReport × String) : Row :=
  .ofCells [("constraint_name", .text e.1.name),
    ("constraint_type", .text (if e.1.isPrimary then "PRIMARY KEY" else "UNIQUE")),
    ("column_name", .text e.2)]

theorem shows_keyRow (e : KeyReport × String) : ShowsKey (keyRow e) e :=
  Row.shows_ofCells (by simp)

/-- The row of a column of a foreign key. -/
def referenceRow (e : ReferenceReport × String × String) : Row :=
  .ofCells [("constraint_name", .text e.1.name), ("referenced_table_name", .text e.1.table),
    ("column_name", .text e.2.1), ("referenced_column_name", .text e.2.2),
    ("update_rule", .text e.1.onUpdate), ("delete_rule", .text e.1.onDelete)]

theorem shows_referenceRow (e : ReferenceReport × String × String) :
    ShowsReference (referenceRow e) e := by
  have hshows : (referenceRow e).Shows _ := Row.shows_ofCells (by simp)
  refine ⟨hshows.mono (by simp), ?_, ?_⟩
  · rw [hshows.cell ("update_rule", .text e.1.onUpdate) (by simp), orEmpty_text]
  · rw [hshows.cell ("delete_rule", .text e.1.onDelete) (by simp), orEmpty_text]

/-- The row of a column of an index. -/
def indexRow (e : IndexReport × String) : Row :=
  .ofCells [("index_name", .text e.1.name), ("non_unique", .int e.1.nonUnique),
    ("column_name", .text e.2), ("index_type", textOrNull e.1.method)]

theorem shows_indexRow (e : IndexReport × String) : ShowsIndex (indexRow e) e := by
  have hshows : (indexRow e).Shows _ := Row.shows_ofCells (by simp)
  refine ⟨hshows.mono (by simp), ?_⟩
  rw [hshows.cell ("index_type", textOrNull e.1.method) (by simp), Option.getD_some]

/-- The row of a table. -/
def TableReport.row (d : TableReport) : Row :=
  .ofCells [("engine", textOrNull d.engine), ("table_collation", textOrNull d.collation)]

theorem TableReport.shows_row (d : TableReport) : ShowsOptions d.row d := by
  have hshows : d.row.Shows _ := Row.shows_ofCells (by simp)
  refine ⟨hshows.form, ?_, ?_⟩
  · rw [hshows.cell ("engine", textOrNull d.engine) (by simp), Option.getD_some]
  · rw [hshows.cell ("table_collation", textOrNull d.collation) (by simp), Option.getD_some]

/-- What a database whose current schema holds just the table answers to the statements about it. -/
def TableReport.answers (d : TableReport) (schema : String) : List (String × List Row) :=
  [(columnsStatement, d.columns.map (·.row)),
    (keysStatement, (listed d.keys (·.columns)).map keyRow),
    (foreignKeysStatement .mysql, (listed d.references (·.pairs)).map referenceRow),
    (indicesStatement .mysql, (listed d.indices (·.columns)).map indexRow),
    (optionsStatement, [d.row]),
    (currentStatement .mysql, [.ofCells [("name", .text schema)]])]

theorem TableReport.nodup_answers (d : TableReport) (schema : String) :
    ((d.answers schema).map (·.1)).Nodup :=
  show [columnsStatement, keysStatement, foreignKeysStatement .mysql, indicesStatement .mysql,
    optionsStatement, currentStatement .mysql].Nodup by decide

/-- The database shows the report in its views of the schema, in order: keys, foreign keys and
indices one after the other, each with its columns. -/
structure Shown (c : Connection) (schema : Value) (d : TableReport) : Prop where
  columns : ∃ rows, Answers c columnsStatement (some [schema, .text d.name]) rows ∧
    List.Forall₂ ShowsColumn rows d.columns
  keys : ∃ rows, Answers c keysStatement (some [schema, .text d.name]) rows ∧
    List.Forall₂ ShowsKey rows (listed d.keys (·.columns))
  references : ∃ rows,
    Answers c (foreignKeysStatement .mysql) (some [schema, .text d.name]) rows ∧
      List.Forall₂ ShowsReference rows (listed d.references (·.pairs))
  indices : ∃ rows, Answers c (indicesStatement .mysql) (some [schema, .text d.name]) rows ∧
    List.Forall₂ ShowsIndex rows (listed d.indices (·.columns))
  options : ∃ row rest, Answers c optionsStatement (some [schema, .text d.name]) (row :: rest) ∧
    ShowsOptions row d

/-- The schema that is read is the given one, or else the one that the database names. -/
def Reads (c : Connection) (given schema : Value) : Prop :=
  if given.same .null then
    ∃ rows, Answers c (currentStatement .mysql) none rows ∧
      match rows with
      | [] => schema = .text ""
      | row :: _ => ∃ v, row.item "name" = .ok v ∧ orEmpty (some v) = schema
  else schema = given

/-- The schema that is read from a database of either kind: the given one, or else the one that it
names. -/
def ReadsFrom (dialect : Dialect) (c : Connection) (given schema : Value) : Prop :=
  if given.same .null then
    ∃ rows, Answers c (currentStatement dialect) none rows ∧
      match rows with
      | [] => schema = .text ""
      | row :: _ => ∃ v, row.item "name" = .ok v ∧ orEmpty (some v) = schema
  else schema = given

/-- Every report is shown by some database. -/
theorem shown_answering (d : TableReport) (schema : String) :
    Shown (answering (d.answers schema)) (.text schema) d where
  columns := ⟨_, answers_answering (d.nodup_answers schema) (.head _) _,
    forall₂_map_row ColumnReport.shows_row _⟩
  keys := ⟨_, answers_answering (d.nodup_answers schema) (.tail _ (.head _)) _,
    forall₂_map_row shows_keyRow _⟩
  references := ⟨_, answers_answering (d.nodup_answers schema) (.tail _ (.tail _ (.head _))) _,
    forall₂_map_row shows_referenceRow _⟩
  indices := ⟨_, answers_answering (d.nodup_answers schema)
    (.tail _ (.tail _ (.tail _ (.head _)))) _, forall₂_map_row shows_indexRow _⟩
  options := ⟨d.row, [], answers_answering (d.nodup_answers schema)
    (.tail _ (.tail _ (.tail _ (.tail _ (.head _))))) _, d.shows_row⟩

theorem reads_answering (d : TableReport) (schema : String) :
    Reads (answering (d.answers schema)) .null (.text schema) := by
  have hanswer := answers_answering (d.nodup_answers schema)
    (.tail _ (.tail _ (.tail _ (.tail _ (.tail _ (.head _)))))) none
  rw [Reads, if_pos (by simp [Value.same])]
  exact ⟨_, hanswer, .text schema, rfl, orEmpty_text schema⟩

/-- What is remembered of the schema, if anything, is its name. -/
def Recalls (schema : Value) (remembered : Option Value) : Prop :=
  remembered = none ∨ remembered = some schema

variable {c : Connection} {given schema : Value} {b : Store} {t : TableId} {o : TableOutline}
  {d : TableReport} {dialect : Dialect}

/-! ### Asking the views -/

theorem yields_remember {P : Store → Prop} :
    Yields (Recalls schema) P
      (modify fun s => { s with schemaName := some schema } : Probe PUnit) ⟨⟩ :=
  fun _ hσ => ⟨⟨rfl, hσ.1⟩, .inr rfl⟩

theorem yields_schemaName {P : Store → Prop} (hs : ReadsFrom dialect c given schema) :
    Yields (Recalls schema) P (schemaName dialect c given) schema := by
  unfold schemaName
  rw [ReadsFrom] at hs
  split at hs
  · next hnull =>
    rw [if_neg (by simp [hnull])]
    obtain ⟨rows, hanswer, hname⟩ := hs
    refine Draws.get_bind fun σ _ hσ => ?_
    rcases hσ with hnone | hsome
    · rw [hnone]
      refine (yields_fetchAll hanswer).bind ?_
      rcases rows with _ | ⟨row, rest⟩
      · subst hname
        exact Yields.pure.bind (yields_remember.bind Yields.pure)
      · obtain ⟨v, hv, rfl⟩ := hname
        exact (yields_pureStep hv).bind (Yields.pure.bind (yields_remember.bind Yields.pure))
    · rw [hsome]
      exact Yields.pure
  · next hgiven =>
    rw [if_pos (by simpa using hgiven), hs]
    exact Yields.pure

/-- What is asked about a table is asked by the name that it has. -/
theorem yields_rowsAbout (hs : ReadsFrom dialect c given schema) {statement : String}
    {name : Value} {rows : List Row} (h : Answers c statement (some [schema, name]) rows)
    (hname : o.name = name) :
    Yields (Recalls schema) (Drafts b t o) (rowsAbout dialect c given statement t) rows := by
  refine (yields_schemaName hs).bind (Draws.get_bind fun σ hσ _ => ?_)
  have hown : (σ.store.table t).name = name :=
    (congrArg TableOutline.name hσ.outline).trans hname
  rw [hown]
  exact yields_fetchAll h

/-! ### Columns -/

section

variable {row : Row} {column : String} {n : Option Nat}

theorem truthy_numberOrNull (n : Option Nat) : (numberOrNull n).truthy = (n.getD 0 != 0) := by
  rcases n with _ | k
  · rfl
  · by_cases hk : k = 0
    · simp [hk, numberOrNull, Value.truthy]
    · rw [bne_iff_ne.mpr (show (some k).getD 0 ≠ 0 from hk)]
      simp [hk, numberOrNull, Value.truthy]

theorem toInteger_numberOrNull (hn : n.getD 0 ≠ 0) :
    (numberOrNull n).toInteger = .ok (n.getD 0 : Int) := by
  rcases n with _ | k
  · exact absurd rfl hn
  · rfl

/-- A number counts as true unless it is missing, null or zero. -/
theorem holds_eq (hform : row.form = .mapping)
    (h : (row.find column).getD .null = numberOrNull n) :
    holds row column = .ok (n.getD 0 != 0) := by
  rw [← truthy_numberOrNull, ← h, holds, Row.get, hform]
  rcases row.find column with _ | v <;> rfl

/-- A number that counts as true is read as an integer. -/
theorem integerAt_eq (hform : row.form = .mapping)
    (h : (row.find column).getD .null = numberOrNull n) (hn : n.getD 0 ≠ 0) :
    integerAt row column = .ok (.int (n.getD 0)) := by
  have hinteger := toInteger_numberOrNull hn
  rw [integerAt, Row.item, hform]
  rcases hf : row.find column with _ | v <;> rw [hf] at h
  · rw [← h] at hinteger
    cases hinteger
  · rw [← h] at hinteger
    simp only [Option.getD_some] at hinteger
    simp only [bind, Except.bind, hinteger]
    rfl

end

/-- The size of a column is its length, or its precision and its scale. -/
theorem columnSize_eq {row : Row} {x : ColumnReport} (h : ShowsColumn row x) :
    columnSize row = .ok (x.size.map .int) := by
  have hform := h.shows.form
  have htype : row.item "data_type" = .ok (.text x.dataType) := h.shows.item (by simp)
  have hscale : row.get "numeric_scale" = .ok (row.find "numeric_scale") := h.shows.get _
  rw [columnSize, holds_eq hform h.length, ColumnReport.size]
  by_cases hlength : x.length.getD 0 = 0
  · rw [if_neg (by simpa using hlength), htype]
    simp only [hlength, bind, Except.bind, pure, Except.pure, textOrEmpty_text,
      holds_eq hform h.precision, hscale, h.scale, truthy_numberOrNull]
    rcases numericTypes.contains (Text.lower x.dataType) with _ | _
    · simp
    · by_cases hprecision : x.precision.getD 0 = 0
      · simp [hprecision]
      · rw [integerAt_eq hform h.precision hprecision]
        by_cases hs : x.scale.getD 0 = 0
        · simp [hprecision, hs]
        · simp [hprecision, hs, toInteger_numberOrNull hs]
  · rw [integerAt_eq hform h.length hlength, if_pos hlength]
    simp [hlength, bind, Except.bind, pure, Except.pure]

theorem yields_columnDefault {P : Store → Prop} {I : Option Value → Prop} {row : Row}
    {x : ColumnReport} (h : ShowsColumn row x) :
    Yields I P (columnDefault row) (textOrNull x.default) := by
  refine (yields_pureStep (h.shows.get "column_default")).bind ?_
  have hdefault := h.default
  generalize row.find "column_default" = found at hdefault ⊢
  rcases found with _ | v
  · rw [← show Value.null = textOrNull x.default from hdefault]
    exact Yields.pure
  · rw [show v = textOrNull x.default from hdefault]
    rcases x.default with _ | s
    · exact Yields.pure
    · exact yields_plain.bind Yields.pure

/-- Reading the columns adds their fields in order. -/
theorem draws_addColumns {I : Option Value → Prop} (hd : d.Sound) {rows : List Row}
    (hrows : List.Forall₂ ShowsColumn rows d.columns) :
    Draws I (Drafts b t { o with fields := [] }) (rows.forM (addColumn t))
      fun _ => Drafts b t { o with fields := d.columns.map (·.spec) } := by
  refine draws_addFields (fun _ => rfl) hd.columns hrows fun row x hx o hrow hnew => ?_
  obtain ⟨htrimmed, hne⟩ := hd.normalised _ (List.mem_map_of_mem hx)
  have hname : row.item "column_name" = .ok (.text x.name) := hrow.shows.item (by simp)
  have htype : row.item "data_type" = .ok (.text x.dataType) := hrow.shows.item (by simp)
  have hnull : row.item "is_nullable" = .ok (.text (if x.nullable then "YES" else "NO")) :=
    hrow.shows.item (by simp)
  have hnullable : (!(Value.text (if x.nullable then "YES" else "NO")).same (.text "NO")) =
      x.nullable := by
    rcases x.nullable <;> simp [Value.same]
  refine (yields_pureStep hname).bind ((yields_pureStep htype).bind ?_)
  refine (yields_pureStep (columnSize_eq hrow)).bind ((yields_pureStep hnull).bind ?_)
  refine (yields_columnDefault hrow).bind ?_
  rw [hnullable]
  exact draws_edit_discard (Drafts.addNamed (FieldSpec.ofParams_column htrimmed) rfl hne hnew)

/-! ### Keys -/

/-- The columns of the rows of a group. -/
theorem columnsOf_eq {rows : List Row} {columns : List String}
    (h : List.Forall₂ (fun row n => row.item "column_name" = .ok (.text n)) rows columns) :
    columnsOf rows = .ok (columns.map .text) := by
  rw [columnsOf]
  induction h with
  | nil => rfl
  | cons hrow _ ih =>
    rw [List.mapM_cons, hrow, ih]
    rfl

/-- Reading a key adds it, if it is not another primary key. -/
theorem draws_addKey {I : Option Value → Prop} (hd : d.Sound) {k : KeyReport} (hk : k ∈ d.keys)
    {g : Value × List Row} (hg : GroupOf ShowsKey (·.name) (·.columns) g k)
    (hfields : o.fields = d.columns.map (·.spec))
    (hnone : k.isPrimary → ∀ x ∈ o.constraints, x.kind ≠ .constraintKind .primaryKey) :
    Draws I (Drafts b t o) (addKey t g.1 g.2)
      fun _ => Drafts b t { o with constraints := o.constraints ++ [k.spec] } := by
  obtain ⟨hne, hsub⟩ := hd.keyColumns k hk
  obtain ⟨hname, hrows⟩ := hg
  have hnames : Normalised k.columns := fun n hn => hd.normalised n (hsub hn)
  obtain ⟨htrimmed, hnonempty⟩ := hd.keys.2 k.name (List.mem_map_of_mem hk)
  have hcolumns := columnsOf_eq (hrows.imp fun row n h => h.item (by simp))
  rw [hname]
  unfold addKey
  refine (yields_pureStep hcolumns).bind ?_
  rcases hfirst : g.2 with _ | ⟨first, rest⟩
  · rw [hfirst] at hrows
    exact absurd (List.forall₂_nil_left_iff.mp hrows) hne
  obtain ⟨n, -, hshows⟩ := exists_of_forall₂ hrows (hfirst ▸ List.mem_cons_self)
  have htype : first.item "constraint_type" =
      .ok (.text (if k.isPrimary then "PRIMARY KEY" else "UNIQUE")) := hshows.item (by simp)
  refine (yields_pureStep htype).bind ?_
  by_cases hprimary : k.isPrimary
  · rw [if_pos (by simp [hprimary, Value.same])]
    have hcolumn : ∀ n ∈ k.columns, ∃ x ∈ o.fields, x.name = .text n := by
      intro n hn
      obtain ⟨x, hx, rfl⟩ := List.mem_map.mp (hsub hn)
      exact ⟨x.spec, hfields ▸ List.mem_map_of_mem hx, rfl⟩
    -- a key that was just added has no name
    have hspec : k.spec = { Edit.keySpec k.columns with name := .text k.name } := by
      rw [KeyReport.spec, if_pos hprimary]
      rfl
    rw [hspec]
    exact draws_changedKey (g := fun x => if x.name.truthy then x else
      { x with name := .text k.name }) hnames hne hcolumn (hnone hprimary)
      (fun _ => by split <;> rfl) fun _ => by split <;> rfl
  · have hps := ConstraintSpec.ofParams_unique htrimmed k.columns
    rw [normalizeNames_eq_self hnames] at hps
    have hadd := Drafts.addConstraint (b := b) (t := t) (o := o) hps
    rw [if_neg (by simp [hprimary, Value.same]), KeyReport.spec, if_neg hprimary]
    exact draws_edit_discard hadd

/-- Reading the keys adds the primary key and the unique constraints in order. -/
theorem draws_addKeys {I : Option Value → Prop} (hd : d.Sound) {groups : List (Value × List Row)}
    (hgroups : List.Forall₂ (GroupOf ShowsKey (·.name) (·.columns)) groups d.keys) :
    Draws I (Drafts b t { o with fields := d.columns.map (·.spec), constraints := [] })
      (groups.forM fun g => addKey t g.1 g.2)
      fun _ => Drafts b t { o with
        fields := d.columns.map (·.spec), constraints := d.keys.map (·.spec) } := by
  refine Draws.forM (g := fun g => addKey t g.1 g.2) hgroups
    (P := fun done => Drafts b t { o with
      fields := d.columns.map (·.spec), constraints := done.map (·.spec) })
    fun done g k rest hsplit hg => ?_
  have hk : k ∈ d.keys := hsplit ▸ List.mem_append_right done List.mem_cons_self
  have hnone : k.isPrimary → ∀ x ∈ done.map (·.spec),
      x.kind ≠ .constraintKind .primaryKey := by
    intro hprimary x hx hkind
    obtain ⟨y, hy, rfl⟩ := List.mem_map.mp hx
    have hone := hd.onePrimary
    have hdone : 0 < done.countP (·.isPrimary) := by
      refine List.countP_pos_iff.mpr ⟨y, hy, ?_⟩
      by_contra hy'
      rw [KeyReport.spec, if_neg hy'] at hkind
      cases hkind
    rw [hsplit, List.countP_append, List.countP_cons_of_pos hprimary] at hone
    omega
  refine (draws_addKey hd hk hg rfl hnone).weaken (fun _ h => h) fun _ _ h => ?_
  simpa using h

/-! ### Foreign keys -/

theorem addNew_texts (names : List String) (n : String) :
    addNew (names.map .text) (.text n) =
      (if n ∈ names then names else names ++ [n]).map .text := by
  have hany : (names.map Value.text).any (fun w => w.same (.text n)) = decide (n ∈ names) := by
    simp [List.any_map, Function.comp_def, Value.same, List.any_beq']
  rw [addNew, hany]
  by_cases hn : n ∈ names <;> simp [hn]

/-- The columns that rows list and those that they refer to, each where it is first listed. -/
theorem keyColumns_eq {rows : List Row} {listing : List (String × String)}
    (h : List.Forall₂ (fun row p => row.item "column_name" = .ok (.text p.1) ∧
      row.item "referenced_column_name" = .ok (.text p.2)) rows listing) :
    keyColumns rows [] [] = .ok ((listing.map (·.1)).eraseDups.map .text,
      (listing.map (·.2)).eraseDups.map .text) := by
  have hall : ∀ {rows : List Row} {rest : List (String × String)},
      List.Forall₂ (fun row p => row.item "column_name" = .ok (.text p.1) ∧
        row.item "referenced_column_name" = .ok (.text p.2)) rows rest →
      ∀ done : List (String × String),
        keyColumns rows ((done.map (·.1)).eraseDups.map .text)
          ((done.map (·.2)).eraseDups.map .text) =
        .ok (((done ++ rest).map (·.1)).eraseDups.map .text,
          ((done ++ rest).map (·.2)).eraseDups.map .text) := by
    intro rows rest hrest
    induction hrest with
    | nil => exact fun done => by rw [List.append_nil, keyColumns]
    | @cons row p rows rest hrow _ ih =>
      intro done
      rw [List.append_cons, ← ih (done ++ [p]), keyColumns, hrow.1, hrow.2]
      simp only [bind, Except.bind, addNew_texts, List.mem_eraseDups, List.map_append,
        List.map_singleton, eraseDups_append_singleton]
  simpa using hall h []

/-- The description of the foreign key that is read from rows which list these pairs. -/
def ReferenceReport.readSpec (k : ReferenceReport) (listing : List (String × String)) :
    ConstraintSpec :=
  { name := .text (Text.trim k.name)
    kind := .constraintKind .foreignKey
    fields := .ofTexts (normalizeNames (listing.map (·.1)).eraseDups)
    referenceTable := .text k.table
    referenceFields := .ofTexts (normalizeNames (listing.map (·.2)).eraseDups)
    onUpdate := .text k.onUpdate
    onDelete := .text k.onDelete }

/-- Columns that differ, and refer to columns that differ, are paired in their order. -/
theorem ReferenceReport.readSpec_pairs {k : ReferenceReport} (h : Trimmed k.name)
    (hfields : (k.pairs.map (·.1)).Nodup) (htargets : (k.pairs.map (·.2)).Nodup) :
    k.readSpec k.pairs = k.spec := by
  rw [readSpec, spec, h, eraseDups_eq_self hfields, eraseDups_eq_self htargets]

theorem ReferenceReport.ofParams_readSpec (k : ReferenceReport)
    (listing : List (String × String)) :
    ConstraintSpec.ofParams
      [("name", .text k.name), ("type", .constraintKind .foreignKey),
        ("fields", .ofTexts (listing.map (·.1)).eraseDups), ("reference_table", .text k.table),
        ("reference_fields", .ofTexts (listing.map (·.2)).eraseDups),
        ("on_update", .text k.onUpdate), ("on_delete", .text k.onDelete)] =
      .ok (k.readSpec listing) :=
  ConstraintSpec.tidy_of_texts { k.readSpec listing with
    name := .text k.name
    fields := .ofTexts (listing.map (·.1)).eraseDups
    referenceFields := .ofTexts (listing.map (·.2)).eraseDups } rfl rfl rfl rfl
      (show _ = Value.ofTexts [] from rfl)

/-- Reading the rows of a foreign key adds it. -/
theorem draws_addForeignKey {I : Option Value → Prop} {k : ReferenceReport}
    {listing : List (String × String)} {rows : List Row} (hne : listing ≠ [])
    (hrows : List.Forall₂ (fun row p => ShowsReference row (k, p)) rows listing) :
    Draws I (Drafts b t o) (addForeignKey t (.text k.name) rows)
      fun _ => Drafts b t { o with constraints := o.constraints ++ [k.readSpec listing] } := by
  have hcolumns := keyColumns_eq
    (hrows.imp fun row p h => ⟨h.1.item (by simp), h.1.item (by simp)⟩)
  unfold addForeignKey
  refine (yields_pureStep hcolumns).bind ?_
  rcases hfirst : rows with _ | ⟨first, rest⟩
  · rw [hfirst] at hrows
    exact absurd (List.forall₂_nil_left_iff.mp hrows) hne
  obtain ⟨p, -, hshows, hupdate, hdelete⟩ := exists_of_forall₂ hrows (hfirst ▸ List.mem_cons_self)
  have htable : first.item "referenced_table_name" = .ok (.text k.table) := hshows.item (by simp)
  refine (yields_pureStep htable).bind ?_
  refine (yields_pureStep (hshows.get "update_rule")).bind ?_
  refine (yields_pureStep (hshows.get "delete_rule")).bind ?_
  rw [hupdate, hdelete]
  exact draws_edit_discard (Drafts.addConstraint (k.ofParams_readSpec listing))

/-- Reading the foreign keys adds them in order. -/
theorem draws_addForeignKeys {I : Option Value → Prop} (hd : d.Sound)
    {groups : List (Value × List Row)}
    (hgroups : List.Forall₂ (GroupOf ShowsReference (·.name) (·.pairs)) groups d.references) :
    Draws I (Drafts b t o) (groups.forM fun g => addForeignKey t g.1 g.2) fun _ =>
      Drafts b t { o with constraints := o.constraints ++ d.references.map (·.spec) } := by
  refine draws_addConstraints hgroups fun g k hk o hg => ?_
  obtain ⟨hne, hfields, htargets⟩ := hd.pairs k hk
  have htrimmed := (hd.references.2 k.name (List.mem_map_of_mem hk)).1
  rw [hg.1, ← ReferenceReport.readSpec_pairs htrimmed hfields htargets]
  exact draws_addForeignKey hne hg.2

/-! ### Indices -/

theorem indexKind_eq {row : Row} {x : IndexReport}
    (hunique : row.Shows [("non_unique", .int x.nonUnique)])
    (hmethod : (row.find "index_type").getD .null = textOrNull x.method) :
    indexKind .mysql row = .ok x.kind := by
  have hitem : row.item "non_unique" = .ok (.int x.nonUnique) := hunique.item (by simp)
  rw [indexKind, hunique.get "index_type", hitem, IndexReport.kind]
  simp only [bind, Except.bind, pure, Except.pure, hmethod, textOrEmpty_textOrNull]
  split
  · rfl
  · split
    · rfl
    · rw [show (Value.int x.nonUnique).toInteger = .ok x.nonUnique from rfl]

/-- Reading rows that name columns adds an index over them, of the kind that the first row tells. -/
theorem draws_addIndexRows {I : Option Value → Prop} (name : String) {kind : IndexKind}
    {columns : List String} {first : Row} {rest : List Row}
    (hkind : indexKind dialect first = .ok kind)
    (hrows : List.Forall₂ (fun row n => row.item "column_name" = .ok (.text n)) (first :: rest)
      columns) :
    Draws I (Drafts b t o) (addIndex dialect t (.text name) (first :: rest))
      fun _ => Drafts b t { o with indices := o.indices ++
        [{ name := .text (Text.trim name), kind := .indexKind kind,
           fields := .ofTexts (normalizeNames columns) }] } :=
  (yields_pureStep hkind).bind ((yields_pureStep (columnsOf_eq hrows)).bind
    (draws_edit_discard (Drafts.addIndex (IndexSpec.ofParams_texts name kind columns))))

/-- Reading an index adds it. -/
theorem draws_addIndex {I : Option Value → Prop} (hd : d.Sound) {x : IndexReport}
    (hx : x ∈ d.indices) {g : Value × List Row}
    (hg : GroupOf ShowsIndex (·.name) (·.columns) g x) :
    Draws I (Drafts b t o) (addIndex .mysql t g.1 g.2)
      fun _ => Drafts b t { o with indices := o.indices ++ [x.spec] } := by
  obtain ⟨hne, hsub⟩ := hd.indexColumns x hx
  obtain ⟨hname, hrows⟩ := hg
  have hnames : Normalised x.columns := fun n hn => hd.normalised n (hsub hn)
  have htrimmed := (hd.indices.2 x.name (List.mem_map_of_mem hx)).1
  rcases hfirst : g.2 with _ | ⟨first, rest⟩
  · rw [hfirst] at hrows
    exact absurd (List.forall₂_nil_left_iff.mp hrows) hne
  rw [hfirst] at hrows
  obtain ⟨n, -, hshows, hmethod⟩ := exists_of_forall₂ hrows List.mem_cons_self
  have hadd := draws_addIndexRows (I := I) (b := b) (t := t) (o := o) x.name
    (indexKind_eq (hshows.mono (by simp)) hmethod) (hrows.imp fun row n h => h.1.item (by simp))
  rw [htrimmed, normalizeNames_eq_self hnames] at hadd
  rwa [hname]

/-- Reading the indices adds those that back no key, in order. -/
theorem draws_addIndices {I : Option Value → Prop} (hd : d.Sound)
    {groups keys : List (Value × List Row)}
    (hgroups : List.Forall₂ (GroupOf ShowsIndex (·.name) (·.columns)) groups d.indices)
    (hkeys : List.Forall₂ (GroupOf ShowsKey (·.name) (·.columns)) keys d.keys) :
    Draws I (Drafts b t o)
      ((groups.filter fun g => !keys.any fun k => k.1.same g.1).forM
        fun g => addIndex .mysql t g.1 g.2) fun _ =>
      Drafts b t { o with
        indices := o.indices ++ (d.indices.filter fun x => !d.backsKey x).map (·.spec) } := by
  have hbacks : ∀ g x, GroupOf ShowsIndex (·.name) (·.columns) g x →
      (!keys.any fun k => k.1.same g.1) = !d.backsKey x := by
    intro g x hg
    have hnames := congrArg (List.any · (Value.same · g.1)) (map_fst_of_groups hkeys)
    simp only [List.any_map, Function.comp_def, hg.1] at hnames
    rw [TableReport.backsKey, hg.1, hnames]
    simp [Value.same]
  have hfilter := List.rel_filter (R := GroupOf ShowsIndex (·.name) (·.columns))
    (fun g x hg => Bool.eq_iff_iff.mp (hbacks g x hg)) hgroups
  have hloop := Draws.forM (I := I) (g := fun g => addIndex .mysql t g.1 g.2) hfilter
    (P := fun done => Drafts b t { o with indices := o.indices ++ done.map (·.spec) })
    fun done g x rest hsplit hg => ?_
  · simpa using hloop
  · have hx : x ∈ d.indices :=
      List.mem_of_mem_filter (hsplit ▸ List.mem_append_right done List.mem_cons_self)
    refine (draws_addIndex hd hx hg).weaken (fun _ h => h) fun _ _ h => ?_
    simpa [List.append_assoc] using h

/-! ### Options -/

/-- A trimmed value without commas makes one option. -/
theorem splitNames_option {key s : String} (hkey : Trimmed key ∧ key ≠ "" ∧ ',' ∉ key.toList)
    (hs : Trimmed s) (hne : s ≠ "") (hout : ',' ∉ s.toList) :
    splitNames [.text (key ++ "=" ++ s)] = .ok [key ++ "=" ++ s] := by
  obtain ⟨htrimmed, hkeyNe, hkeyOut⟩ := hkey
  refine splitNames_text (htrimmed.around hs hkeyNe hne "=") (fun h => ?_) ?_
  · have hmem : '=' ∈ (key ++ "=" ++ s).toList := by simp
    simp [h] at hmem
  · simp [hkeyOut, hout]

/-- An option with a trimmed value without commas is added as one option. -/
theorem draws_addOption {I : Option Value → Prop} (key : String) {found : Option Value}
    {v : Option String} (hfound : found.getD .null = textOrNull v)
    (hkey : Trimmed key ∧ key ≠ "" ∧ ',' ∉ key.toList)
    (hv : ∀ s ∈ v, Trimmed s ∧ ',' ∉ s.toList) :
    Draws I (Drafts b t o) (addOption t key found)
      fun _ => Drafts b t { o with options := o.options ++ optionFor key v } := by
  -- an option that is missing, null or empty is passed over
  have hnone : optionFor key v = [] → Draws I (Drafts b t o) (Pure.pure PUnit.unit)
      fun _ => Drafts b t { o with options := o.options ++ optionFor key v } := fun h =>
    .pure fun _ hst => by simpa [h] using hst
  rcases v with _ | s
  · rcases found with _ | w
    · exact hnone rfl
    · rw [show w = .null from hfound]
      exact hnone rfl
  rcases found with _ | w
  · cases hfound
  rw [show w = .text s from hfound]
  unfold addOption
  dsimp only
  by_cases hs : s = ""
  · rw [if_neg (by simp [hs, Value.truthy])]
    exact hnone (by simp [optionFor, hs])
  · obtain ⟨htrimmed, hout⟩ := hv s rfl
    have hoption : optionFor key (some s) = [key ++ "=" ++ s] := by simp [optionFor, hs]
    rw [if_pos (by simpa [Value.truthy] using hs), hoption]
    refine yields_plain.bind (draws_edit_discard (Drafts.addOptions ?_))
    exact splitNames_option hkey htrimmed hs hout

/-- Reading the options adds the engine and the collation. -/
theorem draws_addOptions (hd : d.Sound) (hs : Reads c given schema)
    (hc : ∃ row rest, Answers c optionsStatement (some [schema, .text d.name]) (row :: rest) ∧
      ShowsOptions row d) (hname : o.name = .text d.name) :
    Draws (Recalls schema) (Drafts b t o) (addOptions c given t) fun _ =>
      Drafts b t { o with options :=
        o.options ++ (optionFor "ENGINE" d.engine ++ optionFor "COLLATE" d.collation) } := by
  obtain ⟨row, rest, hanswer, hform, hengine, hcollation⟩ := hc
  have hget : ∀ column, row.get column = .ok (row.find column) := fun _ => by
    rw [Row.get, hform]
  refine (yields_rowsAbout hs hanswer hname).bind ?_
  refine (yields_pureStep (hget "engine")).bind ?_
  refine (draws_addOption "ENGINE" hengine ⟨rfl, by decide, by decide⟩ fun s hs =>
    hd.options s ?_).bind fun _ => ?_
  · simpa using Or.inl hs
  refine (yields_pureStep (hget "table_collation")).bind ?_
  refine (draws_addOption "COLLATE" hcollation ⟨rfl, by decide, by decide⟩ fun s hs =>
    hd.options s ?_).weaken (fun _ h => h) fun _ _ h => ?_
  · simpa using Or.inr hs
  · simpa [List.append_assoc] using h

/-! ### Tables -/

/-- **A table that the views describe is read as described.**  The reading succeeds and leaves what
was there alone.  The new table has the columns as fields in their order, the primary key and the
unique constraints with their names and columns in order, the foreign keys with their columns paired
with those that they refer to, the indices that back no key, and the engine and the collation as
options. -/
theorem readTable_of_shown (hd : d.Sound) (hs : Reads c given schema) (hc : Shown c schema d)
    (σ : Session) (hσ : Recalls schema σ.schemaName) :
    ∃ t σ', outcome (readTable .mysql c given (.text d.name)) σ = (.ok t, σ') ∧
      σ.store.Extends σ'.store ∧ σ.store.tables.size ≤ t.index ∧
      σ'.store.outline t = d.outline ∧
      orderedFields σ'.store t = .ok ((σ'.store.table t).fields.map (·.2)) ∧
      ∀ k ∈ d.references, Normalised (k.pairs.map (·.1)) → Normalised (k.pairs.map (·.2)) →
        k.spec.fields = .ofTexts (k.pairs.map (·.1)) ∧
          k.spec.referenceFields = .ofTexts (k.pairs.map (·.2)) := by
  have hread : Draws (Recalls schema) (fun st => st = σ.store)
      (readTable .mysql c given (.text d.name)) fun t => Drafts σ.store t d.outline := by
    obtain ⟨columnRows, hcolumns, hcolumnRows⟩ := hc.columns
    obtain ⟨keyRows, hkeys, hkeyRows⟩ := hc.keys
    obtain ⟨referenceRows, hreferences, hreferenceRows⟩ := hc.references
    obtain ⟨indexRows, hindices, hindexRows⟩ := hc.indices
    obtain ⟨keys, hkeyGroups, hkeysOf⟩ := groupRows_of_listed "constraint_name"
      (fun row e h => h.item (by simp)) hd.keys.1 (fun k hk => (hd.keyColumns k hk).1) hkeyRows
    obtain ⟨references, hreferenceGroups, hreferencesOf⟩ := groupRows_of_listed "constraint_name"
      (fun row e h => h.1.item (by simp)) hd.references.1 (fun k hk => (hd.pairs k hk).1)
      hreferenceRows
    obtain ⟨indices, hindexGroups, hindicesOf⟩ := groupRows_of_listed "index_name"
      (fun row e h => h.1.item (by simp)) hd.indices.1 (fun x hx => (hd.indexColumns x hx).1)
      hindexRows
    refine (draws_newTable σ.store d.name).bind fun t => (yields_rowsAbout hs hcolumns rfl).bind ?_
    refine (draws_addColumns (o := { name := .text d.name }) hd hcolumnRows).bind fun _ => ?_
    refine (yields_rowsAbout hs hkeys rfl).bind ((yields_pureStep hkeyGroups).bind ?_)
    refine (draws_addKeys (o := { name := .text d.name }) hd hkeysOf).bind fun _ => ?_
    refine (yields_rowsAbout hs hreferences rfl).bind ((yields_pureStep hreferenceGroups).bind ?_)
    refine (draws_addForeignKeys hd hreferencesOf).bind fun _ => ?_
    rw [if_neg (by decide)]
    refine (yields_rowsAbout hs hindices rfl).bind ((yields_pureStep hindexGroups).bind ?_)
    refine (draws_addIndices hd hindicesOf hkeysOf).bind fun _ => ?_
    rw [if_pos rfl]
    refine (draws_addOptions hd hs hc.options rfl).bind fun _ => .pure fun _ h => h
  obtain ⟨t, σ', ho, hdraft, -⟩ := Ensures.exists_ok hread ⟨rfl, hσ⟩
  exact ⟨t, σ', ho, hdraft.building.old, hdraft.building.new, hdraft.outline,
    hdraft.coherent.orderedFields, fun _ _ => ReferenceReport.paired⟩

/-- A table with a composite primary key between unique constraints, two foreign keys, and indices
of which two back keys. -/
def loans : TableReport where
  name := "loans"
  columns := [
    { name := "book", dataType := "varchar", length := some 20, precision := none, scale := none,
      nullable := false, default := none },
    { name := "copy", dataType := "int", length := none, precision := some 10, scale := some 0,
      nullable := false, default := some "1" },
    { name := "fee", dataType := "decimal", length := none, precision := some 6, scale := some 2,
      nullable := true, default := none }]
  keys := [
    { name := "A_UNIQUE", isPrimary := false, columns := ["fee"] },
    { name := "PRIMARY", isPrimary := true, columns := ["copy", "book"] },
    { name := "fees", isPrimary := false, columns := ["fee", "copy"] }]
  references := [
    { name := "of_copy", table := "copies", pairs := [("book", "isbn"), ("copy", "number")],
      onUpdate := "NO ACTION", onDelete := "CASCADE" },
    { name := "of_fee", table := "fees", pairs := [("fee", "amount")],
      onUpdate := "", onDelete := "SET NULL" }]
  indices := [
    { name := "PRIMARY", nonUnique := 0, method := some "BTREE", columns := ["copy", "book"] },
    { name := "by_fee", nonUnique := 1, method := some "BTREE", columns := ["fee"] },
    { name := "fees", nonUnique := 0, method := some "BTREE", columns := ["fee", "copy"] },
    { name := "words", nonUnique := 1, method := some "FULLTEXT", columns := ["book"] }]
  engine := some "InnoDB"
  collation := none

theorem sound_loans : loans.Sound where
  columns := by decide
  normalised := by
    simp only [loans, Normalised, Trimmed, List.map_cons, List.map_nil]
    decide
  keys := by
    simp only [loans, Normalised, Trimmed, List.map_cons, List.map_nil]
    decide
  onePrimary := by decide
  keyColumns := by
    simp only [loans, List.map_cons, List.map_nil]
    decide
  references := by
    simp only [loans, Normalised, Trimmed, List.map_cons, List.map_nil]
    decide
  pairs := by
    simp only [loans]
    decide
  indices := by
    simp only [loans, Normalised, Trimmed, List.map_cons, List.map_nil]
    decide
  indexColumns := by
    simp only [loans, List.map_cons, List.map_nil]
    decide
  options := by
    simp only [loans, Trimmed]
    decide

theorem readTable_of_shown_loans :
    loans.Sound ∧ Reads (answering (loans.answers "library")) .null (.text "library") ∧
      Shown (answering (loans.answers "library")) (.text "library") loans ∧
      Recalls (.text "library") none ∧
      ∃ t σ', outcome (readTable .mysql (answering (loans.answers "library")) .null
          (.text "loans")) {} = (.ok t, σ') ∧ σ'.store.outline t = loans.outline := by
  obtain ⟨t, σ', ho, -, -, houtline, -⟩ := readTable_of_shown sound_loans
    (reads_answering loans "library") (shown_answering loans "library") {} (.inl rfl)
  exact ⟨sound_loans, reads_answering loans "library", shown_answering loans "library", .inl rfl,
    t, σ', ho, houtline⟩

end DbSchema.Source.StandardViews
