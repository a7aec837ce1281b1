import DbSchema.Proofs.Source.CrossedKeys

/-!
# Tables that the views of either database describe

What the views of PostgreSQL and of MySQL report of a table is its columns, its keys, its foreign
keys and the rows that its indices have, which come in any order.  PostgreSQL also reports its
checks, whatever they are called, and MySQL its engine and collation.  A part of an index that is no
column has no name.  Everything is read as described until there is an index with such a part.

## Main definitions

* `CheckReport`, `IndexPart` — what is reported of a check, and by a row of an index.
* `ViewReport` — what is reported of a table; `ViewReport.Sound` — it describes one.
* `ShownBy dialect c schema d` — the database shows the report in its views.
* `ViewReport.outline` — the outline of the table that is described.
* `readConstraints`, `readIndices` — reading a table up to its indices, and reading these.

## Main results

* `shownBy_answering` — every report is shown by some database.
* `draws_readConstraints` — what is read before the indices.
* `draws_readView`, `fails_readView` — a table is read as described, or it cannot be read.
-/

namespace DbSchema.Source.StandardViews

open Probe

/-! ### Reports -/

/-- What is reported of a check: its name, and what it checks. -/
structure CheckReport where
  name : String
  clause : Value

/-- What a row reports of an index: one of its columns, without a name if it is an expression. -/
structure IndexPart where
  index : String
  nonUnique : Int
  method : Option String
  column : Option String
deriving DecidableEq

/-- What is reported of a table by the views of either database. -/
structure ViewReport where
  name : String
  columns : List ColumnReport
  keys : List KeyReport
  references : List CrossedReference
  checks : List CheckReport
  /-- The rows of the indices, in the order in which they are given. -/
  parts : List IndexPart
  engine : Option String
  collation : Option String

namespace CheckReport

variable (x : CheckReport)

/-- Whether the check is read: not if its name has the ending of those that columns without null
values bring along. -/
def isRead : Bool := !Text.hasEnd x.name notNullSuffix

/-- The description of the check. -/
def spec : ConstraintSpec :=
  { name := .text (Text.trim x.name), kind := .constraintKind .check, expression := x.clause }

end CheckReport

/-- The kind of index that a row tells of; methods are told by MySQL only. -/
def IndexPart.kind (dialect : Dialect) (x : IndexPart) : IndexKind :=
  match dialect with
  | .postgres => if x.nonUnique = 0 then .unique else .normal
  | .mysql =>
    IndexReport.kind
      { name := x.index, nonUnique := x.nonUnique, method := x.method, columns := [] }

namespace ViewReport

variable (d : ViewReport)

/-- The report without foreign keys and indices. -/
def base : TableReport :=
  { name := d.name, columns := d.columns, keys := d.keys, references := [], indices := []
    engine := d.engine, collation := d.collation }

/-- Whether an index of this name backs a key. -/
def backsKey (name : String) : Bool := d.keys.any (·.name == name)

/-- The indices that back no key, in the order in which they are first mentioned. -/
def ownIndices : List String := (d.parts.map (·.index)).eraseDups.filter fun n => !d.backsKey n

/-- The rows of an index. -/
def partsOf (name : String) : List IndexPart := d.parts.filter fun p => p.index = name

/-- Whether every part of an index is a column. -/
def isNamed (name : String) : Bool := (d.partsOf name).all (·.column.isSome)

/-- The columns of an index. -/
def indexColumns (name : String) : List String := (d.partsOf name).filterMap (·.column)

/-- The description of an index, whose kind is told by its first row. -/
def indexSpec (dialect : Dialect) (name : String) : IndexSpec :=
  { name := .text (Text.trim name)
    kind := .indexKind (((d.partsOf name).head?.map (·.kind dialect)).getD .normal)
    fields := .ofTexts (d.indexColumns name) }

/-- The descriptions of the keys and the foreign keys. -/
def keyConstraints : List ConstraintSpec :=
  d.keys.map (·.spec) ++ d.references.map fun x => x.readSpec x.listing

/-- The descriptions of the checks that are read; only PostgreSQL has any. -/
def checkConstraints : Dialect → List ConstraintSpec
  | .postgres => (d.checks.filter (·.isRead)).map (·.spec)
  | .mysql => []

/-- The options; only MySQL has any. -/
def options : Dialect → List String
  | .postgres => []
  | .mysql => optionFor "ENGINE" d.engine ++ optionFor "COLLATE" d.collation

/-- The outline of the table, without the indices over expressions. -/
def outline (dialect : Dialect) : TableOutline :=
  { name := .text d.name
    fields := d.columns.map (·.spec)
    indices := (d.ownIndices.filter d.isNamed).map (d.indexSpec dialect)
    constraints := d.keyConstraints ++ d.checkConstraints dialect
    options := d.options dialect }

/-- The report describes a table: its columns, keys and options are sound, the foreign keys have
different names and are listed somehow, and the columns of indices are those of the table. -/
structure Sound : Prop where
  base : d.base.Sound
  references : (d.references.map (·.name)).Nodup ∧ ∀ x ∈ d.references, x.listing ≠ []
  parts : ∀ p ∈ d.parts, ∀ n ∈ p.column, n ∈ d.columns.map (·.name)

variable {d}

theorem partsOf_ne_nil {n : String} (hn : n ∈ d.ownIndices) : d.partsOf n ≠ [] := by
  obtain ⟨p, hp, rfl⟩ := List.mem_map.mp (List.mem_eraseDups.mp (List.mem_of_mem_filter hn))
  exact List.ne_nil_of_mem (List.mem_filter.mpr ⟨hp, by simp⟩)

/-- The columns of an index are trimmed and not empty. -/
theorem Sound.normalised_indexColumns (hd : d.Sound) (n : String) :
    Normalised (d.indexColumns n) := by
  intro m hm
  obtain ⟨p, hp, hcolumn⟩ := List.mem_filterMap.mp hm
  exact hd.base.normalised m (hd.parts p (List.mem_of_mem_filter hp) m hcolumn)

end ViewReport

/-! ### Views -/

/-- The row of a check. -/
def ShowsCheck (row : Row) (x : CheckReport) : Prop :=
  row.Shows [("constraint_name", .text x.name), ("check_clause", x.clause)]

/-- The row of a part of an index. -/
def ShowsPart (dialect : Dialect) (row : Row) (p : IndexPart) : Prop :=
  row.Shows [("index_name", .text p.index), ("column_name", textOrNull p.column)] ∧
    match dialect with
    | .postgres => (row.find "is_unique").any (·.truthy) = decide (p.nonUnique = 0)
    | .mysql => row.Shows [("non_unique", .int p.nonUnique)] ∧
      (row.find "index_type").getD .null = textOrNull p.method

/-- The database shows the report in its views of the schema. -/
structure ShownBy (dialect : Dialect) (c : Connection) (schema : Value) (d : ViewReport) :
    Prop where
  columns : ∃ rows, Answers c columnsStatement (some [schema, .text d.name]) rows ∧
    List.Forall₂ ShowsColumn rows d.columns
  keys : ∃ rows, Answers c keysStatement (some [schema, .text d.name]) rows ∧
    List.Forall₂ ShowsKey rows (listed d.keys (·.columns))
  references : ∃ rows, Answers c (foreignKeysStatement dialect) (some [schema, .text d.name]) rows ∧
    ShowsCrossed rows d.references
  checks : dialect = .postgres → ∃ rows, Answers c checksStatement (some [schema, .text d.name])
    rows ∧ List.Forall₂ ShowsCheck rows d.checks
  parts : ∃ rows, Answers c (indicesStatement dialect) (some [schema, .text d.name]) rows ∧
    List.Forall₂ (ShowsPart dialect) rows d.parts
  options : dialect = .mysql → ∃ row rest, Answers c optionsStatement
    (some [schema, .text d.name]) (row :: rest) ∧ ShowsOptions row d.base

/-- The row of a check. -/
def CheckReport.row (x : CheckReport) : Row :=
  .ofCells [("constraint_name", .text x.name), ("check_clause", x.clause)]

theorem CheckReport.shows_row (x : CheckReport) : ShowsCheck x.row x :=
  Row.shows_ofCells (by simp)

/-- The row of a part of an index. -/
def IndexPart.row (p : IndexPart) : Row :=
  .ofCells [("index_name", .text p.index), ("column_name", textOrNull p.column),
    ("is_unique", .bool (p.nonUnique = 0)), ("non_unique", .int p.nonUnique),
    ("index_type", textOrNull p.method)]

theorem IndexPart.shows_row (dialect : Dialect) (p : IndexPart) : ShowsPart dialect p.row p := by
  have hshows : p.row.Shows _ := Row.shows_ofCells (by simp)
  refine ⟨hshows.mono (by simp), ?_⟩
  cases dialect with
  | postgres =>
    have hcell := hshows.cell ("is_unique", .bool (p.nonUnique = 0)) (by simp)
    dsimp only at hcell ⊢
    rw [hcell]
    simp [Value.truthy]
  | mysql =>
    refine ⟨hshows.mono (by simp), ?_⟩
    rw [hshows.cell ("index_type", textOrNull p.method) (by simp), Option.getD_some]

/-- What a database whose current schema holds just the table answers to the statements about it. -/
def ViewReport.answers (dialect : Dialect) (schema : String) (d : ViewReport) :
    List (String × List Row) :=
  [(columnsStatement, d.columns.map (·.row)),
    (keysStatement, (listed d.keys (·.columns)).map keyRow),
    (foreignKeysStatement dialect, (listed d.references (·.listing)).map fun e =>
      referenceRow (e.1.toReferenceReport, e.2)),
    (checksStatement, d.checks.map (·.row)),
    (indicesStatement dialect, d.parts.map (·.row)),
    (optionsStatement, [d.base.row]),
    (currentStatement dialect, [.ofCells [("name", .text schema)]])]

/-- Every report is shown by some database. -/
theorem shownBy_answering (dialect : Dialect) (schema : String) (d : ViewReport) :
    ShownBy dialect (answering (d.answers dialect schema)) (.text schema) d ∧
      ReadsFrom dialect (answering (d.answers dialect schema)) .null (.text schema) := by
  have hn : ((d.answers dialect schema).map (·.1)).Nodup := by
    change [columnsStatement, keysStatement, foreignKeysStatement dialect, checksStatement,
      indicesStatement dialect, optionsStatement, currentStatement dialect].Nodup
    cases dialect <;> decide +kernel
  have hanswer : ∀ e ∈ d.answers dialect schema, ∀ params,
      Answers (answering (d.answers dialect schema)) e.1 params e.2 :=
    fun e he => answers_answering hn he
  simp only [ViewReport.answers, List.forall_mem_cons] at hanswer ⊢
  obtain ⟨hcolumns, hkeys, hreferences, hchecks, hparts, hoptions, hcurrent, -⟩ := hanswer
  constructor
  · exact
      { columns := ⟨_, hcolumns _, forall₂_map_row ColumnReport.shows_row _⟩
        keys := ⟨_, hkeys _, forall₂_map_row shows_keyRow _⟩
        references := ⟨_, hreferences _, showsCrossed_referenceRow _⟩
        checks := fun _ => ⟨_, hchecks _, forall₂_map_row CheckReport.shows_row _⟩
        parts := ⟨_, hparts _, forall₂_map_row (IndexPart.shows_row dialect) _⟩
        options := fun _ => ⟨_, _, hoptions _, d.base.shows_row⟩ }
  · rw [ReadsFrom, if_pos (by simp [Value.same])]
    exact ⟨_, hcurrent _, .text schema, rfl, orEmpty_text schema⟩

variable {dialect : Dialect} {c : Connection} {given schema : Value} {b : Store} {t : TableId}
  {o : TableOutline} {d : ViewReport} {I : Option Value → Prop}

/-! ### Checks -/

/-- Reading the checks adds those that are read, in order. -/
theorem draws_addChecks {rows : List Row} {checks : List CheckReport}
    (hrows : List.Forall₂ ShowsCheck rows checks) :
    Draws I (Drafts b t o) (rows.forM (addCheck t)) fun _ => Drafts b t { o with
      constraints := o.constraints ++ (checks.filter (·.isRead)).map (·.spec) } := by
  have hloop := Draws.forM (I := I) (g := addCheck t) hrows
    (P := fun done => Drafts b t { o with
      constraints := o.constraints ++ (done.filter (·.isRead)).map (·.spec) })
    fun done row x rest _ hrow => ?_
  · simpa using hloop
  have hname : row.item "constraint_name" = .ok (.text x.name) := hrow.item (by simp)
  have hclause : row.item "check_clause" = .ok x.clause := hrow.item (by simp)
  have htext : needText "endswith" (.text x.name) = .ok x.name := rfl
  unfold addCheck
  refine (yields_pureStep hname).bind ((yields_pureStep htext).bind ?_)
  rw [List.filter_append, List.map_append, ← List.append_assoc]
  by_cases hread : x.isRead
  · rw [if_pos (by exact hread), List.filter_cons_of_pos hread]
    exact (yields_pureStep hclause).bind
      (draws_edit_discard (Drafts.addConstraint (ConstraintSpec.ofParams_check x.name x.clause)))
  · rw [if_neg (by exact hread), List.filter_cons_of_neg hread]
    exact .pure fun _ h => by simpa using h

/-! ### Indices -/

theorem indexKind_part {row : Row} {p : IndexPart} (h : ShowsPart dialect row p) :
    indexKind dialect row = .ok (p.kind dialect) := by
  obtain ⟨hshows, hkind⟩ := h
  cases dialect with
  | postgres =>
    have hget := hshows.get "is_unique"
    dsimp only at hkind
    rw [indexKind, holds, hget, IndexPart.kind]
    simp only [bind, Except.bind, pure, Except.pure, hkind]
    by_cases hunique : p.nonUnique = 0 <;> simp [hunique]
  | mysql => exact indexKind_eq hkind.1 hkind.2

/-- The rows of columns name these columns. -/
theorem forall₂_names {rows : List Row} {parts : List IndexPart}
    (h : List.Forall₂ (ShowsPart dialect) rows parts) (hnamed : parts.all (·.column.isSome)) :
    List.Forall₂ (fun row n => row.item "column_name" = .ok (.text n)) rows
      (parts.filterMap (·.column)) := by
  induction h with
  | nil => exact .nil
  | @cons row p rows parts hrow _ ih =>
    rw [List.all_cons, Bool.and_eq_true] at hnamed
    obtain ⟨n, hn⟩ := Option.isSome_iff_exists.mp hnamed.1
    have hitem : row.item "column_name" = .ok (textOrNull p.column) := hrow.1.item (by simp)
    rw [List.filterMap_cons_some hn]
    exact .cons (by rw [hitem, hn]; rfl) (ih hnamed.2)

/-- The columns of rows are texts, and null where there is an expression. -/
theorem columnsOf_parts {rows : List Row} {parts : List IndexPart}
    (h : List.Forall₂ (ShowsPart dialect) rows parts) :
    columnsOf rows = .ok (parts.map fun p => textOrNull p.column) := by
  rw [columnsOf]
  induction h with
  | nil => rfl
  | @cons row p rows parts hrow _ ih =>
    have hitem : row.item "column_name" = .ok (textOrNull p.column) := hrow.1.item (by simp)
    rw [List.mapM_cons, hitem, ih]
    rfl

/-- The first name that is missing is told. -/
theorem textsOf_columns {parts : List IndexPart} (h : ¬ parts.all (·.column.isSome)) :
    textsOf (parts.map fun p => textOrNull p.column) = .error (.notName .null) := by
  induction parts with
  | nil => simp at h
  | cons p r ih =>
    rw [List.map_cons]
    rcases hp : p.column with _ | n
    · rfl
    · have hrest : ¬ r.all (·.column.isSome) := by simpa [hp] using h
      rw [textOrNull, Option.elim, textsOf, ih hrest]
      rfl

/-- A group of rows has the name of an index and its rows. -/
def GroupsIndex (dialect : Dialect) (d : ViewReport) (g : Value × List Row) (n : String) : Prop :=
  g.1 = .text n ∧ List.Forall₂ (ShowsPart dialect) g.2 (d.partsOf n)

/-- Reading an index over columns adds it. -/
theorem draws_addNamedIndex (hd : d.Sound) {n : String} (hn : n ∈ d.ownIndices)
    (hnamed : d.isNamed n) {g : Value × List Row} (hg : GroupsIndex dialect d g n) :
    Draws I (Drafts b t o) (addIndex dialect t g.1 g.2)
      fun _ => Drafts b t { o with indices := o.indices ++ [d.indexSpec dialect n] } := by
  obtain ⟨name, rows⟩ := g
  obtain ⟨rfl, hrows⟩ := hg
  have hnames := forall₂_names hrows hnamed
  rcases hparts : d.partsOf n with _ | ⟨p, parts⟩
  · exact absurd hparts (ViewReport.partsOf_ne_nil hn)
  dsimp only at hrows hnames ⊢
  rw [hparts] at hrows
  obtain ⟨first, rest, hfirst, -, rfl⟩ := List.forall₂_cons_right_iff.mp hrows
  have hadd := draws_addIndexRows (I := I) (b := b) (t := t) (o := o) n (indexKind_part hfirst)
    hnames
  have hcolumns := normalizeNames_eq_self (hd.normalised_indexColumns n)
  rw [ViewReport.indexColumns] at hcolumns
  rw [hcolumns] at hadd
  rw [ViewReport.indexSpec, ViewReport.indexColumns, hparts]
  rw [hparts] at hadd
  exact hadd

/-- Reading an index over an expression is refused. -/
theorem fails_addIndex {n : String} (hn : n ∈ d.ownIndices) (hnamed : ¬ d.isNamed n)
    {g : Value × List Row} (hg : GroupsIndex dialect d g n) :
    Fails I (Drafts b t o) (addIndex dialect t g.1 g.2)
      (· = .model (.wrongType (.notName .null))) := by
  obtain ⟨name, rows⟩ := g
  obtain ⟨rfl, hrows⟩ := hg
  have hcolumns := columnsOf_parts hrows
  have htexts := textsOf_columns hnamed
  dsimp only at hrows hcolumns ⊢
  rcases hparts : d.partsOf n with _ | ⟨p, parts⟩
  · exact absurd hparts (ViewReport.partsOf_ne_nil hn)
  rw [hparts] at hrows
  obtain ⟨first, rest, hfirst, -, rfl⟩ := List.forall₂_cons_right_iff.mp hrows
  refine .after_yields (yields_pureStep (indexKind_part hfirst)) ?_
  refine .after_yields (yields_pureStep hcolumns) (.edit_discard fun st _ => ?_)
  rw [Edit.outcome_addIndex, Edit.resolveIndex, Edit.outcome_newIndex,
    IndexSpec.ofParams_of_textsOf htexts]
  exact ⟨_, _, rfl, rfl⟩

/-- Reads the indices of a table, except those that are called like one of its keys. -/
def readIndices (dialect : Dialect) (c : Connection) (given : Value) (t : TableId)
    (keys : List (Value × List Row)) : Probe PUnit := do
  let indices ← pureStep (groupRows (← rowsAbout dialect c given (indicesStatement dialect) t)
    "index_name")
  (indices.filter fun g => !keys.any fun k => k.1.same g.1).forM
    fun g => addIndex dialect t g.1 g.2

section

variable {keys : List (Value × List Row)}
  (hkeys : List.Forall₂ (GroupOf ShowsKey (·.name) (·.columns)) keys d.keys)
include hkeys

/-- The rows of the indices are grouped by their names, and those that back a key are left out. -/
theorem exists_indexGroups {rows : List Row}
    (hrows : List.Forall₂ (ShowsPart dialect) rows d.parts) :
    ∃ groups, groupRows rows "index_name" = .ok groups ∧
      List.Forall₂ (GroupsIndex dialect d)
        (groups.filter fun g => !keys.any fun k => k.1.same g.1) d.ownIndices := by
  obtain ⟨groups, hgroup, hgroups⟩ := groupRows_of_forall₂ (fun p : IndexPart => p.index) .text
    (fun row p h => show row.item "index_name" = _ from h.1.item (by simp)) (fun _ => rfl)
    (fun p _ q _ => by simp [Value.same, Bool.beq_eq_decide_eq]) hrows
  have hbacks : ∀ g n, GroupsIndex dialect d g n →
      (!keys.any fun k => k.1.same g.1) = !d.backsKey n := by
    intro g n hg
    have hnames := congrArg (List.any · (Value.same · g.1)) (map_fst_of_groups hkeys)
    simp only [List.any_map, Function.comp_def, hg.1] at hnames
    rw [ViewReport.backsKey, hg.1, hnames]
    simp [Value.same]
  refine ⟨groups, hgroup, List.rel_filter (R := GroupsIndex dialect d)
    (fun g n hg => Bool.eq_iff_iff.mp (hbacks g n hg)) ?_⟩
  exact hgroups

/-- Reading indices over columns adds those that back no key, in order. -/
theorem draws_readIndices (hd : d.Sound) (hs : ReadsFrom dialect c given schema)
    (hc : ShownBy dialect c schema d) (hname : o.name = .text d.name)
    (hnamed : ∀ n ∈ d.ownIndices, d.isNamed n) :
    Draws (Recalls schema) (Drafts b t { o with indices := [] })
      (readIndices dialect c given t keys) fun _ => Drafts b t { o with
        indices := (d.ownIndices.filter d.isNamed).map (d.indexSpec dialect) } := by
  obtain ⟨rows, hanswer, hrows⟩ := hc.parts
  obtain ⟨groups, hgroup, hgroups⟩ := exists_indexGroups hkeys hrows
  refine (yields_rowsAbout (o := { o with indices := [] }) hs hanswer hname).bind
    ((yields_pureStep hgroup).bind ?_)
  rw [List.filter_eq_self.mpr hnamed]
  refine Draws.forM hgroups
    (P := fun done => Drafts b t { o with indices := done.map (d.indexSpec dialect) })
    fun done g n rest hsplit hg => ?_
  have hn : n ∈ d.ownIndices := hsplit ▸ List.mem_append_right done List.mem_cons_self
  rw [List.map_append]
  exact draws_addNamedIndex hd hn (hnamed n hn) hg

/-- Reading an index over an expression that backs no key is refused. -/
theorem fails_readIndices (hd : d.Sound) (hs : ReadsFrom dialect c given schema)
    (hc : ShownBy dialect c schema d) (hname : o.name = .text d.name)
    (hnamed : ∃ n ∈ d.ownIndices, ¬ d.isNamed n) :
    Fails (Recalls schema) (Drafts b t { o with indices := [] })
      (readIndices dialect c given t keys) (· = .model (.wrongType (.notName .null))) := by
  obtain ⟨rows, hanswer, hrows⟩ := hc.parts
  obtain ⟨groups, hgroup, hgroups⟩ := exists_indexGroups hkeys hrows
  refine .after_yields (yields_rowsAbout (o := { o with indices := [] }) hs hanswer hname)
    (.after_yields (yields_pureStep hgroup) ?_)
  refine Fails.forM hgroups
    (P := fun done => Drafts b t { o with indices := done.map (d.indexSpec dialect) })
    (G := fun n => d.isNamed n) (fun done g n hn hnamed hg => ?_)
    (fun done g n hn hnamed hg => fails_addIndex hn hnamed hg) hnamed
  rw [List.map_append]
  exact draws_addNamedIndex hd hn hnamed hg

end

/-! ### Tables -/

/-- Reads the columns and the constraints of a table, and gives the groups of its keys. -/
def readConstraints (dialect : Dialect) (c : Connection) (given : Value) (t : TableId) :
    Probe (List (Value × List Row)) := do
  (← rowsAbout dialect c given columnsStatement t).forM (addColumn t)
  let keys ← pureStep (groupRows (← rowsAbout dialect c given keysStatement t) "constraint_name")
  keys.forM fun g => addKey t g.1 g.2
  readForeignKeys dialect c given t
  if dialect = .postgres then (← rowsAbout dialect c given checksStatement t).forM (addCheck t)
  return keys

/-- Reading a table is reading its columns and constraints, then its indices and its options. -/
theorem readTable_eq_parts (dialect : Dialect) (c : Connection) (given name : Value) :
    readTable dialect c given name = do
      let t ← edit (Edit.newTable { name })
      let keys ← readConstraints dialect c given t
      readIndices dialect c given t keys
      if dialect = .mysql then addOptions c given t
      return t := by
  rw [readTable_eq]
  cases dialect <;> simp [readConstraints, readIndices]

/-- **What is read before the indices** are the columns, the keys, the foreign keys and the checks
that are not taken for implied ones. -/
theorem draws_readConstraints (hd : d.Sound) (hs : ReadsFrom dialect c given schema)
    (hc : ShownBy dialect c schema d) :
    Draws (Recalls schema) (Drafts b t { name := .text d.name })
      (readConstraints dialect c given t) fun keys st =>
        List.Forall₂ (GroupOf ShowsKey (·.name) (·.columns)) keys d.keys ∧
          Drafts b t { d.outline dialect with indices := [], options := [] } st := by
  obtain ⟨columnRows, hcolumns, hcolumnRows⟩ := hc.columns
  obtain ⟨keyRows, hkeys, hkeyRows⟩ := hc.keys
  obtain ⟨referenceRows, hreferences, hreferenceRows⟩ := hc.references
  obtain ⟨keys, hkeyGroups, hkeysOf⟩ := groupRows_of_listed "constraint_name"
    (fun row e h => h.item (by simp)) hd.base.keys.1 (fun k hk => (hd.base.keyColumns k hk).1)
    hkeyRows
  refine (yields_rowsAbout hs hcolumns rfl).bind ?_
  refine (draws_addColumns (o := { name := .text d.name }) hd.base hcolumnRows).bind fun _ => ?_
  refine (yields_rowsAbout hs hkeys rfl).bind ((yields_pureStep hkeyGroups).bind ?_)
  refine (draws_addKeys (o := { name := .text d.name }) hd.base hkeysOf).bind fun _ => ?_
  have hread := draws_readForeignKeys (b := b) (t := t)
    (o :=
      { name := .text d.name
        fields := d.columns.map (·.spec)
        constraints := d.keys.map (·.spec) })
    hs hreferences hreferenceRows hd.references.1 hd.references.2
  refine hread.bind fun _ => ?_
  cases dialect with
  | postgres =>
    obtain ⟨checkRows, hchecks, hcheckRows⟩ := hc.checks rfl
    rw [if_pos rfl]
    refine (yields_rowsAbout hs hchecks rfl).bind ?_
    exact (draws_addChecks hcheckRows).bind fun _ => .pure fun _ h => ⟨hkeysOf, h⟩
  | mysql =>
    -- no checks are asked for, so none are read
    rw [if_neg (by decide)]
    refine .pure fun _ h => ⟨hkeysOf, ?_⟩
    simpa [ViewReport.outline, ViewReport.checkConstraints, ViewReport.keyConstraints] using h

/-- **A table whose own indices are all over columns is read as described.** -/
theorem draws_readView (hd : d.Sound) (hs : ReadsFrom dialect c given schema)
    (hc : ShownBy dialect c schema d) (hnamed : ∀ n ∈ d.ownIndices, d.isNamed n) (b : Store) :
    Draws (Recalls schema) (fun st => st = b) (readTable dialect c given (.text d.name))
      fun t => Drafts b t (d.outline dialect) := by
  rw [readTable_eq_parts]
  refine (draws_newTable b d.name).bind fun t => ?_
  refine (draws_readConstraints hd hs hc).bind fun keys => .of_and fun hkeys => ?_
  refine (draws_readIndices hkeys hd hs hc rfl hnamed
    (o := { d.outline dialect with indices := [], options := [] })).bind fun _ => ?_
  cases dialect with
  | postgres =>
    rw [if_neg (by decide)]
    exact .pure fun _ h => h
  | mysql =>
    rw [if_pos rfl]
    exact (draws_addOptions hd.base hs (hc.options rfl) rfl).bind fun _ => .pure fun _ h => h

/-- The same of one session. -/
theorem exists_readView (hd : d.Sound) (hs : ReadsFrom dialect c given schema)
    (hc : ShownBy dialect c schema d) (hnamed : ∀ n ∈ d.ownIndices, d.isNamed n) (σ : Session)
    (hσ : Recalls schema σ.schemaName) :
    ∃ t σ', outcome (readTable dialect c given (.text d.name)) σ = (.ok t, σ') ∧
      Drafts σ.store t (d.outline dialect) σ'.store := by
  obtain ⟨t, σ', ho, hdraft, -⟩ :=
    Ensures.exists_ok (draws_readView hd hs hc hnamed σ.store) ⟨rfl, hσ⟩
  exact ⟨t, σ', ho, hdraft⟩

/-- **A table with an own index over an expression cannot be read.** -/
theorem fails_readView (hd : d.Sound) (hs : ReadsFrom dialect c given schema)
    (hc : ShownBy dialect c schema d) (hnamed : ∃ n ∈ d.ownIndices, ¬ d.isNamed n) (b : Store) :
    Fails (Recalls schema) (fun st => st = b) (readTable dialect c given (.text d.name))
      (· = .model (.wrongType (.notName .null))) := by
  rw [readTable_eq_parts]
  refine .after (draws_newTable b d.name) fun t => .after (draws_readConstraints hd hs hc) ?_
  intro keys σ ⟨hkeys, hdraft⟩ hσ
  exact (fails_readIndices hkeys hd hs hc rfl hnamed
    (o := { d.outline dialect with indices := [], options := [] })).bind σ hdraft hσ

end DbSchema.Source.StandardViews
