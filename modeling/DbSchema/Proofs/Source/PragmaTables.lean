import DbSchema.Proofs.Source.Drawing
import Mathlib.Data.List.Sort

/-!
# Tables that pragmas describe

What pragmas report of a table is its columns in order, its indices and its foreign keys.  The
columns of an index and the parts of the foreign keys may come in any order, as each of them is
numbered.  A table that is read from such reports has the fields, the primary key, the indices and
the constraints that they describe.

## Main definitions

* `Pragmas.ColumnReport`, `Pragmas.IndexReport`, `Pragmas.ReferenceReport` — what is reported of a
  column, of an index and of a foreign key.
* `Pragmas.TableReport` — what is reported of a table; `TableReport.Sound` — it describes one.
* `Pragmas.Tells c d mentions` — the database answers what the report has, with the parts of the
  foreign keys mentioned in this order.
* `TableReport.outline` — the outline of the table that is described.

## Main results

* `Pragmas.draws_addColumns`, `Pragmas.draws_addKey`, `Pragmas.draws_addIndex`,
  `Pragmas.draws_addForeignKey`, `Pragmas.draws_readTable` — what the reading and its parts add.
* `Pragmas.readTable_of_tells` — the table that is read has the outline.
-/

namespace DbSchema.Source.Pragmas

open Probe

/-! ### Reports -/

/-- What is reported of a column. -/
structure ColumnReport where
  name : String
  /-- The declared type, which may be missing, and its parts. -/
  declared : Value
  dataType : String
  size : List Int
  typed : splitType declared = .ok (dataType, size)
  notNull : Value
  default : Value
  /-- The place in the primary key, zero for a column that is not in it. -/
  position : Nat

/-- What is reported of an index: its columns, of which expressions have no name, are numbered. -/
structure IndexReport where
  name : String
  /-- What the index was made for: the primary key, a unique constraint, or itself. -/
  origin : String
  unique : Value
  columns : List (Int × Option String)

/-- What is reported of one column of a foreign key; the column that it refers to may be missing. -/
structure ReferencePart where
  number : Int
  column : String
  target : Option String
deriving DecidableEq

/-- What is reported of a foreign key. -/
structure ReferenceReport where
  id : Int
  table : String
  parts : List ReferencePart
  onUpdate : String
  onDelete : String
  matching : String
deriving DecidableEq

/-- What is reported of a table. -/
structure TableReport where
  name : String
  columns : List ColumnReport
  indices : List IndexReport
  references : List ReferenceReport
  /-- The text that the table was made with, if there is one. -/
  source : Option String

namespace IndexReport

variable (x : IndexReport)

/-- Whether no column is an expression. -/
def isNamed : Bool := x.columns.all (·.2.isSome)

/-- The names of the columns. -/
def names : List String := x.columns.filterMap (·.2)

/-- Whether the index enforces a unique constraint over named columns. -/
def isConstraint : Bool := x.origin == "u" && x.isNamed

/-- Whether the index stands for itself and is over named columns. -/
def isIndex : Bool := x.origin != "pk" && x.origin != "u" && x.isNamed

/-- The description of the unique constraint. -/
def constraint : ConstraintSpec :=
  { name := .text x.name
    kind := .constraintKind .unique
    fields := .ofTexts (normalizeNames x.names) }

/-- The description of the index. -/
def spec : IndexSpec :=
  { name := .text x.name
    kind := .indexKind (if x.unique.truthy then .unique else .normal)
    fields := .ofTexts (normalizeNames x.names) }

end IndexReport

/-- The description of the foreign key. -/
def ReferenceReport.spec (x : ReferenceReport) : ConstraintSpec :=
  { kind := .constraintKind .foreignKey
    fields := .ofTexts (normalizeNames (x.parts.map (·.column)))
    referenceTable := .text x.table
    referenceFields := .ofTexts (normalizeNames (x.parts.filterMap (·.target)))
    onUpdate := .text x.onUpdate
    onDelete := .text x.onDelete
    matchType := .text x.matching }

namespace ColumnReport

variable (x : ColumnReport)

/-- The type of the field: trimmed, and that of columns without a type when none is declared. -/
def fieldType : String := Text.trim (if x.dataType = "" then noType else x.dataType)

/-- The description of the field. -/
def spec (countsUp : Bool) : FieldSpec :=
  { name := .text x.name
    dataType := .text x.fieldType
    size := .ofInts x.size
    nullable := .bool !x.notNull.truthy
    default := x.default
    autoIncrement := .bool countsUp }

end ColumnReport

namespace TableReport

variable (d : TableReport)

/-- The columns of the primary key by their places. -/
def key : List ColumnReport :=
  (d.columns.filter fun x => x.position ≠ 0).insertionSort fun x y => x.position ≤ y.position

/-- Whether a column is the whole primary key, an integer, and counts up by itself. -/
def countsUp (x : ColumnReport) : Bool :=
  d.key.map (·.name) == [x.name] && Text.upper x.fieldType == "INTEGER" &&
    d.source.any fun s => Text.occursIn "AUTOINCREMENT" (Text.upper s)

/-- The descriptions of the fields. -/
def fields : List FieldSpec := d.columns.map fun x => x.spec (d.countsUp x)

/-- The description of the primary key, if there is one. -/
def keyConstraint : List ConstraintSpec :=
  if d.key = [] then [] else [Edit.keySpec (d.key.map (·.name))]

/-- The outline of the table, with its foreign keys in the given order. -/
def outline (references : List ReferenceReport) : TableOutline :=
  { name := .text d.name
    fields := d.fields
    indices := (d.indices.filter (·.isIndex)).map (·.spec)
    constraints := d.keyConstraint ++ (d.indices.filter (·.isConstraint)).map (·.constraint) ++
      references.map (·.spec) }

/-- The report describes a table: names are trimmed and those of columns differ, the columns of the
primary key have different places, and the parts of indices and of foreign keys ascend. -/
structure Sound : Prop where
  columns : (d.columns.map (·.name)).Nodup
  normalised : Normalised (d.columns.map (·.name))
  places : ((d.columns.filter fun x => x.position ≠ 0).map (·.position)).Nodup
  indexNames : ∀ x ∈ d.indices, Trimmed x.name
  indexColumns : ∀ x ∈ d.indices, x.columns.Pairwise fun a b => a.1 < b.1
  ids : (d.references.map (·.id)).Nodup
  parts : ∀ k ∈ d.references, k.parts ≠ [] ∧ k.parts.Pairwise fun a b => a.number < b.number

end TableReport

/-! ### Answers -/

/-- The row of a column. -/
def TellsColumn (row : Row) (x : ColumnReport) : Prop :=
  row.Shows [("name", .text x.name), ("type", x.declared), ("notnull", x.notNull),
    ("dflt_value", x.default), ("pk", .int x.position)]

/-- The row of an index; an index whose origin is missing was made for itself. -/
def TellsIndex (row : Row) (x : IndexReport) : Prop :=
  row.Shows [("name", .text x.name), ("unique", x.unique)] ∧
    (row.find "origin").getD (.text "c") = .text x.origin

/-- The row of a column of an index. -/
def TellsIndexColumn (row : Row) (e : Int × Option String) : Prop :=
  row.Shows [("seqno", .int e.1), ("name", textOrNull e.2)]

/-- The row of a column of a foreign key; rules that are missing or null are empty. -/
def TellsReference (row : Row) (e : ReferenceReport × ReferencePart) : Prop :=
  row.Shows [("id", .int e.1.id), ("seq", .int e.2.number), ("table", .text e.1.table),
      ("from", .text e.2.column), ("to", textOrNull e.2.target)] ∧
    orEmpty (row.find "on_update") = .text e.1.onUpdate ∧
    orEmpty (row.find "on_delete") = .text e.1.onDelete ∧
    orEmpty (row.find "match") = .text e.1.matching

/-- The database answers what the report has: the columns and the indices of the table in order, the
columns of an index in any order, and the parts of its foreign keys as they are mentioned. -/
structure Tells (c : Connection) (d : TableReport)
    (mentions : List (ReferenceReport × ReferencePart)) : Prop where
  columns : ∃ rows, Answers c (statement "table_info" (quoteIdentifier d.name)) none rows ∧
    List.Forall₂ TellsColumn rows d.columns
  source : ∃ rows, Answers c sourceStatement (some [.text d.name]) rows ∧
    List.Forall₂ (fun (row : Row) s => row.Shows [("sql", .text s)]) rows d.source.toList
  indices : ∃ rows, Answers c (statement "index_list" (quoteIdentifier d.name)) none rows ∧
    List.Forall₂ TellsIndex rows d.indices
  indexColumns : ∀ x ∈ d.indices, x.origin ≠ "pk" → ∃ rows listing,
    Answers c (statement "index_info" (quoteIdentifier x.name)) none rows ∧
      List.Forall₂ TellsIndexColumn rows listing ∧ listing.Perm x.columns
  references : ∃ rows, Answers c (statement "foreign_key_list" (quoteIdentifier d.name)) none rows ∧
    List.Forall₂ TellsReference rows mentions
  mentioned : mentions.Perm (listed d.references (·.parts))

/-! ### Rows of reports -/

/-- The row of a column. -/
def ColumnReport.row (x : ColumnReport) : Row :=
  .ofCells [("name", .text x.name), ("type", x.declared), ("notnull", x.notNull),
    ("dflt_value", x.default), ("pk", .int x.position)]

theorem ColumnReport.tells_row (x : ColumnReport) : TellsColumn x.row x :=
  Row.shows_ofCells (by simp)

/-- The row of an index. -/
def IndexReport.row (x : IndexReport) : Row :=
  .ofCells [("name", .text x.name), ("unique", x.unique), ("origin", .text x.origin)]

theorem IndexReport.tells_row (x : IndexReport) : TellsIndex x.row x := by
  have hshows : x.row.Shows [("name", .text x.name), ("unique", x.unique),
    ("origin", .text x.origin)] := Row.shows_ofCells (by simp)
  exact ⟨hshows.mono (by simp), by rw [hshows.cell ("origin", .text x.origin) (by simp)]; rfl⟩

/-- The row of a column of an index. -/
def indexColumnRow (e : Int × Option String) : Row :=
  .ofCells [("seqno", .int e.1), ("name", textOrNull e.2)]

theorem tells_indexColumnRow (e : Int × Option String) : TellsIndexColumn (indexColumnRow e) e :=
  Row.shows_ofCells (by simp)

/-- The row of a column of a foreign key. -/
def referenceRow (e : ReferenceReport × ReferencePart) : Row :=
  .ofCells [("id", .int e.1.id), ("seq", .int e.2.number), ("table", .text e.1.table),
      ("from", .text e.2.column), ("to", textOrNull e.2.target), ("on_update", .text e.1.onUpdate),
      ("on_delete", .text e.1.onDelete), ("match", .text e.1.matching)]

theorem tells_referenceRow (e : ReferenceReport × ReferencePart) :
    TellsReference (referenceRow e) e := by
  have hshows : (referenceRow e).Shows [("id", .int e.1.id), ("seq", .int e.2.number),
      ("table", .text e.1.table), ("from", .text e.2.column), ("to", textOrNull e.2.target),
      ("on_update", .text e.1.onUpdate), ("on_delete", .text e.1.onDelete),
      ("match", .text e.1.matching)] := Row.shows_ofCells (by simp)
  have hrule : ∀ column rule, (referenceRow e).find column = some (.text rule) →
      orEmpty ((referenceRow e).find column) = .text rule := fun _ rule h => by
    rw [h, orEmpty_text]
  exact ⟨hshows.mono (by simp), hrule _ _ (hshows.cell ("on_update", _) (by simp)),
    hrule _ _ (hshows.cell ("on_delete", _) (by simp)),
    hrule _ _ (hshows.cell ("match", _) (by simp))⟩

variable {c : Connection} {I : Option Value → Prop} {b : Store} {t : TableId} {o : TableOutline}

/-! ### Columns -/

/-- Reading the columns adds their fields, and gives the names of the key with their places. -/
theorem draws_addColumns {rows : List Row} {columns : List ColumnReport}
    (h : List.Forall₂ TellsColumn rows columns) (done : List ColumnReport)
    (hn : Normalised ((done ++ columns).map (·.name)))
    (hd : ((done ++ columns).map (·.name)).Nodup) :
    Draws I (Drafts b t { o with fields := done.map (·.spec false) }) (addColumns t rows)
      fun keys st =>
        keys = (columns.filter fun x => x.position ≠ 0).map
          (fun x => (.int x.position, .text x.name)) ∧
        Drafts b t { o with fields := (done ++ columns).map (·.spec false) } st := by
  induction h generalizing done with
  | nil => exact .pure fun _ hst => ⟨rfl, by simpa using hst⟩
  | @cons row x rows columns hrow _ ih =>
    have htrimmed := hn x.name (by simp)
    -- no column before it has the name, so the field is listed last
    have hnew : ∀ y ∈ done.map (·.spec false), y.name ≠ .text x.name := by
      intro y hy heq
      obtain ⟨z, hz, rfl⟩ := List.mem_map.mp hy
      rw [List.map_append, List.nodup_append] at hd
      exact hd.2.2 z.name (List.mem_map_of_mem hz) x.name (by simp) (Value.text.inj heq)
    have htype : row.item "type" = .ok x.declared := hrow.item (by simp)
    have hname : row.item "name" = .ok (.text x.name) := hrow.item (by simp)
    have hnull : row.item "notnull" = .ok x.notNull := hrow.item (by simp)
    have hdefault : row.item "dflt_value" = .ok x.default := hrow.item (by simp)
    have hplace : row.item "pk" = .ok (.int x.position) := hrow.item (by simp)
    rw [List.append_cons] at hn hd ⊢
    rw [addColumns]
    refine (yields_pureStep htype).bind ((yields_pureStep x.typed).bind ?_)
    refine (yields_pureStep hname).bind ((yields_pureStep hnull).bind ?_)
    refine (yields_pureStep hdefault).bind ?_
    have hspec : FieldSpec.ofParams _ = .ok (x.spec false) := FieldSpec.ofParams_column htrimmed.1
    have hadd := Drafts.addNamed (b := b) (t := t)
      (o := { o with fields := done.map (·.spec false) }) hspec rfl htrimmed.2 hnew
    refine (draws_edit_discard hadd).bind fun _ => ?_
    refine (yields_pureStep hplace).bind ?_
    have hrest := ih (done ++ [x]) hn hd
    rw [List.map_append] at hrest
    refine hrest.bind fun keys => .of_and ?_
    rintro rfl
    refine .pure fun st hst => ⟨?_, hst⟩
    by_cases hp : x.position = 0 <;> simp [hp, Value.truthy]

/-! ### The primary key -/

variable {d : TableReport} {mentions : List (ReferenceReport × ReferencePart)}

theorem TableReport.Sound.key_ascends (h : d.Sound) :
    d.key.Pairwise fun x y => (x.position : Int) < y.position := by
  have hle := List.pairwise_insertionSort (fun x y : ColumnReport => x.position ≤ y.position)
    (d.columns.filter fun x => x.position ≠ 0)
  have hne : (d.key.map (·.position)).Nodup :=
    (List.Perm.map _ (List.perm_insertionSort _ _)).nodup_iff.mpr h.places
  refine (hle.and (List.pairwise_map.mp hne)).imp fun {x y} hxy => ?_
  exact_mod_cast lt_of_le_of_ne hxy.1 hxy.2

/-- The columns of the key are sorted by their places. -/
theorem sortBy_key (h : d.Sound) :
    sortBy keyPrecedes ((d.columns.filter fun x => x.position ≠ 0).map
      fun x => (.int x.position, .text x.name)) =
      .ok (d.key.map fun x => (.int x.position, .text x.name)) := by
  have hbefore : ∀ x y : ColumnReport, (x.position : Int) ≠ y.position →
      keyPrecedes (.int x.position, .text x.name) (.int y.position, .text y.name) =
        .ok (decide ((x.position : Int) < y.position)) := by
    intro x y hne
    have hsame : (Value.int x.position).same (.int y.position) = false := by
      simpa [Value.same, Value.sameNumber, Value.asInt?] using hne
    rw [keyPrecedes, Value.precedes, Value.allPrecede, hsame]
    rfl
  rw [sortBy_map, sortBy_of_perm hbefore (List.perm_insertionSort _ _).symm h.key_ascends]
  rfl

theorem mem_columns_of_mem_key {x : ColumnReport} (hx : x ∈ d.key) : x ∈ d.columns :=
  List.mem_of_mem_filter ((List.perm_insertionSort _ _).mem_iff.mp hx)

theorem yields_hasAutoincrement {P : Store → Prop} (hc : Tells c d mentions) :
    Yields I P (hasAutoincrement c (.text d.name))
      (d.source.any fun s => Text.occursIn "AUTOINCREMENT" (Text.upper s)) := by
  obtain ⟨rows, hanswer, hrows⟩ := hc.source
  refine (yields_fetchAll hanswer).bind ?_
  rcases hs : d.source with _ | s <;> rw [hs] at hrows
  · rw [List.forall₂_nil_right_iff.mp hrows, Option.any_none]
    exact Yields.pure
  · obtain ⟨row, rest, hrow, hrest, rfl⟩ := List.forall₂_cons_right_iff.mp hrows
    have hsql : row.item "sql" = .ok (.text s) := hrow.item (by simp)
    rw [Option.any_some]
    refine (yields_pureStep hsql).bind ((yields_pureStep (textOrEmpty_text _ s)).bind ?_)
    exact Yields.pure

/-- Whether a single key column counts up by itself. -/
def TableReport.keyCountsUp (d : TableReport) (x : ColumnReport) : Bool :=
  Text.upper x.fieldType == "INTEGER" &&
    d.source.any fun s => Text.occursIn "AUTOINCREMENT" (Text.upper s)

/-- A single key column is the only one that may count up by itself. -/
theorem fields_of_sole (hd : d.Sound) {x : ColumnReport} (hkey : d.key = [x]) :
    d.fields = if d.keyCountsUp x then
      (d.columns.map (·.spec false)).map (FieldSpec.countingUp x.name)
    else d.columns.map (·.spec false) := by
  have hx : x ∈ d.columns := mem_columns_of_mem_key (hkey ▸ List.mem_cons_self)
  have hcounts : ∀ y ∈ d.columns, d.countsUp y = (x.name == y.name && d.keyCountsUp x) := by
    intro y hy
    rw [TableReport.countsUp, TableReport.keyCountsUp, hkey, ← Bool.and_assoc]
    by_cases hname : x.name = y.name
    · rw [List.inj_on_of_nodup_map hd.columns hx hy hname]
      simp
    · have hne : (x.name == y.name) = false := by simpa using hname
      simp [hne]
  have hspec : ∀ y ∈ d.columns, y.spec (d.countsUp y) =
      if d.keyCountsUp x then (y.spec false).countingUp x.name else y.spec false := by
    intro y hy
    rw [hcounts y hy]
    by_cases hname : x.name = y.name <;> by_cases hup : d.keyCountsUp x <;>
      simp [hname, hup, FieldSpec.countingUp, ColumnReport.spec, Value.same]
  rw [TableReport.fields, List.map_congr_left hspec]
  by_cases hup : d.keyCountsUp x <;> simp [hup]

/-- A single key column that is a field of the table is told to count up if it does. -/
theorem draws_countUp (hc : Tells c d mentions) {x : ColumnReport} (hx : x.spec false ∈ o.fields) :
    Draws I (Drafts b t o)
      (do
        let f ← ask (fieldNamed · t (.text x.name))
        if (← pureStep ((← get).store.field f).normalizedType) = "INTEGER" then
          if ← hasAutoincrement c (.text d.name) then
            edit (Edit.onField f fun x => { x with autoIncrement := .bool true }))
      fun _ => Drafts b t (if d.keyCountsUp x then
        { o with fields := o.fields.map (FieldSpec.countingUp x.name) } else o) := by
  -- the key names a column of the table, so the field is found
  have hask : Draws I (Drafts b t o) (ask (fieldNamed · t (.text x.name))) fun f st =>
      (Drafts b t o st ∧ (.text x.name, f) ∈ (st.table t).fields) ∧
        (st.field f).toFieldSpec = x.spec false := by
    refine draws_ask fun st hst => ?_
    obtain ⟨f, hf, hmem, hspec⟩ := hst.fieldNamed hx rfl
    exact ⟨f, hf, ⟨hst, hmem⟩, hspec⟩
  refine hask.bind fun f => .get_bind fun σ hσ _ => ?_
  have htype : (σ.store.field f).normalizedType = .ok (Text.upper x.fieldType) := by
    rw [Field.normalizedType, hσ.2]
    rfl
  refine (yields_pureStep htype).bind ?_
  rw [TableReport.keyCountsUp]
  split
  · next hinteger =>
    refine (yields_hasAutoincrement hc).bind ?_
    rw [hinteger, beq_self_eq_true, Bool.true_and]
    split
    · exact (draws_edit Drafts.countUp).weaken (fun _ h => h.1) fun _ _ h => h
    · exact .pure fun _ h => h.1.1
  · next hinteger =>
    rw [if_neg (by simp [hinteger])]
    exact .pure fun _ h => h.1.1

/-- Reading the key adds the primary key over its columns by their places, and lets a single integer
column count up by itself if the table was made so. -/
theorem draws_addKey (hd : d.Sound) (hc : Tells c d mentions) :
    Draws I (Drafts b t { name := .text d.name, fields := d.columns.map (·.spec false) })
      (addKey c t (.text d.name) ((d.key.map (·.name)).map .text))
      fun _ => Drafts b t
        { name := .text d.name, fields := d.fields, constraints := d.keyConstraint } := by
  -- unless there is one key column, no field counts up
  have hplain : (∀ x, d.countsUp x = false) → d.fields = d.columns.map (·.spec false) := fun h =>
    List.map_congr_left fun x _ => by rw [h x]
  unfold addKey
  by_cases hk : d.key = []
  · have hnone : ∀ x, d.countsUp x = false := fun x => by simp [TableReport.countsUp, hk]
    rw [hk, if_neg (by simp)]
    exact .pure fun st hst => by rwa [hplain hnone, TableReport.keyConstraint, if_pos hk]
  rw [if_pos (by simpa using hk), TableReport.keyConstraint, if_neg hk]
  have hnames : Normalised (d.key.map (·.name)) := by
    intro n hn
    obtain ⟨x, hx, rfl⟩ := List.mem_map.mp hn
    exact hd.normalised _ (List.mem_map_of_mem (mem_columns_of_mem_key hx))
  have hfields : ∀ n ∈ d.key.map (·.name), ∃ y ∈ d.columns.map (·.spec false),
      y.name = .text n := by
    intro n hn
    obtain ⟨x, hx, rfl⟩ := List.mem_map.mp hn
    exact ⟨x.spec false, List.mem_map_of_mem (mem_columns_of_mem_key hx), rfl⟩
  have hkey := Drafts.primaryKey (b := b) (t := t)
    (o := { name := .text d.name, fields := d.columns.map (·.spec false) }) hnames
    (by simpa using hk) hfields (by simp)
  refine (draws_edit_discard (hkey.weaken (fun _ h => h) (fun _ _ h => h.1) fun _ h => h)).bind
    fun _ => ?_
  rcases hkeys : d.key with _ | ⟨x, _ | ⟨y, r⟩⟩
  · exact absurd hkeys hk
  · have hx : x ∈ d.columns := mem_columns_of_mem_key (hkeys ▸ List.mem_cons_self)
    refine (draws_countUp hc (List.mem_map_of_mem hx)).weaken (fun _ h => h) fun _ st h => ?_
    rw [fields_of_sole hd hkeys]
    split at h
    · next hup => rwa [if_pos hup]
    · next hup => rwa [if_neg hup]
  · have hnone : ∀ z, d.countsUp z = false := fun z => by simp [TableReport.countsUp, hkeys]
    exact .pure fun _ h => hplain hnone ▸ h

/-! ### Indices -/

namespace IndexReport

variable {x : IndexReport}

theorem map_textOrNull (h : x.isNamed) :
    x.columns.map (fun e => textOrNull e.2) = x.names.map .text := by
  have hall : ∀ l : List (Int × Option String), l.all (·.2.isSome) →
      l.map (fun e => textOrNull e.2) = (l.filterMap (·.2)).map .text := by
    intro l hl
    induction l with
    | nil => rfl
    | cons e r ih =>
      obtain ⟨n, _ | name⟩ := e
      · simp at hl
      · have hr := ih (by simpa using hl)
        simp only [List.map_cons, hr, List.filterMap_cons]
        rfl
  exact hall x.columns h

/-- A column is null if and only if it has no name. -/
theorem any_null : (x.columns.map fun e => textOrNull e.2).any (·.same .null) = !x.isNamed := by
  rw [isNamed, List.any_map, List.not_all_eq_any_not]
  congr 1
  funext e
  obtain ⟨n, _ | name⟩ := e <;> simp [textOrNull, Value.same, Value.sameNumber, Value.asInt?]

end IndexReport

/-- The columns of an index are read in order, in whatever order they come. -/
theorem yields_indexColumns {P : Store → Prop} (hd : d.Sound) (hc : Tells c d mentions)
    {x : IndexReport} (hx : x ∈ d.indices) (ho : x.origin ≠ "pk") :
    Yields I P (indexColumns c (.text x.name)) (x.columns.map fun e => textOrNull e.2) := by
  obtain ⟨rows, listing, hanswer, hrows, hperm⟩ := hc.indexColumns x hx ho
  have hnumber : ∀ (row : Row) (e : Int × Option String), TellsIndexColumn row e →
      row.item "seqno" = .ok (.int e.1) := fun row e h => h.item (by simp)
  obtain ⟨sorted, hsort, hsorted⟩ :=
    sortRows_of_forall₂ hnumber hrows hperm (hd.indexColumns x hx)
  have hquote : needText "replace" (.text x.name) = .ok x.name := rfl
  refine (yields_pureStep hquote).bind ((yields_fetchAll hanswer).bind ?_)
  refine (yields_pureStep hsort).bind (Yields.mapM hsorted fun row e hrow => ?_)
  have hname : row.item "name" = .ok (textOrNull e.2) := hrow.item (by simp)
  exact yields_pureStep hname

/-- Reading an index adds it, or the constraint that it enforces, or nothing. -/
theorem draws_addIndex (hd : d.Sound) (hc : Tells c d mentions) {row : Row} {x : IndexReport}
    (hrow : TellsIndex row x) (hx : x ∈ d.indices) :
    Draws I (Drafts b t o) (addIndex c t row) fun _ => Drafts b t { o with
      indices := o.indices ++ ([x].filter (·.isIndex)).map (·.spec)
      constraints := o.constraints ++ ([x].filter (·.isConstraint)).map (·.constraint) } := by
  obtain ⟨hshows, horigin⟩ := hrow
  have hname : row.item "name" = .ok (.text x.name) := hshows.item (by simp)
  have hunique : row.item "unique" = .ok x.unique := hshows.item (by simp)
  have hsame : ∀ s, (Value.text x.origin).same (.text s) = (x.origin == s) := fun s => by
    rw [Value.same]
  unfold addIndex
  refine (yields_pureStep (hshows.get "origin")).bind ?_
  dsimp only
  rw [horigin, hsame]
  -- the primary key is read from the columns, so its index is passed over
  by_cases hpk : x.origin = "pk"
  · have hnone : x.isIndex = false ∧ x.isConstraint = false := by
      simp [IndexReport.isIndex, IndexReport.isConstraint, hpk]
    rw [if_neg (by simp [hpk])]
    exact .pure fun _ h => by simpa [hnone] using h
  rw [if_pos (by simpa using hpk)]
  refine (yields_pureStep hname).bind ((yields_indexColumns hd hc hx hpk).bind ?_)
  rw [IndexReport.any_null, hsame]
  by_cases hnamed : x.isNamed
  · rw [if_neg (by simp [hnamed]), IndexReport.map_textOrNull hnamed]
    have ht := hd.indexNames x hx
    -- an index that a unique constraint made stands for the constraint
    by_cases hu : x.origin = "u"
    · have hkind : x.isIndex = false ∧ x.isConstraint = true := by
        simp [IndexReport.isIndex, IndexReport.isConstraint, hu, hnamed]
      have hadd := Drafts.addConstraint (b := b) (t := t) (o := o)
        (show _ = Except.ok x.constraint from ConstraintSpec.ofParams_unique ht _)
      rw [if_pos (by simpa using hu)]
      exact (draws_edit_discard hadd).weaken (fun _ h => h) fun _ _ h => by simpa [hkind] using h
    · have hkind : x.isIndex = true ∧ x.isConstraint = false := by
        simp [IndexReport.isIndex, IndexReport.isConstraint, hu, hpk, hnamed]
      have hadd := Drafts.addIndex (b := b) (t := t) (o := o)
        (show _ = Except.ok x.spec from IndexSpec.ofParams_named ht _ _)
      rw [if_neg (by simpa using hu)]
      refine (yields_pureStep hunique).bind ?_
      exact (draws_edit_discard hadd).weaken (fun _ h => h) fun _ _ h => by simpa [hkind] using h
  · have hnone : x.isIndex = false ∧ x.isConstraint = false := by
      simp [IndexReport.isIndex, IndexReport.isConstraint, hnamed]
    -- an index over expressions is told about and not added
    rw [if_pos (by simpa using hnamed)]
    refine yields_plain.bind ((yields_tell _ _).weaken (fun _ h => h) fun _ _ h => ?_)
    simpa [hnone] using h.2

/-- Reading the indices adds them in order. -/
theorem draws_addIndices (hd : d.Sound) (hc : Tells c d mentions) {rows : List Row}
    (hrows : List.Forall₂ TellsIndex rows d.indices) :
    Draws I (Drafts b t o) (rows.forM (addIndex c t)) fun _ => Drafts b t { o with
      indices := o.indices ++ (d.indices.filter (·.isIndex)).map (·.spec)
      constraints := o.constraints ++
        (d.indices.filter (·.isConstraint)).map (·.constraint) } := by
  have hloop := Draws.forM (I := I) (g := addIndex c t) hrows
    (P := fun done => Drafts b t { o with
      indices := o.indices ++ (done.filter (·.isIndex)).map (·.spec)
      constraints := o.constraints ++ (done.filter (·.isConstraint)).map (·.constraint) })
    fun done row x rest hsplit hrow => ?_
  · simpa using hloop
  · have hx : x ∈ d.indices := hsplit ▸ List.mem_append_right done List.mem_cons_self
    refine (draws_addIndex hd hc hrow hx).weaken (fun _ h => h) fun _ _ h => ?_
    simpa only [List.filter_append, List.map_append, List.append_assoc] using h

/-! ### Foreign keys -/

/-- The names of the columns that are referred to, without those that are missing or empty. -/
def ReferenceReport.targets (k : ReferenceReport) : List String :=
  (k.parts.filterMap (·.target)).filter (· ≠ "")

theorem ReferenceReport.filter_targets (k : ReferenceReport) :
    (k.parts.map fun p => textOrNull p.target).filter (·.truthy) = k.targets.map .text := by
  rw [targets]
  induction k.parts with
  | nil => rfl
  | cons p r ih =>
    rcases hp : p.target with _ | s
    · simpa [hp, textOrNull, Value.truthy] using ih
    · by_cases hs : s = "" <;> simpa [hp, textOrNull, Value.truthy, hs] using ih

theorem ReferenceReport.ofParams_spec (k : ReferenceReport) :
    ConstraintSpec.ofParams
      [("type", .constraintKind .foreignKey), ("fields", .ofTexts (k.parts.map (·.column))),
        ("reference_table", .text k.table), ("reference_fields", .ofTexts k.targets),
        ("on_update", .text k.onUpdate), ("on_delete", .text k.onDelete),
        ("match_type", .text k.matching)] = .ok k.spec := by
  have htidy := ConstraintSpec.tidy_of_texts { k.spec with
    fields := .ofTexts (k.parts.map (·.column))
    referenceFields := .ofTexts k.targets } rfl rfl rfl rfl
      (show _ = Value.ofTexts [] from rfl)
  rw [targets, normalizeNames_filter] at htidy
  exact htidy

/-- Reading the rows of a foreign key adds it, in whatever order they come. -/
theorem draws_addForeignKey (hd : d.Sound) {k : ReferenceReport} (hk : k ∈ d.references)
    {rows : List Row} {listing : List (ReferenceReport × ReferencePart)}
    (hrows : List.Forall₂ TellsReference rows listing)
    (hperm : listing.Perm (k.parts.map fun p => (k, p))) :
    Draws I (Drafts b t o) (addForeignKey t rows) fun _ =>
      Drafts b t { o with constraints := o.constraints ++ [k.spec] } := by
  obtain ⟨hne, hasc⟩ := hd.parts k hk
  have hnumber : ∀ (row : Row) (e : ReferenceReport × ReferencePart), TellsReference row e →
      row.item "seq" = .ok (.int e.2.number) := fun row e h => h.1.item (by simp)
  obtain ⟨sorted, hsort, hsorted⟩ :=
    sortRows_of_forall₂ hnumber hrows hperm (List.pairwise_map.mpr hasc)
  unfold addForeignKey
  refine (yields_pureStep hsort).bind ?_
  have hparts : sorted.Forall₂ (fun row p => TellsReference row (k, p)) k.parts :=
    List.forall₂_map_right_iff.mp hsorted
  -- the table and the rules are read from the first row only, the columns from all
  rcases sorted with _ | ⟨first, rest⟩
  · exact absurd (List.forall₂_nil_left_iff.mp hparts) hne
  obtain ⟨p, -, hfirst⟩ := exists_of_forall₂ hparts List.mem_cons_self
  obtain ⟨hshows, hupdate, hdelete, hmatch⟩ := hfirst
  have hfrom : ∀ (row : Row) (p : ReferencePart), TellsReference row (k, p) →
      row.item "from" = .ok (.text p.column) := fun row p h => h.1.item (by simp)
  have hto : ∀ (row : Row) (p : ReferencePart), TellsReference row (k, p) →
      row.item "to" = .ok (textOrNull p.target) := fun row p h => h.1.item (by simp)
  have htable : first.item "table" = .ok (.text k.table) := hshows.item (by simp)
  have hrule : ∀ {column rule}, orEmpty (first.find column) = .text rule →
      Yields I (Drafts b t o)
        (do return orEmpty (← pureStep (first.get column))) (.text rule) := fun {column rule} h =>
    (yields_pureStep (hshows.get column)).bind (h ▸ Yields.pure)
  refine (Yields.mapM hparts fun row p h => yields_pureStep (hfrom row p h)).bind ?_
  refine (yields_pureStep htable).bind ?_
  refine (Yields.mapM hparts fun row p h => yields_pureStep (hto row p h)).bind ?_
  refine (hrule hupdate).bind ((hrule hdelete).bind ((hrule hmatch).bind ?_))
  rw [k.filter_targets]
  have hadd := Drafts.addConstraint (b := b) (t := t) (o := o) k.ofParams_spec
  rw [Value.ofTexts, List.map_map] at hadd
  exact draws_edit_discard hadd

/-- The foreign keys in the order in which they are mentioned. -/
def referencesOf (mentions : List (ReferenceReport × ReferencePart)) : List ReferenceReport :=
  (mentions.map (·.1)).eraseDups

theorem TableReport.Sound.nodup_references (hd : d.Sound) : d.references.Nodup :=
  List.Nodup.of_map _ hd.ids

theorem Tells.mem_references (hc : Tells c d mentions) {e : ReferenceReport × ReferencePart}
    (he : e ∈ mentions) : e.1 ∈ d.references :=
  fst_mem_of_mem_listed (hc.mentioned.mem_iff.mp he)

/-- The foreign keys that are mentioned are those of the table. -/
theorem referencesOf_perm (hd : d.Sound) (hc : Tells c d mentions) :
    (referencesOf mentions).Perm d.references := by
  refine (List.perm_ext_iff_of_nodup (nodup_eraseDups _) hd.nodup_references).mpr fun k => ?_
  rw [List.mem_eraseDups, List.mem_map]
  constructor
  · rintro ⟨e, he, rfl⟩
    exact hc.mem_references he
  · intro hk
    obtain ⟨p, hp⟩ := List.exists_mem_of_ne_nil _ (hd.parts k hk).1
    exact ⟨(k, p), hc.mentioned.mem_iff.mpr (List.mem_flatMap.mpr
      ⟨k, hk, List.mem_map_of_mem hp⟩), rfl⟩

/-- The rows of the foreign keys are grouped by their keys. -/
theorem exists_groups (hd : d.Sound) (hc : Tells c d mentions) {rows : List Row}
    (hrows : List.Forall₂ TellsReference rows mentions) :
    ∃ groups, groupRows rows "id" = .ok groups ∧ Gathers TellsReference (·.1)
      (fun k => .int k.id) groups (referencesOf mentions) mentions := by
  refine groupRows_of_forall₂ _ (fun k : ReferenceReport => .int k.id)
    (fun row e h => h.1.item (by simp)) (fun _ => rfl) ?_ hrows
  intro e he e' he'
  have hids := List.inj_on_of_nodup_map hd.ids (hc.mem_references he) (hc.mem_references he')
  have hiff : e.1.id = e'.1.id ↔ e.1 = e'.1 := ⟨hids, fun h => congrArg _ h⟩
  simp [Value.same, Value.sameNumber, Value.asInt?, ← hiff, Bool.beq_eq_decide_eq]

/-- Reading the foreign keys adds them in the order in which they are mentioned. -/
theorem draws_addForeignKeys (hd : d.Sound) (hc : Tells c d mentions)
    {groups : List (Value × List Row)}
    (hgroups : Gathers TellsReference (·.1) (fun k => .int k.id) groups (referencesOf mentions)
      mentions) :
    Draws I (Drafts b t o) (groups.forM fun g => addForeignKey t g.2) fun _ => Drafts b t { o with
      constraints := o.constraints ++ (referencesOf mentions).map (·.spec) } := by
  have hadd : ∀ g : Value × List Row, ∀ k ∈ referencesOf mentions, ∀ o : TableOutline,
      g.1 = .int k.id ∧ List.Forall₂ TellsReference g.2 (mentions.filter fun e => e.1 = k) →
      Draws I (Drafts b t o) (addForeignKey t g.2)
        fun _ => Drafts b t { o with constraints := o.constraints ++ [k.spec] } := by
    intro g k hk o hg
    have hmem := (referencesOf_perm hd hc).mem_iff.mp hk
    have hperm := (hc.mentioned.filter fun e => e.1 = k).trans
      (List.Perm.of_eq (filter_listed hd.nodup_references hmem))
    exact draws_addForeignKey hd hmem hg.2 hperm
  exact draws_addConstraints hgroups hadd

/-! ### Tables -/

/-- Reading a table gives it the outline that is described. -/
theorem draws_readTable (hd : d.Sound) (hc : Tells c d mentions) (b : Store) :
    Draws I (fun st => st = b) (readTable c (.text d.name))
      fun t => Drafts b t (d.outline (referencesOf mentions)) := by
  obtain ⟨columnRows, hcolumns, hcolumnRows⟩ := hc.columns
  obtain ⟨indexRows, hindices, hindexRows⟩ := hc.indices
  obtain ⟨referenceRows, hreferences, hreferenceRows⟩ := hc.references
  obtain ⟨groups, hgroup, hgroups⟩ := exists_groups hd hc hreferenceRows
  have hquote : needText "replace" (.text d.name) = .ok d.name := rfl
  refine (draws_newTable b d.name).bind fun t => (yields_pureStep hquote).bind ?_
  refine (yields_fetchAll hcolumns).bind ?_
  have hfields := draws_addColumns (I := I) (b := b) (t := t)
    (o := { name := .text d.name }) hcolumnRows [] hd.normalised hd.columns
  refine hfields.bind fun keys => .of_and ?_
  rintro rfl
  refine (yields_pureStep (sortBy_key hd)).bind ?_
  have hkey := draws_addKey (I := I) (b := b) (t := t) hd hc
  rw [List.map_map] at hkey
  rw [List.map_map]
  refine hkey.bind fun _ => (yields_fetchAll hindices).bind ?_
  have hindex := draws_addIndices (I := I) (b := b) (t := t)
    (o := { name := .text d.name, fields := d.fields, constraints := d.keyConstraint }) hd hc
    hindexRows
  refine hindex.bind fun _ => (yields_fetchAll hreferences).bind ?_
  refine (yields_pureStep hgroup).bind ?_
  exact (draws_addForeignKeys hd hc hgroups).bind fun _ => .pure fun _ h => h

/-- The same of one session. -/
theorem exists_readTable (hd : d.Sound) (hc : Tells c d mentions) (σ : Session) :
    ∃ t σ', outcome (readTable c (.text d.name)) σ = (.ok t, σ') ∧
      Drafts σ.store t (d.outline (referencesOf mentions)) σ'.store := by
  obtain ⟨t, σ', ho, hdraft, -⟩ :=
    Ensures.exists_ok (draws_readTable (I := fun _ => True) hd hc σ.store) ⟨rfl, trivial⟩
  exact ⟨t, σ', ho, hdraft⟩

/-- **A table that pragmas describe is read as described.**  The reading succeeds and leaves what
was there alone.  The new table has the columns as fields in their order, the primary key over its
columns by their places, the unique constraints and the indices in order, except those over
expressions, with their columns by number, and one foreign key for each that is reported. -/
theorem readTable_of_tells (hd : d.Sound) (hc : Tells c d mentions) (σ : Session) :
    ∃ t σ', outcome (readTable c (.text d.name)) σ = (.ok t, σ') ∧
      σ.store.Extends σ'.store ∧ σ.store.tables.size ≤ t.index ∧
      σ'.store.outline t = d.outline (referencesOf mentions) ∧
      orderedFields σ'.store t = .ok ((σ'.store.table t).fields.map (·.2)) ∧
      (referencesOf mentions).Perm d.references := by
  obtain ⟨t, σ', ho, hdraft⟩ := exists_readTable hd hc σ
  exact ⟨t, σ', ho, hdraft.building.old, hdraft.building.new, hdraft.outline,
    hdraft.coherent.orderedFields, referencesOf_perm hd hc⟩

/-- A table with two key columns that are declared in the other order, a unique constraint, an index
over an expression, and two foreign keys. -/
def shipments : TableReport where
  name := "shipments"
  columns := [
    { name := "line", declared := .text "INTEGER", dataType := "INTEGER", size := [],
      typed := rfl, notNull := .int 1, default := .null, position := 2 },
    { name := "parcel", declared := .text "VARCHAR(20)", dataType := "VARCHAR", size := [20],
      typed := rfl, notNull := .int 1, default := .null, position := 1 },
    { name := "note", declared := .null, dataType := "", size := [], typed := rfl,
      notNull := .int 0, default := .text "none", position := 0 }]
  indices := [
    { name := "by_note", origin := "c", unique := .int 0,
      columns := [(0, some "note"), (1, some "line")] },
    { name := "shouted", origin := "c", unique := .int 0, columns := [(0, none)] },
    { name := "auto", origin := "u", unique := .int 1, columns := [(0, some "parcel")] }]
  references := [
    { id := 0, table := "lines", onUpdate := "NO ACTION", onDelete := "CASCADE", matching := "NONE",
      parts := [⟨0, "parcel", some "id"⟩, ⟨1, "line", some "number"⟩] },
    { id := 1, table := "notes", onUpdate := "", onDelete := "", matching := "",
      parts := [⟨0, "note", none⟩] }]
  source := none

/-- The parts of the foreign keys of the shipments from the last to the first. -/
def shipmentMentions : List (ReferenceReport × ReferencePart) :=
  (listed shipments.references (·.parts)).reverse

/-- What a database that holds the shipments answers to the statements about them.  The columns of
indices and the parts of foreign keys come from the last to the first. -/
def shipmentsAnswers : List (String × List Row) :=
  (shipments.indices.map fun x =>
    (statement "index_info" (quoteIdentifier x.name), x.columns.reverse.map indexColumnRow)) ++
  [(statement "table_info" (quoteIdentifier "shipments"), shipments.columns.map (·.row)),
    (statement "index_list" (quoteIdentifier "shipments"), shipments.indices.map (·.row)),
    (statement "foreign_key_list" (quoteIdentifier "shipments"),
      shipmentMentions.map referenceRow),
    (sourceStatement, [])]

theorem sound_shipments : shipments.Sound where
  columns := by decide
  normalised := by
    simp only [shipments, Normalised, Trimmed, List.map_cons, List.map_nil]
    decide
  places := by decide
  indexNames := by
    simp only [shipments, Trimmed]
    decide
  indexColumns := by simp [shipments]
  ids := by decide
  parts := by simp [shipments]

theorem tells_shipments : Tells (answering shipmentsAnswers) shipments shipmentMentions := by
  have hn : (shipmentsAnswers.map (·.1)).Nodup := by decide
  exact
    { columns := ⟨_, answers_answering hn (List.mem_append_right _ (.head _)) _,
        forall₂_map_row ColumnReport.tells_row _⟩
      source := ⟨_, answers_answering hn
        (List.mem_append_right _ (.tail _ (.tail _ (.tail _ (.head _))))) _, .nil⟩
      indices := ⟨_, answers_answering hn (List.mem_append_right _ (.tail _ (.head _))) _,
        forall₂_map_row IndexReport.tells_row _⟩
      indexColumns := fun x hx _ => ⟨_, x.columns.reverse,
        answers_answering hn (List.mem_append_left _ (List.mem_map_of_mem hx)) _,
        forall₂_map_row tells_indexColumnRow _, List.reverse_perm _⟩
      references := ⟨_, answers_answering hn
        (List.mem_append_right _ (.tail _ (.tail _ (.head _)))) _,
        forall₂_map_row tells_referenceRow _⟩
      mentioned := List.reverse_perm _ }

theorem readTable_of_tells_shipments :
    shipments.Sound ∧ Tells (answering shipmentsAnswers) shipments shipmentMentions ∧
      ∃ t σ', outcome (readTable (answering shipmentsAnswers) (.text "shipments")) {} =
          (.ok t, σ') ∧
        σ'.store.outline t = shipments.outline shipments.references.reverse := by
  obtain ⟨t, σ', ho, -, -, houtline, -⟩ := readTable_of_tells sound_shipments tells_shipments {}
  have hreferences : referencesOf shipmentMentions = shipments.references.reverse := by
    decide
  exact ⟨sound_shipments, tells_shipments, t, σ', ho, hreferences ▸ houtline⟩

end DbSchema.Source.Pragmas
