import DbSchema.Proofs.Source.CatalogTables
import DbSchema.Proofs.Source.MisreadTypes
import DbSchema.Proofs.Source.PragmaTables

/-!
# Types of columns

The declared types of its columns decide what is read of a table: an unreadable one stops the
reading of the columns, a nameless one leaves its column without a type, and otherwise every column
gets the type that is declared.  This is so for the pragmas and for the views of a catalog.

## Main definitions

* `DeclaredColumn` — the name and the declared type of a column.
* `TypesColumns b t o columns step` — the step adds the columns, each with its type.
* `DecidedByTypes b t o columns step` — it does so exactly if no declared type is misread.
* `Grants step Q` — whatever the step gives, `Q` holds of it.

## Main results

* `decidedByTypes_addColumns` — the declared types decide what is read of the columns.
-/

namespace DbSchema.Source

open Text Probe

/-! ### Columns -/

/-- A column as a database tells it: its name and its declared type. -/
structure DeclaredColumn where
  name : String
  declared : String

/-- The field of a column has its name, and a type if one is declared. -/
def HasType (x : DeclaredColumn) (f : FieldSpec) : Prop :=
  f.name = .text x.name ∧ ∃ type, f.dataType = .text type ∧ (trim x.declared ≠ "" → type ≠ "")

variable {α : Type} {b : Store} {t : TableId} {o : TableOutline} {columns : List DeclaredColumn}

/-- The step succeeds, and adds the columns, each with its type, to a table that has no fields. -/
def TypesColumns (b : Store) (t : TableId) (o : TableOutline) (columns : List DeclaredColumn)
    (step : Probe α) (σ : Session) : Prop :=
  ∃ a σ' fields, outcome step σ = (.ok a, σ') ∧ Drafts b t { o with fields } σ'.store ∧
    List.Forall₂ HasType columns fields

/-- The field of a column has its name, and no type if the declared type is nameless. -/
def TakesType (x : DeclaredColumn) (f : FieldSpec) : Prop :=
  f.name = .text x.name ∧ ∃ type, f.dataType = .text type ∧
    (trim x.declared ≠ "" → (type = "" ↔ Nameless x.declared))

/-- The declared types decide what comes of the step: it succeeds exactly if all of them are
readable, and adds the columns with their types exactly if none is misread. -/
structure DecidedByTypes (b : Store) (t : TableId) (o : TableOutline)
    (columns : List DeclaredColumn) (step : Probe α) (σ : Session) : Prop where
  succeeds : (∃ a σ', outcome step σ = (.ok a, σ')) ↔ ∀ x ∈ columns, ¬ Unreadable x.declared
  types : TypesColumns b t o columns step σ ↔ ∀ x ∈ columns, ¬ Misread x.declared

/-- A step that gives something only if all declared types are readable, and then has the columns
take them. -/
theorem decidedByTypes_of_takes {step : Probe α} {σ : Session}
    (hread : ∀ a σ', outcome step σ = (.ok a, σ') → ∀ x ∈ columns, ¬ Unreadable x.declared)
    (hadd : (∀ x ∈ columns, ¬ Unreadable x.declared) → ∃ a σ' fields,
      outcome step σ = (.ok a, σ') ∧ Drafts b t { o with fields } σ'.store ∧
        List.Forall₂ TakesType columns fields) :
    DecidedByTypes b t o columns step σ := by
  refine ⟨⟨fun ⟨a, σ', ho⟩ => hread a σ' ho, fun h => ?_⟩, ?_⟩
  · obtain ⟨a, σ', -, ho, -⟩ := hadd h
    exact ⟨a, σ', ho⟩
  constructor
  · rintro ⟨a, σ', fields, ho, hdraft, hfields⟩
    obtain ⟨a', σ₁, fields', ho', hdraft', hfields'⟩ := hadd (hread a σ' ho)
    rw [ho] at ho'
    cases ho'
    -- It is the same run, so the fields that have types are those that take them.
    have hsame : fields = fields' := by
      have houtline := hdraft.outline.symm.trans hdraft'.outline
      injection houtline
    subst hsame
    have hnot : List.Forall₂ (fun x f => ¬ Nameless x.declared ∧ HasType x f) columns fields := by
      refine List.Forall₂.mp ?_ hfields hfields'
      rintro x f hhas ⟨-, type', htype', hiff⟩
      refine ⟨fun hmis => ?_, hhas⟩
      obtain ⟨-, type, htype, hne⟩ := hhas
      have hdeclared := Misread.trim_ne_empty (.inr hmis)
      have htypes : type = type' := by
        rw [htype] at htype'
        exact Value.text.inj htype'
      exact hne hdeclared (htypes ▸ (hiff hdeclared).mpr hmis)
    rintro x hx (hmis | hmis)
    · exact hread a σ' ho x hx hmis
    · exact ((List.forall₂_and_left _ _).mp hnot).1 x hx hmis
  · intro h
    obtain ⟨a, σ', fields, ho, hdraft, hfields⟩ := hadd fun x hx hbad => h x hx (.inl hbad)
    refine ⟨a, σ', fields, ho, hdraft, ?_⟩
    refine ((List.forall₂_and_left _ _).mpr ⟨h, hfields⟩).imp ?_
    rintro x f ⟨hmis, hname, type, htype, hiff⟩
    exact ⟨hname, type, htype, fun hs ht => hmis (.inr ((hiff hs).mp ht))⟩

/-- What is read of the columns of a table, each told by a row. -/
theorem exists_reports {ρ : Type} {S : Row → DeclaredColumn → Prop} {T : Row → ρ → Prop}
    {U : DeclaredColumn → ρ → Prop} {rows : List Row} (h : List.Forall₂ S rows columns)
    (hreport : ∀ row, ∀ x ∈ columns, S row x → ∃ r, T row r ∧ U x r) :
    ∃ reports, List.Forall₂ T rows reports ∧ List.Forall₂ U columns reports := by
  induction h with
  | nil => exact ⟨[], .nil, .nil⟩
  | @cons row x rows columns hrow _ ih =>
    obtain ⟨r, hT, hU⟩ := hreport row x List.mem_cons_self hrow
    obtain ⟨reports, hTs, hUs⟩ := ih fun row y hy => hreport row y (List.mem_cons_of_mem _ hy)
    exact ⟨r :: reports, .cons hT hTs, .cons hU hUs⟩

/-- Reports of the columns have their names. -/
theorem map_name_eq {ρ : Type} {name : ρ → String} {reports : List ρ}
    (h : List.Forall₂ (fun x r => name r = x.name) columns reports) :
    reports.map name = columns.map (·.name) := by
  induction h with
  | nil => rfl
  | cons hname _ ih => rw [List.map_cons, List.map_cons, hname, ih]

/-! ### Steps that may fail -/

/-- Whatever the step gives, wherever it starts, `Q` holds of it. -/
def Grants (step : Probe α) (Q : α → Prop) : Prop :=
  ∀ σ a σ', outcome step σ = (.ok a, σ') → Q a

namespace Grants

variable {β : Type} {step : Probe α} {f : α → Probe β} {Q : α → Prop} {R : β → Prop}

theorem bind (h : Grants step Q) (hf : ∀ a, Q a → Grants (f a) R) : Grants (step >>= f) R := by
  intro σ a σ' ho
  rw [outcome_bind] at ho
  rcases hs : outcome step σ with ⟨e | a', σ₁⟩ <;> rw [hs] at ho
  · cases ho
  · exact hf a' (h σ a' σ₁ hs) σ₁ a σ' ho

theorem mono {Q' : α → Prop} (h : Grants step Q) (hQ : ∀ a, Q a → Q' a) : Grants step Q' :=
  fun σ a σ' ho => hQ a (h σ a σ' ho)

/-- What a step gives does not matter for what follows. -/
theorem after (hf : ∀ a, Grants (f a) R) : Grants (step >>= f) R :=
  bind (Q := fun _ => True) (fun _ _ _ _ => trivial) fun a _ => hf a

theorem of_pureStep (r : Except Fault α) : Grants (pureStep r) fun a => r = .ok a := by
  intro σ a σ' ho
  cases r with
  | ok a' =>
    cases ho
    rfl
  | error f => cases ho

/-- A declared type that is taken apart is readable. -/
theorem splitType_bind {s : String} {g : String × List Int → Probe β}
    (hg : ∀ p, ¬ Unreadable s → Grants (g p) R) :
    Grants (pureStep (splitType (.text s)) >>= g) R :=
  (of_pureStep _).bind fun p hp => hg p (not_unreadable_of_splitType hp)

end Grants

namespace Pragmas

/-- The row of a column has its name and its declared type. -/
def DeclaresColumn (row : Row) (x : DeclaredColumn) : Prop :=
  ∃ notNull default, ∃ position : Nat, row.Shows [("name", .text x.name),
    ("type", .text x.declared), ("notnull", notNull), ("dflt_value", default),
    ("pk", .int position)]

/-- Columns that are read have readable types. -/
theorem grants_addColumns {rows : List Row} (h : List.Forall₂ DeclaresColumn rows columns) :
    Grants (addColumns t rows) fun _ => ∀ x ∈ columns, ¬ Unreadable x.declared := by
  induction h with
  | nil => exact fun _ _ _ _ x hx => absurd hx List.not_mem_nil
  | @cons row x rows columns hrow _ ih =>
    obtain ⟨notNull, default, position, hshows⟩ := hrow
    have htype : row.item "type" = .ok (.text x.declared) := hshows.item (by simp)
    rw [addColumns]
    refine .bind (.of_pureStep _) fun v hv => ?_
    rw [htype] at hv
    cases hv
    refine .splitType_bind fun p hp => ?_
    refine .after fun _ => .after fun _ => .after fun _ => .after fun _ => .after fun _ => ?_
    exact .bind ih fun keys hkeys => fun _ _ _ _ => List.forall_mem_cons.mpr ⟨hp, hkeys⟩

/-- Columns with readable types are added with the types that they take. -/
theorem exists_addColumns {rows : List Row} (h : List.Forall₂ DeclaresColumn rows columns)
    (hn : Normalised (columns.map (·.name))) (hd : (columns.map (·.name)).Nodup)
    (hread : ∀ x ∈ columns, ¬ Unreadable x.declared) {σ : Session}
    (hσ : Drafts b t { o with fields := [] } σ.store) :
    ∃ keys σ' fields, outcome (addColumns t rows) σ = (.ok keys, σ') ∧
      Drafts b t { o with fields } σ'.store ∧ List.Forall₂ TakesType columns fields := by
  have hreport (row : Row) : ∀ x ∈ columns, DeclaresColumn row x → ∃ r, TellsColumn row r ∧
      r.name = x.name ∧ TakesType x (r.spec false) := by
    rintro x hx ⟨notNull, default, position, hshows⟩
    obtain ⟨dataType, size, htyped, htype⟩ := exists_splitType (hread x hx)
    refine ⟨⟨x.name, .text x.declared, dataType, size, htyped, notNull, default, position⟩, hshows,
      rfl, rfl, _, rfl, fun hs => ?_⟩
    obtain ⟨hne, hiff⟩ := htype hs
    rw [ColumnReport.fieldType, if_neg hne, hiff]
  obtain ⟨reports, hrows, hreports⟩ := exists_reports h hreport
  have hnames : reports.map (·.name) = columns.map (·.name) :=
    map_name_eq (hreports.imp fun _ _ h => h.1)
  have hdraws := draws_addColumns (I := fun _ => True) (b := b) (t := t) (o := o) hrows []
    (by simpa [hnames] using hn) (by simpa [hnames] using hd)
  obtain ⟨keys, σ', ho, ⟨-, hdraft⟩, -⟩ := Ensures.exists_ok hdraws ⟨by simpa using hσ, trivial⟩
  refine ⟨keys, σ', reports.map (·.spec false), ho, by simpa using hdraft, ?_⟩
  rw [List.forall₂_map_right_iff]
  exact hreports.imp fun _ _ h => h.2

end Pragmas

namespace Catalog

/-- A type in upper case is blank exactly if it is. -/
theorem trim_upper_eq_empty_iff {s : String} : trim (upper s) = "" ↔ trim s = "" := by
  have hall := all_isBlank_upperChars s.toList
  rw [Bool.eq_iff_iff, List.all_eq_true, List.all_eq_true] at hall
  rw [trim_eq_empty_iff, trim_eq_empty_iff, upper, String.toList_ofList, hall]

/-- The row of a column has its name and its declared type. -/
def DeclaresColumn (row : Row) (x : DeclaredColumn) : Prop :=
  Has row [("column_name", .text x.name), ("data_type", .text x.declared)]

/-- Columns that are read have readable types. -/
theorem grants_addColumns {rows : List Row} (h : List.Forall₂ DeclaresColumn rows columns) :
    Grants (rows.forM (addColumn t)) fun _ => ∀ x ∈ columns, ¬ Unreadable x.declared := by
  induction h with
  | nil => exact fun _ _ _ _ x hx => absurd hx List.not_mem_nil
  | @cons row x rows columns hrow _ ih =>
    have htype : column row "data_type" = .text x.declared := hrow.column (by simp)
    have hadd : Grants (addColumn t row) fun _ => ¬ Unreadable x.declared := by
      unfold addColumn
      rw [htype]
      exact .splitType_bind fun p hp => fun _ _ _ _ => hp
    exact .bind hadd fun _ hx => ih.mono fun _ hcolumns => List.forall_mem_cons.mpr ⟨hx, hcolumns⟩

/-- Columns with readable types are added with the types that they take. -/
theorem exists_addColumns {rows : List Row} (h : List.Forall₂ DeclaresColumn rows columns)
    (hn : Normalised (columns.map (·.name))) (hd : (columns.map (·.name)).Nodup)
    (hread : ∀ x ∈ columns, ¬ Unreadable x.declared) {σ : Session}
    (hσ : Drafts b t { o with fields := [] } σ.store) :
    ∃ a σ' fields, outcome (rows.forM (addColumn t)) σ = (.ok a, σ') ∧
      Drafts b t { o with fields } σ'.store ∧ List.Forall₂ TakesType columns fields := by
  have hreport (row : Row) : ∀ x ∈ columns, DeclaresColumn row x → ∃ r, TellsColumn row r ∧
      r.name = x.name ∧ TakesType x r.spec := by
    intro x hx hrow
    obtain ⟨dataType, size, htyped, htype⟩ := exists_splitType (hread x hx)
    refine ⟨⟨x.name, .text x.declared, dataType, size, htyped,
      !((row.find "is_nullable").getD .null).same (.text "NO"),
      (row.find "column_default").getD .null, (row.find "comment").getD .null⟩, ⟨?_, ?_⟩,
      rfl, rfl, _, rfl, fun hs => ?_⟩
    · have hname := hrow ("column_name", _) List.mem_cons_self
      have hdeclared := hrow ("data_type", _) (List.mem_cons_of_mem _ List.mem_cons_self)
      simp [Has, hname, hdeclared]
    · rw [Bool.not_not]
    · rw [trim_upper_eq_empty_iff, (htype hs).2]
  obtain ⟨reports, hrows, hreports⟩ := exists_reports h hreport
  have hnames : reports.map (·.name) = columns.map (·.name) :=
    map_name_eq (hreports.imp fun _ _ h => h.1)
  have hsound : TableReport.Sound ⟨"", [], reports, [], [], []⟩ :=
    { columns := hnames ▸ hd
      normalised := hnames ▸ hn
      key := List.nil_subset _
      clustering := fun _ hx => absurd hx (by simp [TableReport.own]) }
  have hdraws := draws_addColumns (I := fun _ => True) (b := b) (t := t) (o := o) hsound hrows
  obtain ⟨a, σ', ho, hdraft, -⟩ := Ensures.exists_ok hdraws ⟨hσ, trivial⟩
  refine ⟨a, σ', reports.map (·.spec), ho, hdraft, ?_⟩
  rw [List.forall₂_map_right_iff]
  exact hreports.imp fun _ _ h => h.2

end Catalog

/-- **Columns are added with their types exactly if no declared type is misread**, from both kinds
of database, and one that is unreadable stops the reading.  Every other text that is not blank is
taken apart into a type that is not blank. -/
theorem decidedByTypes_addColumns (s : String) (b : Store) (t : TableId) (o : TableOutline)
    (columns : List DeclaredColumn) (σ : Session) :
    ((∃ type sizes, splitType (.text s) = .ok (type, sizes) ∧ (trim s ≠ "" → trim type ≠ "")) ↔
        ¬ Misread s) ∧
      (Normalised (columns.map (·.name)) → (columns.map (·.name)).Nodup →
        Drafts b t { o with fields := [] } σ.store →
        (∀ rows, List.Forall₂ Pragmas.DeclaresColumn rows columns →
          DecidedByTypes b t o columns (Pragmas.addColumns t rows) σ) ∧
        ∀ rows, List.Forall₂ Catalog.DeclaresColumn rows columns →
          DecidedByTypes b t o columns (rows.forM (Catalog.addColumn t)) σ) := by
  refine ⟨exists_type_iff, fun hn hd hσ => ⟨fun rows h => ?_, fun rows h => ?_⟩⟩
  · exact decidedByTypes_of_takes (Pragmas.grants_addColumns h σ)
      fun hread => Pragmas.exists_addColumns h hn hd hread hσ
  · exact decidedByTypes_of_takes (Catalog.grants_addColumns h σ)
      fun hread => Catalog.exists_addColumns h hn hd hread hσ

/-- The columns of a table of prices, the last of them without a type. -/
def priceColumns : List DeclaredColumn :=
  [⟨"id", "integer"⟩, ⟨"amount", " DECIMAL( 10, 2)\nUNSIGNED"⟩, ⟨"note", ""⟩]

/-- A column whose declared type has two numbers and no comma between them. -/
def rateColumn : DeclaredColumn := ⟨"rate", "DECIMAL(1 2)"⟩

/-- The row of a column in the pragma about its table. -/
def Pragmas.declaredRow (x : DeclaredColumn) : Row :=
  .ofCells [("name", .text x.name), ("type", .text x.declared), ("notnull", .int 0),
    ("dflt_value", .null), ("pk", .int (0 : Nat))]

/-- The row of a column in the columns view of a catalog. -/
def Catalog.declaredRow (x : DeclaredColumn) : Row :=
  rowOf .mapping [("column_name", .text x.name), ("data_type", .text x.declared)]

theorem splitText_rateColumn :
    splitText rateColumn.declared = .error (.badInteger (.text "1 2")) := rfl

theorem unreadable_rateColumn : Unreadable rateColumn.declared := by
  by_contra h
  obtain ⟨p, hp⟩ := splitText_isOk_iff.mpr h
  rw [splitText_rateColumn] at hp
  cases hp

theorem not_misread_priceColumns : ∀ x ∈ priceColumns, ¬ Misread x.declared := by
  simp only [priceColumns, List.forall_mem_cons, List.not_mem_nil, false_imp_iff, implies_true,
    and_true, ← exists_type_iff]
  exact ⟨⟨"integer", [], rfl, fun _ => by decide⟩,
    ⟨"DECIMAL UNSIGNED", [10, 2], rfl, fun _ => by decide⟩,
    ⟨"", [], rfl, fun h => absurd trimmed_empty h⟩⟩

/-- Read into an empty table, the prices get their types; with the rate among them nothing is
read. -/
theorem decidedByTypes_addColumns_prices :
    ∃ b t o σ, (∀ columns ∈ [priceColumns, [rateColumn]],
        Normalised (columns.map (·.name)) ∧ (columns.map (·.name)).Nodup) ∧
      Drafts b t { o with fields := [] } σ.store ∧
      List.Forall₂ Pragmas.DeclaresColumn (priceColumns.map Pragmas.declaredRow) priceColumns ∧
      TypesColumns b t o priceColumns
        (Pragmas.addColumns t (priceColumns.map Pragmas.declaredRow)) σ ∧
      List.Forall₂ Catalog.DeclaresColumn (priceColumns.map Catalog.declaredRow) priceColumns ∧
      TypesColumns b t o priceColumns
        ((priceColumns.map Catalog.declaredRow).forM (Catalog.addColumn t)) σ ∧
      ¬ ∃ keys σ', outcome (Pragmas.addColumns t [Pragmas.declaredRow rateColumn]) σ =
        (.ok keys, σ') := by
  obtain ⟨t, st, -, hdraft⟩ := drafts_newTable_text (Store.Extends.refl {}) "prices"
  have hpragma (columns : List DeclaredColumn) :
      List.Forall₂ Pragmas.DeclaresColumn (columns.map Pragmas.declaredRow) columns :=
    forall₂_map_row (fun x => ⟨_, _, _, Row.shows_ofCells (by simp)⟩) columns
  have hdeclares (x : DeclaredColumn) : Catalog.DeclaresColumn (Catalog.declaredRow x) x :=
    Catalog.has_rowOf .mapping (by simp)
  have hcatalog := forall₂_map_row hdeclares priceColumns
  have hnames : ∀ columns ∈ [priceColumns, [rateColumn]],
      Normalised (columns.map (·.name)) ∧ (columns.map (·.name)).Nodup := by
    simp only [priceColumns, rateColumn, Normalised, Trimmed, List.forall_mem_cons]
    decide +kernel
  have hprices := hnames priceColumns List.mem_cons_self
  have hrate := hnames [rateColumn] (List.mem_cons_of_mem _ List.mem_cons_self)
  obtain ⟨-, hdecided⟩ := decidedByTypes_addColumns "" {} t { name := .text "prices" } priceColumns
    { store := st }
  obtain ⟨hread, hlist⟩ := hdecided hprices.1 hprices.2 hdraft
  obtain ⟨-, hdecided'⟩ := decidedByTypes_addColumns "" {} t { name := .text "prices" }
    [rateColumn] { store := st }
  have hstop := (hdecided' hrate.1 hrate.2 hdraft).1 _ (hpragma [rateColumn])
  refine ⟨{}, t, { name := .text "prices" }, { store := st }, hnames, hdraft, hpragma _,
    (hread _ (hpragma _)).types.mpr not_misread_priceColumns, hcatalog,
    (hlist _ hcatalog).types.mpr not_misread_priceColumns, fun h => ?_⟩
  exact hstop.succeeds.mp h rateColumn List.mem_cons_self unreadable_rateColumn

/-- A declared type may stop the reading, and it may be read as a blank type. -/
theorem not_typed_rateColumn :
    splitType (.text "DECIMAL(1 2)") = .error (.badInteger (.text "1 2")) ∧
      splitType (.text " (5)") = .ok (" ", [5]) ∧
      ¬ ∀ s, ∃ type sizes, splitType (.text s) = .ok (type, sizes) ∧
        (trim s ≠ "" → trim type ≠ "") := by
  have hread : splitType (.text "DECIMAL(1 2)") = .error (.badInteger (.text "1 2")) := rfl
  refine ⟨hread, rfl, fun h => ?_⟩
  obtain ⟨type, sizes, hok, -⟩ := h "DECIMAL(1 2)"
  rw [hread] at hok
  cases hok

end DbSchema.Source
