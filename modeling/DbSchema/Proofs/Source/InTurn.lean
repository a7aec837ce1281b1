import DbSchema.Proofs.Model.Outline
import DbSchema.Proofs.Source.Reading
import DbSchema.Source.Pull

/-!
# Reading tables one after the other

A reader lists the names of the tables and reads them in this order; some of them it may pass over.
A table that is read later leaves alone those that were read before it.

## Main definitions

* `Making b t name st` — the table `t`, which is being built beside `b`, has the name.
* `NewTables b tables` — the tables are new beside `b`, each of them listed once.
* `ReadInTurn c r σ found σ'` — tables are read in turn between two states.
* `ReadsAll c options σ vendor found σ'` — so are all tables of a database.

## Main results

* `reads_making` — reading a table makes a new one with the name.
* `readAll_ok` — a successful reading of all tables reads them in turn.
* `ReadsAll.tables` — what is known of every table after its reading is known in the end.
* `keeps_readAll` — reading all tables keeps to a watch, whether it succeeds or not.
-/

namespace DbSchema.Source

open Probe

variable {c : Connection} {w : Watch c} {b : Store} {t : TableId} {name : Value} {r : Reader}

/-! ### Tables with names -/

/-- The table `t`, which is being built beside `b`, has the name, or an empty one instead of
everything that counts as false. -/
structure Making (b : Store) (t : TableId) (name : Value) (st : Store) : Prop
    extends Building b t st where
  name : (st.table t).name = if name.truthy then name else .text ""

/-- An operation that goes on building a table and leaves registries alone keeps its name. -/
theorem stays_making {α : Type} {e : Edit α} (hw : ∀ st, b.Extends st → w.store st)
    (h : ∀ st, Building b t st → Building b t (outcome e st).2) (hl : Edit.LeavesRegistries e) :
    w.Stays (Making b t name) e := by
  rintro st ⟨-, hst⟩
  have hbuild := h st hst.toBuilding
  have hname := (hl.sameRegistries st).tableName t
  rcases ho : outcome e st with ⟨x | a, st'⟩ <;> rw [ho] at hbuild hname
  · exact hw _ hbuild.old
  · exact ⟨hw _ hbuild.old, hbuild, hname.trans hst.name⟩

theorem filling_making (hw : ∀ st, b.Extends st → w.store st) :
    Filling w b t (Making b t name) where
  building h := h.toBuilding
  addField params :=
    stays_making hw (fun _ h => h.addField params) (Edit.leaves_addField t _ params)
  addIndex params :=
    stays_making hw (fun _ h => h.addIndex params) (Edit.leaves_addIndex t _ params)
  addConstraint params :=
    stays_making hw (fun _ h => h.addConstraint params) (Edit.leaves_addConstraint t _ params)
  addOptions values :=
    stays_making hw (fun _ h => h.addOptions values) (Edit.leaves_addOptions t values)
  extend hk names _ :=
    stays_making hw (Ensures.iff_outcome.mp (Building.extendFields hk names))
      (Edit.leaves_extendFields _ fun _ => .pure fun _ h => h)
  rename hk _ _ := stays_making hw (fun _ h => h.setConstraint hk _) fun _ _ h =>
    h.setConstraint _ _
  countUp hi := stays_making hw (fun _ h => h.setField hi _) fun _ _ h => h.setField _ _

/-- Reading a table makes a new one with the name. -/
theorem reads_making (hw : ∀ st, b.Extends st → w.store st) (name : Value) :
    Reads w b name fun t => Making b t name where
  make := by
    rintro st ⟨-, hst⟩
    obtain ⟨t, st', ho, hbuild⟩ := building_newTable hst name
    have hname := ho
    rw [Edit.outcome_newTable_alone] at hname
    rw [ho]
    refine ⟨hw _ hbuild.old, hbuild, ?_⟩
    cases hname
    rw [Store.table_setTable_self]
  fill _ := filling_making hw

/-! ### Names of tables -/

/-- The names of the tables are names that are taken as they are; one that is missing is null. -/
theorem gives_tableNames {P : Store → Prop} (r : Reader) :
    Gives w P (r.tableNames c) fun names => ∀ name ∈ names, w.name name ∨ name = .null := by
  have hitems : ∀ {sql column : String} {rows : List Row}, NameColumn sql column →
      NamesIn w.name sql rows → Gives w P (rows.mapM fun row => pureStep (row.item column))
        fun names => ∀ name ∈ names, w.name name ∨ name = .null := by
    intro sql column rows hcolumn hrows
    refine (Gives.mapM rows fun row _ => gives_pureStep (row.item column)).weaken (fun _ h => h)
      (fun names σ h => ⟨h.1, fun name hname => ?_⟩) fun _ _ h => h
    obtain ⟨row, hrow, hitem⟩ := exists_of_forall₂ h.2.flip hname
    exact Or.inl (hrows row hrow column name hcolumn (find_of_item hitem))
  cases r with
  | pragmas => exact (gives_fetchAll _ _).bind fun rows hrows => hitems .pragmas hrows
  | views d schema =>
    refine (StandardViews.keeps_schemaName d schema).gives_bind fun _ => ?_
    exact (gives_fetchAll _ _).bind fun rows hrows => hitems .views hrows
  | catalog p =>
    refine (gives_fetchAll _ _).bind fun rows hrows => .pure fun name hname => ?_
    obtain ⟨row, hrow, rfl⟩ := List.mem_map.mp hname
    rw [Catalog.column_eq]
    rcases hfind : row.find "table_name" with _ | v
    · exact Or.inr rfl
    · exact Or.inl (hrows row hrow _ v (.catalog p) hfind)

/-! ### Tables in turn -/

/-- The tables are new ones beside the store `b`, in the order in which they were made. -/
def NewTables (b : Store) (tables : List TableId) : Prop :=
  tables.Pairwise (fun t u => t.index < u.index) ∧ ∀ t ∈ tables, b.tables.size ≤ t.index

theorem NewTables.nodup {tables : List TableId} (h : NewTables b tables) : tables.Nodup :=
  List.Pairwise.imp (R := fun t u : TableId => t.index < u.index)
    (fun hlt he => Nat.ne_of_lt hlt (congrArg TableId.index he)) h.1

/-- The tables that are made after a new one are new beside the same store. -/
theorem NewTables.cons {st : Store} {tables : List TableId} (ht : Building b t st)
    (h : NewTables st tables) : NewTables b (t :: tables) := by
  have hlater : ∀ u ∈ tables, t.index < u.index := fun u hu =>
    Nat.lt_of_lt_of_le ht.inUse (h.2 u hu)
  refine ⟨List.pairwise_cons.mpr ⟨hlater, h.1⟩, fun u hu => ?_⟩
  rcases List.mem_cons.mp hu with rfl | hu
  · exact ht.new
  · exact ht.new.trans (Nat.le_of_lt (hlater u hu))

/-- Tables that are new beside a store are new beside one that it grew from. -/
theorem NewTables.of_extends {st : Store} {tables : List TableId} (hext : b.Extends st)
    (h : NewTables st tables) : NewTables b tables :=
  ⟨h.1, fun u hu => hext.tables.size_le.trans (h.2 u hu)⟩

/-- Tables with the names are read one after the other, and only the log is written in between.  A
table that is passed over is none. -/
inductive ReadInTurn (c : Connection) (r : Reader) :
    Session → List (Value × Option TableId) → Session → Prop
  | nil {σ : Session} : ReadInTurn c r σ [] σ
  | cons {name : Value} {found : Option TableId} {rest : List (Value × Option TableId)}
      {σ σ₁ σ' : Session} (log : List (Level × String))
      (step : outcome (r.readTable c name) σ = (.ok found, σ₁))
      (next : ReadInTurn c r { σ₁ with log } rest σ') :
      ReadInTurn c r σ ((name, found) :: rest) σ'

/-- A successful reading of tables with some names reads them in turn, and gives those that are not
passed over. -/
theorem readEach_ok {names : List Value} {σ σ' : Session} {tables : List TableId}
    (h : outcome (r.readEach c names) σ = (.ok tables, σ')) :
    ∃ found, ReadInTurn c r σ found σ' ∧ names = found.map (·.1) ∧
      tables = found.filterMap (·.2) := by
  induction names generalizing σ tables with
  | nil =>
    cases h
    exact ⟨[], .nil, rfl, rfl⟩
  | cons name rest ih =>
    rw [Reader.readEach, outcome_bind] at h
    rcases ho : outcome (r.readTable c name) σ with ⟨e | _ | t, σ₁⟩ <;> rw [ho] at h
    · cases h
    · dsimp only at h
      obtain ⟨found, hread, rfl, rfl⟩ := ih (σ := { σ₁ with log := _ }) (outcome_of_plain h)
      exact ⟨(name, none) :: found, .cons _ ho hread, rfl, rfl⟩
    · dsimp only at h
      rw [outcome_get_bind] at h
      replace h := outcome_of_plain h
      -- what is told of the table is written to the log alone
      change outcome (r.readEach c rest >>= fun l => pure (t :: l)) { σ₁ with log := _ } = _ at h
      rw [outcome_bind] at h
      rcases hrest : outcome (r.readEach c rest) { σ₁ with log := _ } with ⟨e | l, σ₂⟩ <;>
        rw [hrest] at h <;> cases h
      obtain ⟨found, hread, rfl, rfl⟩ := ih hrest
      exact ⟨(name, some t) :: found, .cons _ ho hread, rfl, rfl⟩

/-- **What is known of every table after its reading is known in the end.**  All that was there
before the first table is as it was, and the tables are new. -/
theorem ReadInTurn.tables {P : Store → Value → TableId → Store → Prop}
    {Q : Value → TableId → Store → Prop} {found : List (Value × Option TableId)} {σ σ' : Session}
    (h : ReadInTurn c r σ found σ')
    (hread : ∀ e ∈ found, ∀ b, w.store b → Reads w b e.1 (P b e.1))
    (hlast : ∀ {b name t st st'}, P b name t st → st.Extends st' → Q name t st')
    (hσ : w.Sees σ) :
    w.Sees σ' ∧ σ.store.Extends σ'.store ∧ NewTables σ.store (found.filterMap (·.2)) ∧
      ∀ e ∈ found, ∀ t, e.2 = some t → Q e.1 t σ'.store := by
  induction h with
  | nil => exact ⟨hσ, .refl _, ⟨.nil, by simp⟩, by simp⟩
  | @cons name found rest σ σ₁ σ' log step next ih =>
    have hfirst := hread (name, found) List.mem_cons_self σ.store hσ.store
    have htable := concludes_readTable hfirst r σ (hσ.mono fun _ => .refl _)
    rw [step] at htable
    obtain ⟨hold, hfound⟩ := htable.known
    obtain ⟨hsees, hext, hnew, hall⟩ :=
      ih (fun e he => hread e (List.mem_cons_of_mem _ he)) ⟨htable.store, trivial, htable.past⟩
    rcases found with _ | t
    · refine ⟨hsees, hold.trans hext, hnew.of_extends hold, fun e he u hu => ?_⟩
      rcases List.mem_cons.mp he with rfl | he
      · cases hu
      · exact hall e he u hu
    · -- the rest is read beside the store that holds the table, so all of it comes later
      have hbuild := (hfirst.fill t).building (hfound t rfl)
      refine ⟨hsees, hold.trans hext, hnew.cons hbuild, fun e he u hu => ?_⟩
      rcases List.mem_cons.mp he with rfl | he
      · cases hu
        exact hlast (hfound t rfl) hext
      · exact hall e he u hu

/-- Reading tables one after the other keeps to a watch. -/
theorem keeps_readEach {P : Value → TableId → Store → Prop} {names : List Value}
    (hread : ∀ name ∈ names, Reads w b name (P name)) :
    Keeps w b.Extends (r.readEach c names) := by
  induction names with
  | nil => exact .pure []
  | cons name rest ih =>
    have hrest := ih fun n hn => hread n (List.mem_cons_of_mem name hn)
    have hfirst : Keeps w b.Extends (r.readTable c name) :=
      (concludes_readTable (hread name List.mem_cons_self) r).weaken (fun _ h => h)
        (fun _ _ h => h.mono And.left) fun _ _ h => h
    refine hfirst.bind fun found => ?_
    cases found with
    | none => exact (keeps_plain _).bind fun _ => (keeps_tell _ _).bind fun _ => hrest
    | some t =>
      refine .get_bind fun σ => (keeps_plain _).bind fun _ => (keeps_tell _ _).bind fun _ => ?_
      exact hrest.bind fun _ => .pure _

/-! ### All tables of a database -/

/-- A successful reading of a database lists the names of the tables and reads them in turn. -/
theorem readTables_ok {vendor : Vendor} {σ σ' : Session} {tables : List TableId}
    (h : outcome (readTables vendor c r) σ = (.ok tables, σ')) :
    ∃ names σ₁ found, outcome (r.tableNames c) σ = (.ok names, σ₁) ∧
      ReadInTurn c r σ₁ found σ' ∧ names = found.map (·.1) ∧ tables = found.filterMap (·.2) := by
  rw [readTables, outcome_bind, outcome_attempt] at h
  dsimp only at h
  rcases ho : outcome (do r.readEach c (← r.tableNames c)) σ with ⟨e | l, σ₂⟩ <;> rw [ho] at h <;>
    cases h
  rw [outcome_bind] at ho
  rcases hn : outcome (r.tableNames c) σ with ⟨e | names, σ₁⟩ <;> rw [hn] at ho
  · cases ho
  · obtain ⟨found, hread, hnames, htables⟩ := readEach_ok ho
    exact ⟨names, σ₁, found, rfl, hread, hnames, htables⟩

/-- An error that ends a reading belongs to a category, so it is no failure of the driver. -/
theorem isForeign_readingError (vendor : Vendor) (shown : Ref → String) (e : SourceError) :
    (readingError vendor shown e).isForeign = false := by
  rw [readingError]
  split
  · rfl
  · next hown => exact Bool.eq_false_iff.mpr hown

theorem driver?_of_not_isForeign {e : SourceError} (h : e.isForeign = false) :
    e.driver? = none := by
  cases e <;> first | rfl | cases h

/-- Listing the tables and reading them keeps to a watch. -/
theorem keeps_readListed {P : Value → TableId → Store → Prop}
    (hread : ∀ name, w.name name ∨ name = .null → Reads w b name (P name)) (r : Reader) :
    Keeps w b.Extends (do r.readEach c (← r.tableNames c)) :=
  (gives_tableNames r).keeps_bind fun _ hnames =>
    keeps_readEach fun name hname => hread name (hnames name hname)

/-- Reading all tables keeps to a steady watch: what the driver fails with is told as another
error. -/
theorem keeps_readTables (hw : w.Steady) {P : Value → TableId → Store → Prop}
    (hread : ∀ name, w.name name ∨ name = .null → Reads w b name (P name)) (vendor : Vendor)
    (r : Reader) : Keeps w b.Extends (readTables vendor c r) := by
  refine concludes_attempt (keeps_readListed hread r) (fun tables => .pure fun _ h => h) fun e =>
    Concludes.get_bind fun _ _ => .throw fun σ h => ?_
  exact (h.sees hw).stops (driver?_of_not_isForeign (isForeign_readingError vendor _ e))

theorem keeps_ofOptions {P : Store → Prop} (vendor : Vendor) (options : Params) :
    Keeps w P (Reader.ofOptions vendor options) := by
  refine .ite (.throw_bind rfl) ?_
  cases vendor with
  | databricks => exact .ite (.throw_bind rfl) (.get_bind fun _ => .pure _)
  | _ => exact .pure _

theorem keeps_vendorOf {P : Store → Prop} (driver : String) :
    Keeps w P (decided (vendorOf driver)) := by
  rw [vendorOf]
  split
  · exact .pure _
  · exact .throw rfl

/-- What is done with a connection before it is closed: all tables are read. -/
def readAll (c : Connection) (options : Params) : Probe (Vendor × List TableId) := do
  if c.driver = "" then throw .unknownDriver
  let vendor ← decided (vendorOf c.driver)
  tell .info ("Introspecting " ++ vendor.label ++ " database")
  let reader ← Reader.ofOptions vendor options
  return (vendor, ← readTables vendor c reader)

theorem readAndClose_eq (c : Connection) (options : Params) :
    readAndClose c options = closing (readAll c options) (discard (request c .close)) := rfl

/-- **Reading all tables keeps to a steady watch**, whether it succeeds or not. -/
theorem keeps_readAll (hw : w.Steady) {P : Value → TableId → Store → Prop}
    (hread : ∀ name, w.name name ∨ name = .null → Reads w b name (P name)) (options : Params) :
    Keeps w b.Extends (readAll c options) := by
  refine .ite (.throw_bind rfl) ((keeps_vendorOf _).bind fun vendor =>
    (keeps_tell _ _).bind fun _ => ?_)
  refine (keeps_ofOptions vendor options).bind fun reader => ?_
  exact (keeps_readTables hw hread vendor reader).bind fun _ => .pure _

/-- Choosing a reader changes nothing. -/
theorem outcome_ofOptions (vendor : Vendor) (options : Params) (σ : Session) :
    (outcome (Reader.ofOptions vendor options) σ).2 = σ := by
  rw [Reader.ofOptions]
  split
  · rfl
  · cases vendor with
    | databricks =>
      dsimp only
      split <;> rfl
    | _ => rfl

/-- All tables of a database are read between two states: the driver of the connection tells the
vendor, the vendor and the options choose the reader, and the tables that it lists are read in
turn. -/
inductive ReadsAll (c : Connection) (options : Params) :
    Session → Vendor → List (Value × Option TableId) → Session → Prop
  | intro {vendor : Vendor} {reader : Reader} {found : List (Value × Option TableId)}
      {σ σ₁ σ' : Session} (log : List (Level × String))
      (driver : vendorOf c.driver = .ok vendor)
      (chosen : outcome (Reader.ofOptions vendor options) { σ with log } =
        (.ok reader, { σ with log }))
      (names : outcome (reader.tableNames c) { σ with log } = (.ok (found.map (·.1)), σ₁))
      (read : ReadInTurn c reader σ₁ found σ') :
      ReadsAll c options σ vendor found σ'

/-- A successful reading of all tables gives those that are not passed over. -/
theorem readAll_ok {options : Params} {σ σ' : Session} {vendor : Vendor} {tables : List TableId}
    (h : outcome (readAll c options) σ = (.ok (vendor, tables), σ')) :
    ∃ found, ReadsAll c options σ vendor found σ' ∧ tables = found.filterMap (·.2) := by
  rw [readAll] at h
  split at h
  · cases h
  dsimp only at h
  rw [outcome_bind] at h
  rcases hv : vendorOf c.driver with e | v <;> rw [hv] at h
  · cases h
  -- what is told first is written to the log alone
  obtain ⟨log, h⟩ : ∃ log, outcome (Reader.ofOptions v options >>= fun reader => do
      return (v, ← readTables v c reader)) { σ with log } = (.ok (vendor, tables), σ') := ⟨_, h⟩
  have hsame := outcome_ofOptions v options { σ with log }
  rw [outcome_bind] at h
  rcases ho : outcome (Reader.ofOptions v options) { σ with log } with ⟨e | reader, σ₀⟩ <;>
    rw [ho] at h hsame
  · cases h
  · obtain rfl : σ₀ = _ := hsame
    dsimp only at h
    rw [outcome_bind] at h
    rcases ht : outcome (readTables v c reader) { σ with log } with ⟨e | l, σ₂⟩ <;>
      rw [ht] at h <;> cases h
    obtain ⟨names, σ₁, found, hnames, hread, rfl, htables⟩ := readTables_ok ht
    exact ⟨found, .intro log hv ho hnames hread, htables⟩

/-- **What is known of every table after its reading** is known when all tables are read. -/
theorem ReadsAll.tables {P : Store → Value → TableId → Store → Prop}
    {Q : Value → TableId → Store → Prop} {options : Params} {vendor : Vendor}
    {found : List (Value × Option TableId)} {σ σ' : Session}
    (h : ReadsAll c options σ vendor found σ')
    (hread : ∀ name, w.name name ∨ name = .null → ∀ b, w.store b → Reads w b name (P b name))
    (hlast : ∀ {b name t st st'}, P b name t st → st.Extends st' → Q name t st')
    (hσ : w.Sees σ) :
    w.Sees σ' ∧ σ.store.Extends σ'.store ∧ NewTables σ.store (found.filterMap (·.2)) ∧
      ∀ e ∈ found, ∀ t, e.2 = some t → Q e.1 t σ'.store := by
  cases h with | @intro _ reader _ _ σ₁ _ log driver chosen hnames hturn
  -- listing the names leaves the store alone
  have hlist := gives_tableNames (w := w) (P := fun st => st = σ.store) reader { σ with log }
    ⟨hσ.store, rfl, hσ.past⟩
  rw [hnames] at hlist
  obtain ⟨hσ₁, hall⟩ := hlist
  have htables := hturn.tables
    (fun e he => hread e.1 (hall _ (List.mem_map_of_mem he))) hlast hσ₁.sees
  rwa [hσ₁.known] at htables

end DbSchema.Source
