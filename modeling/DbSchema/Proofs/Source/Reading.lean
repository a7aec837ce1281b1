import DbSchema.Proofs.Keys
import DbSchema.Proofs.Model.Aside
import DbSchema.Proofs.Model.Building
import DbSchema.Proofs.Source.Steps

/-!
# Reading tables

Every reader makes a new table and fills it with new fields, indices and constraints.  A condition
on the table that is read is kept by all readers, whatever a database answers and wherever the
reading ends, as soon as it is kept by the few operations that they fill it with.

## Main definitions

* `Filling w b t P` — what is done to the table `t` while it is filled beside the store `b` keeps
  `P`.
* `Reads w b name P` — so does reading a table with the name, from its making on.

## Main results

* `Filling.primaryKey` — naming a primary key is made of these operations.
* `Pragmas.readsTable_readTable`, `StandardViews.readsTable_readTable`,
  `Catalog.readsTable_readKnown` — the readers of one table.
* `concludes_readTable` — whichever reader it is, it reads a table or passes it over.
-/

namespace DbSchema.Source

open Probe

variable {c : Connection} {w : Watch c} {b : Store} {t : TableId} {P : Store → Prop}

/-! ### Operations on the table that is read -/

/-- A change of a constraint that gives it a name at most: one that is taken as it is, or an empty
one. -/
def Renames (name : Value → Prop) (f : Constraint → Constraint) : Prop :=
  ∀ x, f x = x ∨ ∃ v, (name v ∨ v = .text "") ∧ f x = { x with name := v }

/-- What is done to the table `t` while it is filled beside the store `b` keeps `P`. -/
structure Filling (w : Watch c) (b : Store) (t : TableId) (P : Store → Prop) : Prop where
  building : ∀ {st}, P st → Building b t st
  addField : ∀ params, w.Stays P (Edit.addField t .null params)
  addIndex : ∀ params, w.Stays P (Edit.addIndex t .null params)
  addConstraint : ∀ params, w.Stays P (Edit.addConstraint t .null params)
  addOptions : ∀ values, w.Stays P (Edit.addOptions t values)
  extend : ∀ {k : ConstraintId}, b.constraints.size ≤ k.index → ∀ {names}, Normalised names →
    w.Stays P (Edit.extendFields k (pure names))
  rename : ∀ {k : ConstraintId}, b.constraints.size ≤ k.index → ∀ {f}, Renames w.name f →
    w.Stays P (Edit.onConstraint k f)
  countUp : ∀ {i : FieldId}, b.fields.size ≤ i.index →
    w.Stays P (Edit.onField i fun x => { x with autoIncrement := .bool true })

theorem field?_of_fieldNamed {st : Store} {name : Value} {i : FieldId}
    (h : fieldNamed st t name = .ok i) : (st.table t).field? name = some i := by
  rw [fieldNamed] at h
  split at h
  · cases h
  · split at h
    · cases h
    · rcases hf : (st.table t).field? name with _ | j <;> rw [hf] at h <;> cases h
      rfl

namespace Filling

variable (h : Filling w b t P)
include h

theorem keeps_addField (params : Params) :
    Keeps w P (discard (edit (Edit.addField t .null params))) :=
  (Keeps.edit (h.addField params)).discard

theorem keeps_addIndex (params : Params) :
    Keeps w P (discard (edit (Edit.addIndex t .null params))) :=
  (Keeps.edit (h.addIndex params)).discard

theorem keeps_addConstraint (params : Params) :
    Keeps w P (discard (edit (Edit.addConstraint t .null params))) :=
  (Keeps.edit (h.addConstraint params)).discard

theorem keeps_addOptions (values : List Value) :
    Keeps w P (discard (edit (Edit.addOptions t values))) :=
  (Keeps.edit (h.addOptions values)).discard

/-- Names are appended to new constraints, whichever of them are primary keys. -/
theorem extendPrimaryKeys {names : List String} (hn : Normalised names) {cs : List ConstraintId}
    (hcs : ∀ k ∈ cs, b.constraints.size ≤ k.index) :
    w.Stays P (Edit.extendPrimaryKeys names cs) := by
  induction cs with
  | nil => exact .pure fun _ h => h
  | cons k r ih =>
    have hr := ih fun d hd => hcs d (List.mem_cons_of_mem k hd)
    have hext := h.extend (hcs k List.mem_cons_self) hn
    refine .get_bind fun st hst => ?_
    split
    · have hrest : w.Stays P (Functor.discard (Edit.extendPrimaryKeys names r)) :=
        Ensures.discard hr
      exact Ensures.bind hext fun _ => Ensures.bind hrest fun _ => .pure fun _ h => h
    · exact hr

omit h in
/-- A question changes nothing. -/
theorem stays_ask {α : Type} (question : Store → Except ModelError α) :
    w.Stays P (Edit.ask question) := by
  intro st hst
  rw [Edit.outcome_ask]
  rcases question st with e | a
  · exact hst.1
  · exact hst

/-- A primary key that is asked for, or made over the given columns, is a new constraint. -/
theorem primaryKey (values : List Value) :
    Ensures (fun st => w.store st ∧ P st) (Edit.primaryKey t values)
      (fun k st => w.store st ∧ P st ∧ b.constraints.size ≤ k.index) w.store := by
  have hlast : Ensures (fun st => w.store st ∧ P st) (Edit.ask fun st => primaryKeyOf st t)
      (fun k st => w.store st ∧ P st ∧ b.constraints.size ≤ k.index) w.store := by
    intro st hst
    rw [Edit.outcome_ask]
    rcases hc : primaryKeyOf st t with e | k
    · exact hst.1
    · exact ⟨hst.1, hst.2, (h.building hst.2).constraint k (Building.mem_of_primaryKeyOf hc)⟩
  have hnames : Ensures (fun st => w.store st ∧ P st) (Edit.names values)
      (fun names st => Normalised names ∧ w.store st ∧ P st) w.store := by
    intro st hst
    rw [Edit.outcome_names]
    rcases hn : splitNames values with r | names
    · exact hst.1
    · exact ⟨normalised_of_splitNames hn, hst⟩
  refine Ensures.bind hnames fun names => .of_and fun hn => ?_
  split
  · refine Ensures.bind (stays_ask _) fun _ => .get_bind fun st hst => ?_
    have hadd : w.Stays P (Functor.discard (Edit.addConstraint t .null
        [("type", .constraintKind .primaryKey), ("fields", .ofTexts names)])) :=
      Ensures.discard (h.addConstraint _)
    refine Ensures.bind (h.extendPrimaryKeys hn (h.building hst.2).constraint) fun found => ?_
    split
    · exact Ensures.bind hadd fun _ => hlast
    · exact hlast
  · exact hlast

/-- A step with the primary key of the table, which is a new constraint. -/
theorem keeps_withPrimaryKey {α : Type} (values : List Value) {f : ConstraintId → Probe α}
    (hf : ∀ k : ConstraintId, b.constraints.size ≤ k.index → Keeps w P (f k)) :
    Keeps w P (edit (Edit.primaryKey t values) >>= f) := by
  refine Concludes.bind (concludes_edit (h.primaryKey values)) fun k σ hσ => ?_
  exact hf k hσ.known.2 σ (hσ.mono And.left)

theorem keeps_primaryKey (values : List Value) :
    Keeps w P (edit (Edit.primaryKey t values)) :=
  (concludes_edit (h.primaryKey values)).weaken (fun _ h => h) (fun _ _ h => h.mono And.left)
    fun _ _ h => h

/-- A step with a field of the table, which is a new one. -/
theorem keeps_withField {α : Type} (name : Value) {f : FieldId → Probe α}
    (hf : ∀ i : FieldId, b.fields.size ≤ i.index → Keeps w P (f i)) :
    Keeps w P (Probe.ask (fieldNamed · t name) >>= f) := by
  have hask : Ensures (fun st => w.store st ∧ P st) (Edit.ask (fieldNamed · t name))
      (fun i st => w.store st ∧ P st ∧ b.fields.size ≤ i.index) w.store := by
    intro st hst
    rw [Edit.outcome_ask]
    rcases hi : fieldNamed st t name with e | i
    · exact hst.1
    · obtain ⟨k, hk, -⟩ := Keyed.mem_of_find? (field?_of_fieldNamed hi)
      exact ⟨hst.1, hst.2, (h.building hst.2).field _ hk⟩
  exact Concludes.bind (concludes_edit hask) fun i σ hσ => hf i hσ.known.2 σ (hσ.mono And.left)

end Filling

/-! ### Names in rows -/

theorem find_of_item {row : Row} {column : String} {v : Value} (h : row.item column = .ok v) :
    row.find column = some v := by
  rw [Row.item] at h
  rcases hfind : row.find column with _ | u <;> rw [hfind] at h <;> split at h <;> cases h
  all_goals rfl

theorem mem_addToGroup {key : Value} {row : Row} {groups : List (Value × List Row)}
    {g : Value × List Row} (hg : g ∈ addToGroup key row groups) :
    g.1 = key ∨ ∃ g' ∈ groups, g'.1 = g.1 := by
  induction groups with
  | nil =>
    rw [List.mem_singleton.mp hg]
    exact Or.inl rfl
  | cons d r ih =>
    rw [addToGroup] at hg
    split at hg <;> rcases List.mem_cons.mp hg with rfl | hg
    · exact Or.inr ⟨d, List.mem_cons_self, rfl⟩
    · exact Or.inr ⟨g, List.mem_cons_of_mem d hg, rfl⟩
    · exact Or.inr ⟨_, List.mem_cons_self, rfl⟩
    · exact (ih hg).imp_right fun ⟨g', hg', he⟩ => ⟨g', List.mem_cons_of_mem d hg', he⟩

/-- The key of a group is the value of the column in one of the rows. -/
theorem exists_of_mem_groupRows {rows : List Row} {column : String}
    {groups : List (Value × List Row)} (h : groupRows rows column = .ok groups)
    {g : Value × List Row} (hg : g ∈ groups) : ∃ row ∈ rows, row.find column = some g.1 := by
  -- the induction is on the rows that are left, with the groups made so far
  have hall : ∀ (rows : List Row) (done : List (Value × List Row)),
      gatherRows column rows done = .ok groups →
      (∃ g' ∈ done, g'.1 = g.1) ∨ ∃ row ∈ rows, row.find column = some g.1 := by
    intro rows
    induction rows with
    | nil =>
      intro done hdone
      cases hdone
      exact Or.inl ⟨g, hg, rfl⟩
    | cons row r ih =>
      intro done hdone
      rw [gatherRows] at hdone
      rcases hkey : row.item column with f | key <;> rw [hkey] at hdone
      · cases hdone
      dsimp only at hdone
      split at hdone
      · rcases ih _ hdone with ⟨g', hg', he⟩ | ⟨row', hr, he⟩
        · rcases mem_addToGroup hg' with hk | ⟨g'', hg'', he'⟩
          · exact Or.inr ⟨row, List.mem_cons_self, by rw [find_of_item hkey, ← hk, he]⟩
          · exact Or.inl ⟨g'', hg'', he'.trans he⟩
        · exact Or.inr ⟨row', List.mem_cons_of_mem row hr, he⟩
      · cases hdone
  rcases hall rows [] h with ⟨g', hg', -⟩ | hrow
  · cases hg'
  · exact hrow

/-! ### Parts of tables -/

namespace Pragmas

theorem keeps_hasAutoincrement (name : Value) : Keeps w P (hasAutoincrement c name) := by
  refine (keeps_fetchAll _ _).bind fun rows => ?_
  split
  · exact .pure _
  · exact (keeps_pureStep _).bind fun sql => (keeps_pureStep _).bind fun text => .pure _

theorem keeps_indexColumns (name : Value) : Keeps w P (indexColumns c name) := by
  refine (keeps_pureStep _).bind fun text => (keeps_fetchAll _ _).bind fun rows => ?_
  exact (keeps_pureStep _).bind fun sorted => .mapM _ fun row _ => keeps_pureStep _

section

variable (h : Filling w b t P)
include h

theorem keeps_addColumns (rows : List Row) : Keeps w P (addColumns t rows) := by
  induction rows with
  | nil => exact .pure _
  | cons row r ih =>
    refine (keeps_pureStep _).bind fun type => ?_
    refine (keeps_pureStep _).bind fun ⟨dataType, size⟩ => ?_
    refine (keeps_pureStep _).bind fun name => (keeps_pureStep _).bind fun notNull => ?_
    refine (keeps_pureStep _).bind fun default => (h.keeps_addField _).bind fun _ => ?_
    refine (keeps_pureStep _).bind fun position => ih.bind fun keys => ?_
    exact .pure _

theorem keeps_addKey (name : Value) (keys : List Value) : Keeps w P (addKey c t name keys) := by
  unfold addKey
  split
  · refine (h.keeps_primaryKey _).discard.bind fun _ => ?_
    split
    · refine h.keeps_withField _ fun i hi => .get_bind fun σ => ?_
      refine (keeps_pureStep _).bind fun type => ?_
      split
      · refine (keeps_hasAutoincrement _).bind fun auto => ?_
        split
        · exact .edit (h.countUp hi)
        · exact .pure _
      · exact .pure _
    · exact .pure _
  · exact .pure _

theorem keeps_addIndexOf (row : Row) : Keeps w P (Pragmas.addIndex c t row) := by
  refine (keeps_pureStep _).bind fun origin => ?_
  dsimp only
  split
  · refine (keeps_pureStep _).bind fun name => (keeps_indexColumns _).bind fun columns => ?_
    split
    · exact (keeps_plain _).bind fun text => keeps_tell _ _
    · split
      · exact h.keeps_addConstraint _
      · exact (keeps_pureStep _).bind fun unique => h.keeps_addIndex _
  · exact .pure _

theorem keeps_addForeignKey (rows : List Row) : Keeps w P (addForeignKey t rows) := by
  refine (keeps_pureStep _).bind fun sorted => ?_
  split
  · exact .pure _
  · refine (Keeps.mapM _ fun row _ => keeps_pureStep _).bind fun fields => ?_
    refine (keeps_pureStep _).bind fun table => ?_
    refine (Keeps.mapM _ fun row _ => keeps_pureStep _).bind fun targets => ?_
    have hget : ∀ r : Except Fault (Option Value),
        Keeps w P (do return orEmpty (← pureStep r) : Probe Value) :=
      fun r => (keeps_pureStep r).bind fun v => .pure _
    refine (hget _).bind fun onUpdate => (hget _).bind fun onDelete => ?_
    exact (hget _).bind fun matching => h.keeps_addConstraint _

end

end Pragmas

namespace StandardViews

theorem keeps_schemaName (d : Dialect) (given : Value) : Keeps w P (schemaName d c given) := by
  unfold schemaName
  split
  · exact .pure _
  · refine .get_bind fun σ => ?_
    split
    · exact .pure _
    · have hlast : ∀ name : Value, Keeps w P (do
          modify fun s => { s with schemaName := some name }
          return name : Probe Value) := fun name =>
        Keeps.bind (.modify fun _ => ⟨rfl, rfl⟩) fun _ => .pure _
      refine (keeps_fetchAll _ _).bind fun rows => ?_
      split
      · exact hlast _
      · exact (keeps_pureStep _).bind fun name => hlast _

theorem gives_rowsAbout (d : Dialect) (given : Value) (statement : String) (t : TableId) :
    Gives w P (rowsAbout d c given statement t) (NamesIn w.name statement) :=
  (keeps_schemaName d given).gives_bind fun _ => Concludes.get_bind fun _ _ => gives_fetchAll _ _

theorem keeps_rowsAbout (d : Dialect) (given : Value) (statement : String) (t : TableId) :
    Keeps w P (rowsAbout d c given statement t) := (gives_rowsAbout d given statement t).keeps

section

variable (h : Filling w b t P)
include h

theorem keeps_addColumn (row : Row) : Keeps w P (addColumn t row) := by
  refine (keeps_pureStep _).bind fun name => (keeps_pureStep _).bind fun dataType => ?_
  refine (keeps_pureStep _).bind fun size => (keeps_pureStep _).bind fun nullable => ?_
  have hdefault : Keeps w P (columnDefault row) := by
    refine (keeps_pureStep _).bind fun v => ?_
    split
    · exact .pure _
    · exact .pure _
    · exact (keeps_plain _).bind fun text => .pure _
  exact hdefault.bind fun default => h.keeps_addField _

theorem keeps_addKey {name : Value} (hname : w.name name) (rows : List Row) :
    Keeps w P (addKey t name rows) := by
  refine (keeps_pureStep _).bind fun columns => ?_
  split
  · exact .pure _
  · refine (keeps_pureStep _).bind fun type => ?_
    split
    · -- a key that has a name keeps it
      refine h.keeps_withPrimaryKey _ fun k hk => .edit (h.rename hk fun x => ?_)
      split
      · exact Or.inl rfl
      · exact Or.inr ⟨name, Or.inl hname, rfl⟩
    · exact h.keeps_addConstraint _

theorem keeps_addForeignKey (name : Value) (rows : List Row) :
    Keeps w P (addForeignKey t name rows) := by
  refine (keeps_pureStep _).bind fun columns => ?_
  dsimp only
  split
  · exact .pure _
  · refine (keeps_pureStep _).bind fun table => (keeps_pureStep _).bind fun onUpdate => ?_
    exact (keeps_pureStep _).bind fun onDelete => h.keeps_addConstraint _

theorem keeps_addCheck (row : Row) : Keeps w P (addCheck t row) := by
  refine (keeps_pureStep _).bind fun name => (keeps_pureStep _).bind fun text => ?_
  split
  · exact (keeps_pureStep _).bind fun expression => h.keeps_addConstraint _
  · exact .pure _

theorem keeps_addIndexOf (d : Dialect) (name : Value) (rows : List Row) :
    Keeps w P (StandardViews.addIndex d t name rows) := by
  unfold StandardViews.addIndex
  split
  · exact .pure _
  · refine (keeps_pureStep _).bind fun kind => (keeps_pureStep _).bind fun columns => ?_
    exact h.keeps_addIndex _

theorem keeps_addOption (key : String) (v : Option Value) : Keeps w P (addOption t key v) := by
  unfold addOption
  split
  · split
    · exact (keeps_plain _).bind fun text => h.keeps_addOptions _
    · exact .pure _
  · exact .pure _

theorem keeps_addOptionsOf (given : Value) : Keeps w P (StandardViews.addOptions c given t) := by
  refine (keeps_rowsAbout _ _ _ _).bind fun rows => ?_
  split
  · exact .pure _
  · refine (keeps_pureStep _).bind fun engine => (keeps_addOption h _ _).bind fun _ => ?_
    exact (keeps_pureStep _).bind fun collation => keeps_addOption h _ _

end

end StandardViews

namespace Catalog

/-- **A column is the same in whatever way the row must be asked.** -/
theorem column_eq (row : Row) (name : String) : column row name = (row.find name).getD .null := by
  rw [column]
  rcases hform : row.form with _ | _ | _ | _ <;> simp only [Row.get, hform]
  · rw [Row.toMapping, hform]
    rfl
  · rw [Row.toMapping, hform, Row.item, hform]
    rcases row.find name with _ | v <;> rfl

section

variable (h : Filling w b t P)
include h

theorem keeps_addColumn (row : Row) : Keeps w P (addColumn t row) :=
  (keeps_pureStep _).bind fun _ => h.keeps_addField _

theorem keeps_addKey {p : Place} {table : String} {rows : List Row}
    (hrows : NamesIn w.name (keyStatement p table) rows) : Keeps w P (addKey t rows) := by
  unfold addKey
  split
  · exact .pure _
  · next first rest =>
    refine h.keeps_withPrimaryKey _ fun k hk => .edit (h.rename hk fun x => Or.inr ⟨_, ?_, rfl⟩)
    -- a name that counts as false is an empty one
    rw [column_eq]
    rcases hfind : first.find "constraint_name" with _ | v
    · exact Or.inr rfl
    · rw [Option.getD_some, orEmpty]
      split
      · exact Or.inl (hrows first List.mem_cons_self _ v (.catalogKey p table) hfind)
      · exact Or.inr rfl

end

end Catalog

/-! ### Readers of one table -/

/-- Reading a table with the name keeps to the watch: the table is made with `P`, and filled with
it. -/
structure Reads (w : Watch c) (b : Store) (name : Value) (P : TableId → Store → Prop) : Prop where
  make : Ensures (fun st => w.store st ∧ b.Extends st) (Edit.newTable { name })
    (fun t st => w.store st ∧ P t st) w.store
  fill : ∀ t, Filling w b t (P t)

/-- The step gives a new table beside the store `b`. -/
def ReadsTable (w : Watch c) (b : Store) (P : TableId → Store → Prop) (step : Probe TableId) :
    Prop :=
  Concludes (w.Holds b.Extends) step (fun t => w.Holds (P t)) w.Stops

section

variable {name : Value} {P : TableId → Store → Prop} (h : Reads w b name P)
include h

/-- A table that is made and then filled. -/
theorem readsTable_newTable {f : TableId → Probe TableId} (hf : ∀ t, Gives w (P t) (f t) (· = t)) :
    ReadsTable w b P (edit (Edit.newTable { name }) >>= f) := by
  refine Concludes.bind (concludes_edit h.make) fun t =>
    (hf t).weaken (fun _ h => h) ?_ fun _ _ h => h
  rintro u σ ⟨hσ, rfl⟩
  exact hσ

theorem Pragmas.readsTable_readTable : ReadsTable w b P (readTable c name) := by
  refine readsTable_newTable h fun t => ?_
  have ht := h.fill t
  refine (keeps_pureStep _).gives_bind fun text => (keeps_fetchAll _ _).gives_bind fun rows => ?_
  refine (keeps_addColumns ht rows).gives_bind fun keys => ?_
  refine (keeps_pureStep _).gives_bind fun sorted => ?_
  refine (keeps_addKey ht name _).gives_bind fun _ => ?_
  refine (keeps_fetchAll _ _).gives_bind fun rows => ?_
  refine (Keeps.forM _ fun row _ => keeps_addIndexOf ht row).gives_bind fun _ => ?_
  refine (keeps_fetchAll _ _).gives_bind fun rows => (keeps_pureStep _).gives_bind fun groups => ?_
  exact (Keeps.forM _ fun g _ => keeps_addForeignKey ht g.2).gives_bind fun _ => .pure rfl

theorem StandardViews.readsTable_readTable (d : Dialect) (given : Value) :
    ReadsTable w b P (readTable d c given name) := by
  refine readsTable_newTable h fun t => ?_
  have ht := h.fill t
  refine (keeps_rowsAbout _ _ _ _).gives_bind fun rows => ?_
  refine (Keeps.forM _ fun row _ => keeps_addColumn ht row).gives_bind fun _ => ?_
  refine (gives_rowsAbout _ _ _ _).bind fun rows hrows => ?_
  refine (gives_pureStep _).bind fun keys hkeys => ?_
  -- the keys of the groups are names of constraints
  have hname : ∀ g ∈ keys, w.name g.1 := fun g hg =>
    have ⟨row, hrow, hfind⟩ := exists_of_mem_groupRows hkeys hg
    hrows row hrow _ _ .viewsKey hfind
  refine (Keeps.forM _ fun g hg => keeps_addKey ht (hname g hg) g.2).gives_bind fun _ => ?_
  refine (keeps_rowsAbout _ _ _ _).gives_bind fun rows => ?_
  refine (keeps_pureStep _).gives_bind fun references => ?_
  refine (Keeps.forM _ fun g _ => keeps_addForeignKey ht g.1 g.2).gives_bind fun _ => ?_
  have hindices : Gives w (P t) (do
      let indices ← pureStep (groupRows (← rowsAbout d c given (indicesStatement d) t) "index_name")
      (indices.filter fun g => !keys.any fun k => k.1.same g.1).forM fun g =>
        StandardViews.addIndex d t g.1 g.2
      if d = .mysql then StandardViews.addOptions c given t
      return t) (· = t) := by
    refine (keeps_rowsAbout _ _ _ _).gives_bind fun rows => ?_
    refine (keeps_pureStep _).gives_bind fun indices => ?_
    refine (Keeps.forM _ fun g _ => keeps_addIndexOf ht d g.1 g.2).gives_bind fun _ => ?_
    exact .ite ((keeps_addOptionsOf ht given).gives_bind fun _ => .pure rfl) (.pure rfl)
  refine .ite ((keeps_rowsAbout _ _ _ _).gives_bind fun rows => ?_) hindices
  exact (Keeps.forM _ fun row _ => keeps_addCheck ht row).gives_bind fun _ => hindices

theorem Catalog.readsTable_readKnown (p : Place) (info : TableInfo) :
    ReadsTable w b P (readKnown c p name info) := by
  refine readsTable_newTable h fun t => Concludes.get_bind fun σ _ => ?_
  have ht := h.fill t
  refine (keeps_plain _).gives_bind fun own => (keeps_fetchAll _ _).gives_bind fun rows => ?_
  refine (Keeps.forM _ fun row _ => keeps_addColumn ht row).gives_bind fun _ => ?_
  refine (gives_fetchAll _ _).bind fun rows hrows => (keeps_addKey ht hrows).gives_bind fun _ => ?_
  refine (keeps_fetchAll _ _).gives_bind fun rows => ?_
  refine (Keeps.forM _ fun row _ => ht.keeps_addConstraint _).gives_bind fun _ => ?_
  refine Concludes.get_bind fun σ _ => (keeps_pureStep _).gives_bind fun clustering => ?_
  have hproperties : Gives w (P t) (do
      let properties ← fetchAll c (propertiesStatement p (← plain name)) none
      Catalog.addOptions t (← properties.mapM propertyOption)
      return t) (· = t) := by
    refine (keeps_plain _).gives_bind fun text => (keeps_fetchAll _ _).gives_bind fun rows => ?_
    refine (Keeps.mapM _ fun row _ => ?_).gives_bind fun options =>
      (ht.keeps_addOptions _).gives_bind fun _ => .pure rfl
    exact (keeps_plain _).bind fun _ => (keeps_plain _).bind fun _ => .pure _
  exact .ite ((ht.keeps_addOptions _).gives_bind fun _ => hproperties) hproperties

/-- A reader gives a new table beside the store, or passes it over. -/
theorem concludes_readTable (r : Reader) :
    Concludes (w.Holds b.Extends) (r.readTable c name)
      (fun found => w.Holds fun st => b.Extends st ∧ ∀ t, found = some t → P t st) w.Stops := by
  -- a table that was read is one that was found
  have hsome : ∀ step : Probe TableId, ReadsTable w b P step →
      Concludes (w.Holds b.Extends) (do return some (← step))
        (fun found => w.Holds fun st => b.Extends st ∧ ∀ t, found = some t → P t st) w.Stops := by
    intro step hstep
    refine Concludes.bind hstep fun t => .pure fun σ hσ => hσ.mono fun hP => ?_
    refine ⟨((h.fill t).building hP).old, fun u hu => ?_⟩
    cases hu
    exact hP
  have hnone : Concludes (w.Holds b.Extends) (pure none : Probe (Option TableId))
      (fun found => w.Holds fun st => b.Extends st ∧ ∀ t, found = some t → P t st) w.Stops :=
    .pure fun σ hσ => hσ.mono fun hold => ⟨hold, fun t ht => by cases ht⟩
  cases r with
  | pragmas => exact hsome _ (Pragmas.readsTable_readTable h)
  | views d schema => exact hsome _ (StandardViews.readsTable_readTable h d schema)
  | catalog p =>
    have hinfo : Keeps w b.Extends (Catalog.tableInfo c p name) :=
      (keeps_plain _).bind fun _ => (keeps_fetchAll _ _).bind fun _ => .pure _
    refine Concludes.bind hinfo fun info => ?_
    cases info with
    | none => exact hnone
    | some info =>
      refine Concludes.bind (keeps_pureStep _) fun delta => ?_
      split
      · exact hsome _ (Catalog.readsTable_readKnown h p info)
      · exact hnone

end

end DbSchema.Source
