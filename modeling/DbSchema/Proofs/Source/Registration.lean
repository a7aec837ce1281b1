import DbSchema.Proofs.Model.History
import DbSchema.Proofs.Source.InTurn

/-!
# What a failed filling leaves

A schema is filled in two halves: all tables are read, and then they are registered.  A failure of
the first half leaves every object as it was.  The second half looks for the names in the schema
before it registers the first table, but not for names that two of the new tables share, nor for
tables without a name; when it meets one of these, the tables before it stay registered.

## Main definitions

* `reading`, `registering` — the two halves.
* `Registrable st tables` — the tables have names, and no two of them equal ones.
* `LeavesSome` — the tables that are read can all be registered up to a later one that cannot.

## Main results

* `fill_eq` — filling is reading and then registering.
* `outcome_registerTables` — registering stops at the first table that cannot be registered.
* `fill_error` — what a failed filling leaves: everything as it was but for the tables registered
  before the failure, which there are exactly when `LeavesSome` holds.
-/

namespace DbSchema.Source

open Probe

/-! ### The two halves -/

/-- The first half of filling a schema: all tables are read. -/
def reading (access : Access) (c : Option Connection) (dsn user password : Option String)
    (options : Params) : Probe (Vendor × List TableId) := do
  if options.any fun o => fillNames.contains o.1 then throw (.model (.fault .arguments))
  match c with
  | some c => readAndClose c options
  | none =>
    let dsn := dsn.getD ""
    if dsn = "" then throw .noConnection
    readAndClose (← connect access (.database dsn user password)) options

/-- The second half: the tables are registered. -/
def registering (s : SchemaId) (found : Vendor × List TableId) : Probe (List TableId) := do
  edit (registerTables s found.2)
  edit <| Edit.onSchema s fun x =>
    if x.database.truthy then x else { x with database := .text found.1.label }
  tell .info ("Introspected " ++ toString found.2.length ++ " tables")
  return found.2

/-- Filling is reading and then registering. -/
theorem fill_eq (access : Access) (s : SchemaId) (c : Option Connection)
    (dsn user password : Option String) (options : Params) :
    fill access s c dsn user password options =
      reading access c dsn user password options >>= registering s := by
  have hfrom : ∀ c, fillFrom s c options = readAndClose c options >>= registering s := fun _ => rfl
  by_cases ho : options.any fun o => fillNames.contains o.1
  · simp only [fill, reading, ho, if_true]
    rfl
  · simp only [fill, reading, ho, Bool.false_eq_true, if_false]
    rcases c with _ | c
    · by_cases hd : dsn.getD "" = ""
      · simp only [hd, if_true]
        rfl
      · simp only [hd, if_false, hfrom, bind_assoc]
    · exact hfrom c

/-- The connection that is read: the given one, or else one to the database that is described. -/
def clientOf (access : Access) (c : Option Connection) (dsn user password : Option String) :
    Except SourceError Connection :=
  match c with
  | some c => .ok c
  | none =>
    let dsn := dsn.getD ""
    if dsn = "" then .error .noConnection else access (.database dsn user password)

section

variable {access : Access} {given : Option Connection} {dsn user password : Option String}
  {options : Params} {c : Connection}

theorem outcome_connect_bind {α : Type} {target : Target} (hc : access target = .ok c)
    (f : Connection → Probe α) (σ : Session) :
    outcome (connect access target >>= f) σ =
      outcome (f c) { σ with opened := σ.opened ++ [target] } := by
  rw [connect, hc]
  rfl

/-- A client is read and closed; if it had to be connected to, that was noted first. -/
theorem reading_of_client (ho : ¬ options.any (fun o => fillNames.contains o.1))
    (hc : clientOf access given dsn user password = .ok c) (σ : Session) :
    ∃ opened, outcome (reading access given dsn user password options) σ =
      outcome (readAndClose c options) { σ with opened } := by
  simp only [reading, ho]
  rcases given with _ | c'
  · by_cases hd : dsn.getD "" = ""
    · simp only [clientOf, hd, if_true] at hc
      cases hc
    · simp only [clientOf, hd, if_false] at hc
      simp only [hd, if_false]
      exact ⟨_, outcome_connect_bind hc _ σ⟩
  · cases hc
    exact ⟨σ.opened, rfl⟩

/-- What keeps a filling from having a client is how the reading ends, and nothing is done. -/
theorem reading_of_no_client {e : SourceError}
    (ho : ¬ options.any (fun o => fillNames.contains o.1))
    (hc : clientOf access given dsn user password = .error e) (σ : Session) :
    outcome (reading access given dsn user password options) σ = (.error e, σ) := by
  simp only [reading, ho, Bool.false_eq_true, if_false]
  rcases given with _ | c'
  · by_cases hd : dsn.getD "" = ""
    · simp only [clientOf, hd, if_true] at hc
      cases hc
      simp only [hd, if_true]
      rfl
    · simp only [clientOf, hd, if_false] at hc ⊢
      rw [connect, hc]
      rfl
  · cases hc

/-- Without a client nothing is done. -/
theorem reading_cases (access : Access) (given : Option Connection)
    (dsn user password : Option String) (options : Params) (σ : Session) :
    (∃ e, outcome (reading access given dsn user password options) σ = (.error e, σ)) ∨
    ∃ c opened, clientOf access given dsn user password = .ok c ∧
      outcome (reading access given dsn user password options) σ =
        outcome (readAndClose c options) { σ with opened } := by
  by_cases ho : options.any fun o => fillNames.contains o.1
  · simp only [reading, ho, if_true]
    exact Or.inl ⟨_, rfl⟩
  rcases hc : clientOf access given dsn user password with e | c
  · exact Or.inl ⟨e, reading_of_no_client ho hc σ⟩
  · obtain ⟨opened, hread⟩ := reading_of_client ho hc σ
    exact Or.inr ⟨c, opened, rfl, hread⟩

/-- A connection is closed after all tables were read, whether that failed or not; if closing it
fails, that is the failure of the whole. -/
theorem outcome_readAndClose (c : Connection) (options : Params) (σ : Session) :
    outcome (readAndClose c options) σ =
      let (result, σ₁) := outcome (readAll c options) σ
      (match (c.respond σ₁.journal .close).failure? with
        | some m => .error (.driver m)
        | none => result,
        { σ₁ with trace := σ₁.trace ++ [.asked .close] }) := by
  rw [readAndClose_eq, closing, outcome_bind, outcome_attempt]
  dsimp only
  rw [outcome_bind, outcome_discard, outcome_request]
  dsimp only
  rcases (c.respond (outcome (readAll c options) σ).2.journal .close).failure? with _ | m
  · rcases (outcome (readAll c options) σ).1 with e | found <;> rfl
  · rfl

/-- **Reading leaves everything that was there as it was**, and gives new tables when it
succeeds. -/
theorem ensures_reading {b : Store} (access : Access) (c : Option Connection)
    (dsn user password : Option String) (options : Params) :
    Ensures (fun σ : Session => b.Extends σ.store) (reading access c dsn user password options)
      (fun found σ => b.Extends σ.store ∧ NewTables b found.2) (fun σ => b.Extends σ.store) := by
  intro σ hσ
  obtain ⟨e, ho⟩ | ⟨c', opened, -, ho⟩ := reading_cases access c dsn user password options σ
  · rw [ho]
    exact hσ
  -- only the store is watched, which must have all that `b` has
  let w := Watch.ofStore c' b.Extends
  have hread : ∀ b', b.Extends b' → ∀ name, Reads w b' name fun t => Making b' t name :=
    fun b' hb name => reads_making (fun st hst => hb.trans hst) name
  have hkeep : w.Sees (outcome (readAll c' options) { σ with opened }).2 :=
    (keeps_readAll (Watch.steady_ofStore c' b.Extends) (fun name _ => hread b (.refl b) name)
      options).sees (Watch.steady_ofStore c' b.Extends) ⟨hσ, hσ, trivial⟩
  rw [ho, outcome_readAndClose]
  rcases hall : outcome (readAll c' options) { σ with opened } with ⟨e | ⟨vendor, tables⟩, σ₁⟩ <;>
    rw [hall] at hkeep <;> dsimp only
  · rcases (c'.respond σ₁.journal .close).failure? with _ | m <;> exact hkeep.store
  · rcases (c'.respond σ₁.journal .close).failure? with _ | m
    · obtain ⟨found, hreads, rfl⟩ := readAll_ok hall
      obtain ⟨-, -, hnew, -⟩ := hreads.tables (Q := fun _ _ _ => True)
        (fun name _ b' hb => hread b' hb name) (fun _ _ => trivial) ⟨hσ, trivial, trivial⟩
      exact ⟨hkeep.store, hnew.1, fun t ht => hσ.tables.size_le.trans (hnew.2 t ht)⟩
    · exact hkeep.store

end

/-! ### Registering -/

/-- The store after tables were listed by a schema one after the other. -/
def listedAll (st : Store) (s : SchemaId) (tables : List TableId) : Store :=
  tables.foldl (fun st t => Edit.listed st s t) st

/-- None of the tables has a name that the schema lists a table under. -/
def Free (st : Store) (s : SchemaId) (tables : List TableId) : Prop :=
  ∀ t ∈ tables, lookupTable st s (st.table t).name = .ok none

/-- The tables have names, and no name equals a later one. -/
def Registrable (st : Store) (tables : List TableId) : Prop :=
  (∀ t ∈ tables, (st.table t).name.truthy) ∧
    tables.Pairwise fun t u => (st.table t).name.same (st.table u).name = false

variable {st : Store} {s : SchemaId} {t : TableId} {tables done : List TableId}

/-- Looking for the names changes nothing, and succeeds exactly when all of them are free. -/
theorem outcome_checkNew (st : Store) (s : SchemaId) (tables : List TableId) :
    ∃ r, outcome (tables.forM (checkNew s)) st = (r, st) ∧ (r = .ok ⟨⟩ ↔ Free st s tables) := by
  -- the check of one table is passed exactly when its name is free
  have hone : ∀ t, ∃ r, outcome (checkNew s t) st = (r, st) ∧
      (r = .ok ⟨⟩ ↔ lookupTable st s (st.table t).name = .ok none) := by
    intro t
    rw [checkNew, outcome_get_bind, outcome_bind, Edit.outcome_ask]
    rcases lookupTable st s (st.table t).name with e | _ | u
    · exact ⟨_, rfl, by simp⟩
    · exact ⟨_, rfl, by simp⟩
    · exact ⟨_, rfl, by simp⟩
  induction tables with
  | nil => exact ⟨_, rfl, by simp [Free]⟩
  | cons t l ih =>
    obtain ⟨r, hr, hok⟩ := hone t
    obtain ⟨r', hr', hok'⟩ := ih
    rw [show (t :: l).forM (checkNew s) = checkNew s t >>= fun _ => l.forM (checkNew s) from rfl,
      outcome_bind, hr]
    rcases r with e | u
    · exact ⟨_, rfl, by simp [Free, ← hok]⟩
    · exact ⟨r', hr', by rw [hok']; simp [Free, hok.mp rfl]⟩

theorem Registrable.of_append {more : List TableId} (h : Registrable st (done ++ more)) :
    Registrable st done :=
  ⟨fun t ht => h.1 t (List.mem_append_left _ ht), (List.pairwise_append.mp h.2).1⟩

theorem registrable_append_singleton (h : Registrable st done) :
    Registrable st (done ++ [t]) ↔ (st.table t).name.truthy ∧
      ∀ u ∈ done, (st.table u).name.same (st.table t).name = false := by
  constructor
  · intro hall
    refine ⟨hall.1 t (by simp), fun u hu => ?_⟩
    exact (List.pairwise_append.mp hall.2).2.2 u hu t (List.mem_singleton_self t)
  · rintro ⟨hname, hnew⟩
    refine ⟨fun u hu => ?_, List.pairwise_append.mpr ⟨h.2, List.pairwise_singleton _ _, ?_⟩⟩
    · rcases List.mem_append.mp hu with hu | hu
      · exact h.1 u hu
      · rw [List.mem_singleton.mp hu]
        exact hname
    · intro u hu v hv
      rw [List.mem_singleton.mp hv]
      exact hnew u hu

/-! ### Tables listed one after the other -/

/-- The entries that tables have in a registry. -/
def entriesOf (st : Store) (tables : List TableId) : List (Value × TableId) :=
  tables.map fun t => ((st.table t).name, t)

theorem find?_entriesOf (name : Value) :
    Keyed.find? Value.same name (entriesOf st done) = none ↔
      ∀ u ∈ done, (st.table u).name.same name = false := by
  simp [Keyed.find?_eq_none, entriesOf]

theorem listedAll_append_singleton (st : Store) (s : SchemaId) (done : List TableId) (t : TableId) :
    listedAll st s (done ++ [t]) = Edit.listed (listedAll st s done) s t := by
  rw [listedAll, listedAll, List.foldl_append]
  rfl

theorem name_listedAll (st : Store) (s : SchemaId) (done : List TableId) (u : TableId) :
    ((listedAll st s done).table u).name = (st.table u).name := by
  induction done using List.reverseRecOn with
  | nil => rfl
  | append_singleton done t ih =>
    rw [listedAll_append_singleton, Edit.listed, Store.table_setSchema]
    by_cases hu : u = t
    · rw [hu, Store.table_setTable_self, ← hu, ih]
    · rw [Store.table_setTable_of_ne _ hu, ih]

theorem Free.hashable (h : Free st s tables) (ht : t ∈ tables) :
    (st.table t).name.hashable ∧ (st.schema s).find? (st.table t).name = none := by
  have hl := h t ht
  rw [lookupTable] at hl
  split at hl
  · next hk => exact ⟨hk, Except.ok.inj hl⟩
  · cases hl

/-- The schema lists the tables that were registered after those that it had. -/
theorem schema_listedAll (hfree : Free st s done) (hreg : Registrable st done) :
    (listedAll st s done).schema s =
      { st.schema s with tables := (st.schema s).tables ++ entriesOf st done } := by
  induction done using List.reverseRecOn with
  | nil => simp [listedAll, entriesOf]
  | append_singleton done t ih =>
    have hdone := hreg.of_append
    have hold := ih (fun u hu => hfree u (List.mem_append_left _ hu)) hdone
    have hfind : Keyed.find? Value.same (st.table t).name
        ((st.schema s).tables ++ entriesOf st done) = none := by
      rw [Keyed.find?_append, show Keyed.find? Value.same _ (st.schema s).tables = none from
        (hfree.hashable (List.mem_append_right _ (List.mem_singleton_self t))).2]
      exact find?_entriesOf _ |>.mpr ((registrable_append_singleton hdone).mp hreg).2
    rw [listedAll_append_singleton, Edit.listed, Store.schema_setSchema_self, hold, name_listedAll]
    dsimp only
    rw [Keyed.put_of_find?_eq_none hfind, List.append_assoc]
    simp [entriesOf]

/-- Once some tables were registered, another one may be listed exactly when it has a name that
differs from theirs. -/
theorem mayList_listedAll (hfree : Free st s (done ++ [t])) (hreg : Registrable st done)
    (hout : t ∉ done) :
    Edit.mayList (listedAll st s done) s t = .ok () ↔ Registrable st (done ++ [t]) := by
  obtain ⟨hkey, hold⟩ := hfree.hashable (List.mem_append_right _ (List.mem_singleton_self t))
  have hschema := schema_listedAll (fun u hu => hfree u (List.mem_append_left _ hu)) hreg
  -- the old entries do not have the name, so it is looked up among the new ones
  have hlookup : lookupTable (listedAll st s done) s (st.table t).name =
      .ok (Keyed.find? Value.same (st.table t).name (entriesOf st done)) := by
    rw [lookupTable, if_pos hkey, Schema.find?, hschema, Keyed.find?_append]
    rw [Schema.find?] at hold
    rw [hold, Option.none_or]
  rw [registrable_append_singleton hreg, Edit.mayList, name_listedAll, hlookup,
    ← find?_entriesOf]
  by_cases hname : (st.table t).name.truthy
  · rcases hf : Keyed.find? Value.same (st.table t).name (entriesOf st done) with _ | u
    · simp [hname]
    · obtain ⟨k, hk, -⟩ := Keyed.mem_of_find? hf
      obtain ⟨v, hv, hvu⟩ := List.mem_map.mp hk
      have hvu : v = u := (Prod.ext_iff.mp hvu).2
      have hne : u ≠ t := fun he => hout (he ▸ hvu ▸ hv)
      simp [hname, hne]
  · simp [hname]

/-- Registering tables one after the other. -/
def registerEach (s : SchemaId) (tables : List TableId) : Edit Unit :=
  tables.forM fun t => discard (Edit.addTable s (.object (.table t)) [])

theorem outcome_registerEach_cons (st : Store) (s : SchemaId) (t : TableId) (l : List TableId) :
    outcome (registerEach s (t :: l)) st =
      match Edit.mayList st s t with
      | .error e => (.error e, st)
      | .ok () => outcome (registerEach s l) (Edit.listed st s t) := by
  change outcome (discard (Edit.addTable s (.object (.table t)) []) >>=
    fun _ => registerEach s l) st = _
  rw [outcome_bind, outcome_discard, Edit.outcome_addTable_object, Edit.outcome_register]
  rcases Edit.mayList st s t with e | u <;> rfl

/-- Registering goes on up to the first table that has no name or the name of one before it. -/
theorem outcome_registerEach (hfree : Free st s (done ++ tables))
    (hnodup : (done ++ tables).Nodup) (hreg : Registrable st done) :
    ∃ more rest r, tables = more ++ rest ∧ Registrable st (done ++ more) ∧
      outcome (registerEach s tables) (listedAll st s done) = (r, listedAll st s (done ++ more)) ∧
      (r = .ok ⟨⟩ ∧ rest = [] ∨
        ∃ e t l, r = .error e ∧ rest = t :: l ∧ ¬ Registrable st (done ++ more ++ [t])) := by
  induction tables generalizing done with
  | nil =>
    rw [List.append_nil] at hfree
    exact ⟨[], [], .ok ⟨⟩, rfl, by rwa [List.append_nil], by rw [List.append_nil]; rfl,
      Or.inl ⟨rfl, rfl⟩⟩
  | cons t l ih =>
    rw [List.append_cons] at hfree hnodup
    -- reading gives no table twice, so a table with the same name is another one
    have hout : t ∉ done := fun ht =>
      (List.nodup_append.mp (List.nodup_append.mp hnodup).1).2.2 t ht t (by simp) rfl
    have hmay : Edit.mayList (listedAll st s done) s t = .ok () ↔ Registrable st (done ++ [t]) :=
      mayList_listedAll (fun u hu => hfree u (List.mem_append_left _ hu)) hreg hout
    rw [outcome_registerEach_cons]
    rcases hm : Edit.mayList (listedAll st s done) s t with e | u
    · refine ⟨[], t :: l, .error e, rfl, by rwa [List.append_nil], by rw [List.append_nil],
        Or.inr ⟨e, t, l, rfl, rfl, ?_⟩⟩
      rw [List.append_nil, ← hmay, hm]
      simp
    · obtain ⟨more, rest, r, rfl, hmore, ho, hend⟩ := ih hfree hnodup (hmay.mp hm)
      refine ⟨t :: more, rest, r, rfl, ?_, ?_, ?_⟩
      · rwa [List.append_cons]
      · dsimp only
        rw [← listedAll_append_singleton, ho, ← List.append_cons]
      · rwa [List.append_cons done t more]

/-- What registering tables gives and leaves: nothing happens unless all names are free; then the
tables are registered up to the first one that cannot be. -/
theorem outcome_registerTables (st : Store) (s : SchemaId) (hnodup : tables.Nodup) :
    (∃ e, ¬ Free st s tables ∧ outcome (registerTables s tables) st = (.error e, st)) ∨
    ∃ more rest r, Free st s tables ∧ tables = more ++ rest ∧ Registrable st more ∧
      outcome (registerTables s tables) st = (r, listedAll st s more) ∧
      (r = .ok ⟨⟩ ∧ rest = [] ∨
        ∃ e t l, r = .error e ∧ rest = t :: l ∧ ¬ Registrable st (more ++ [t])) := by
  obtain ⟨r, hcheck, hok⟩ := outcome_checkNew st s tables
  have hsplit : registerTables s tables =
      tables.forM (checkNew s) >>= fun _ => registerEach s tables := rfl
  rw [hsplit]
  rcases r with e | u
  · exact Or.inl ⟨e, fun h => (by cases hok.mpr h), outcome_bind_of_error hcheck _⟩
  · have hfree : Free st s ([] ++ tables) := hok.mp rfl
    obtain ⟨more, rest, r, hdecomp, hmore, ho, hend⟩ :=
      outcome_registerEach hfree hnodup ⟨by simp, .nil⟩
    exact Or.inr ⟨more, rest, r, hfree, hdecomp, hmore,
      (outcome_bind_of_ok hcheck _).trans ho, hend⟩

/-! ### What a failed filling leaves -/

/-- Every object that was there but one schema is as it was. -/
structure KeptBut (s : SchemaId) (st st' : Store) : Prop where
  schemas : ∀ u : SchemaId, u ≠ s → u.index < st.schemas.size → st'.schema u = st.schema u
  tables : st.tables.Extends st'.tables
  fields : st.fields.Extends st'.fields
  indices : st.indices.Extends st'.indices
  constraints : st.constraints.Extends st'.constraints

theorem keptBut_of_extends {st' : Store} (h : st.Extends st') (s : SchemaId) : KeptBut s st st' :=
  ⟨fun _ _ hu => h.schema_eq hu, h.tables, h.fields, h.indices, h.constraints⟩

theorem KeptBut.listedAll {b : Store} (h : KeptBut s b st)
    (hnew : ∀ t ∈ tables, b.tables.size ≤ t.index) :
    KeptBut s b (listedAll st s tables) := by
  induction tables using List.reverseRecOn with
  | nil => exact h
  | append_singleton l t ih =>
    have hl := ih fun u hu => hnew u (List.mem_append_left _ hu)
    have ht : b.tables.size ≤ t.index :=
      hnew t (List.mem_append_right _ (List.mem_singleton_self t))
    rw [listedAll_append_singleton]
    refine ⟨fun u hu hsize => ?_, hl.tables.set ht _, hl.fields, hl.indices, hl.constraints⟩
    rw [Edit.listed, Store.schema_setSchema_of_ne _ hu]
    exact hl.schemas u hu hsize

/-- The reading gives tables whose names are all free in the schema; the first of them has a name,
but a later one has none or the name of one before it. -/
def LeavesSome (access : Access) (s : SchemaId) (c : Option Connection)
    (dsn user password : Option String) (options : Params) (σ : Session) : Prop :=
  ∃ vendor t tables σ',
    outcome (reading access c dsn user password options) σ = (.ok (vendor, t :: tables), σ') ∧
    Free σ'.store s (t :: tables) ∧ (σ'.store.table t).name.truthy ∧
    ¬ Registrable σ'.store (t :: tables)

/-- A failure of the second half: a name is not free, and nothing is registered; or the tables
before one that cannot be registered are. -/
theorem registering_error {vendor : Vendor} {σ σ' : Session} {e : SourceError}
    (hnodup : tables.Nodup) (h : outcome (registering s (vendor, tables)) σ = (.error e, σ')) :
    (¬ Free σ.store s tables ∧ σ'.store = σ.store) ∨
    ∃ more t rest, tables = more ++ t :: rest ∧ Free σ.store s tables ∧
      Registrable σ.store more ∧ ¬ Registrable σ.store (more ++ [t]) ∧
      σ'.store = listedAll σ.store s more := by
  rw [registering, outcome_bind, outcome_edit] at h
  dsimp only at h
  obtain ⟨e', hfree, ho⟩ | ⟨more, rest, r, hfree, hdecomp, hmore, ho, hend⟩ :=
    outcome_registerTables σ.store s hnodup
  · rw [ho] at h
    cases h
    exact Or.inl ⟨hfree, rfl⟩
  · rw [ho] at h
    obtain ⟨rfl, rfl⟩ | ⟨e', t, l, rfl, rfl, hstop⟩ := hend
    -- what follows the registration cannot fail
    · cases h
    · cases h
      exact Or.inr ⟨more, t, l, hdecomp, hfree, hmore, hstop, rfl⟩

theorem leavesSome_iff {access : Access} {c : Option Connection} {dsn user password : Option String}
    {options : Params} {σ σ' : Session} {vendor : Vendor}
    (h : outcome (reading access c dsn user password options) σ = (.ok (vendor, tables), σ')) :
    LeavesSome access s c dsn user password options σ ↔
      Free σ'.store s tables ∧ ¬ Registrable σ'.store tables ∧
        ∃ t ∈ tables.head?, (σ'.store.table t).name.truthy := by
  constructor
  · rintro ⟨vendor', t, tables', σ'', ho, hfree, hname, hnot⟩
    rw [h] at ho
    cases ho
    exact ⟨hfree, hnot, t, rfl, hname⟩
  · rintro ⟨hfree, hnot, t, ht, hname⟩
    obtain ⟨l, rfl⟩ : ∃ l, tables = t :: l := List.head?_eq_some_iff.mp ht
    exact ⟨vendor, t, l, σ', h, hfree, hname, hnot⟩

theorem registrable_singleton : Registrable st [t] ↔ (st.table t).name.truthy := by
  simp [Registrable]

/-- The tables before the one that stops the registration are there exactly when the first table
has a name. -/
theorem ne_nil_iff_of_stop {more rest : List TableId} (hmore : Registrable st more)
    (hstop : ¬ Registrable st (more ++ [t])) :
    more ≠ [] ↔ ∃ u ∈ (more ++ t :: rest).head?, (st.table u).name.truthy := by
  rcases more with _ | ⟨u, l⟩
  · rw [List.nil_append, registrable_singleton] at hstop
    simpa using hstop
  · simpa using hmore.1 u List.mem_cons_self

/-- **What a failed filling leaves.**  Every other object and everything about the schema itself but
its list of tables is as it was.  The list is the one before, and after it come tables that were
registered before the failure; there are such tables exactly when `LeavesSome` holds. -/
theorem fill_error {access : Access} {s : SchemaId} {c : Option Connection}
    {dsn user password : Option String} {options : Params} {σ σ' : Session} {e : SourceError}
    (hs : s.index < σ.store.schemas.size)
    (h : outcome (fill access s c dsn user password options) σ = (.error e, σ')) :
    KeptBut s σ.store σ'.store ∧
    ∃ left, σ'.store.schema s =
        { σ.store.schema s with tables := (σ.store.schema s).tables ++ left } ∧
      (left ≠ [] ↔ LeavesSome access s c dsn user password options σ) := by
  rw [fill_eq, outcome_bind] at h
  have hread := ensures_reading (b := σ.store) access c dsn user password options σ (.refl _)
  rcases ho : outcome (reading access c dsn user password options) σ with
    ⟨x | ⟨vendor, tables⟩, σ₁⟩ <;> rw [ho] at h hread
  · cases h
    refine ⟨keptBut_of_extends hread s, [], by rw [hread.schema_eq hs, List.append_nil], ?_⟩
    -- reading itself failed, so no table was registered
    refine iff_of_false (by simp) ?_
    rintro ⟨vendor, t, tables, σ₂, hok, -⟩
    rw [ho] at hok
    cases hok
  · obtain ⟨hext, hnew⟩ : σ.store.Extends σ₁.store ∧ NewTables σ.store tables := hread
    rw [leavesSome_iff ho]
    obtain ⟨hfree, hst⟩ | ⟨more, t, rest, rfl, hfree, hmore, hstop, hst⟩ :=
      registering_error hnew.nodup h
    · rw [hst, hext.schema_eq hs]
      exact ⟨keptBut_of_extends hext s, [], by rw [List.append_nil], by simp [hfree]⟩
    · have hbefore : Free σ₁.store s more := fun u hu => hfree u (List.mem_append_left _ hu)
      -- what stops the registration keeps the whole list from being registrable
      have hall : ¬ Registrable σ₁.store (more ++ t :: rest) := by
        rw [List.append_cons]
        exact fun hreg => hstop hreg.of_append
      rw [hst, schema_listedAll hbefore hmore, hext.schema_eq hs]
      refine ⟨(keptBut_of_extends hext s).listedAll fun u hu =>
        hnew.2 u (List.mem_append_left _ hu), entriesOf σ₁.store more, rfl, ?_⟩
      rw [← ne_nil_iff_of_stop hmore hstop]
      simp [entriesOf, hfree, hall]

/-- A database of tables without columns. -/
def bareTables (names : List String) : Connection where
  usesCursors := false
  driver := "sqlite3"
  respond _ r :=
    match r with
    | .query sql _ =>
      if sql = Pragmas.listStatement then
        .rows (names.map fun name => { columns := [(.text "name", .text name)] })
      else .rows []
    | _ => .done

/-- Filling a schema with a table `orders` from a database that lists `users` and `orders` registers
neither of them. -/
theorem fill_error_of_name_in_use :
    let σ : Session := { store := history [.makeSchema (.text "shop") (.text ""),
      .addTable ⟨0⟩ .null [("name", .text "orders")]] }
    let c := bareTables ["users", "orders"]
    let access : Access := fun _ => .error .noConnection
    ∃ e σ', outcome (fill access ⟨0⟩ (some c) none none none []) σ = (.error e, σ') ∧
      (σ'.store.schema ⟨0⟩).tables.length = 1 ∧
      KeptBut ⟨0⟩ σ.store σ'.store ∧
      ∃ left, σ'.store.schema ⟨0⟩ =
          { σ.store.schema ⟨0⟩ with tables := (σ.store.schema ⟨0⟩).tables ++ left } ∧
        (left ≠ [] ↔ LeavesSome access ⟨0⟩ (some c) none none none [] σ) := by
  intro σ c access
  have hsize : (⟨0⟩ : SchemaId).index < σ.store.schemas.size := by decide +kernel
  have hrefused : (outcome (fill access ⟨0⟩ (some c) none none none []) σ).1.toOption.isNone := by
    decide +kernel
  have hone : ((outcome (fill access ⟨0⟩ (some c) none none none []) σ).2.store.schema
      ⟨0⟩).tables.length = 1 := by decide +kernel
  rcases ho : outcome (fill access ⟨0⟩ (some c) none none none []) σ with ⟨e | found, σ'⟩ <;>
    rw [ho] at hrefused hone
  · exact ⟨e, σ', rfl, hone, fill_error hsize ho⟩
  · cases hrefused

/-- A database that lists a table `users` and one whose name is empty: the filling fails, and the
schema, which had no tables, has one afterwards. -/
theorem not_kept_of_empty_name :
    ¬ ∀ (access : Access) (s : SchemaId) (c : Option Connection)
        (dsn user password : Option String) (options : Params) (σ σ' : Session) (e : SourceError),
      Reachable σ.store → s.index < σ.store.schemas.size →
      outcome (fill access s c dsn user password options) σ = (.error e, σ') →
      (σ'.store.schema s).tables = (σ.store.schema s).tables ∧
        (σ'.store.schema s).database = (σ.store.schema s).database := by
  intro h
  let σ : Session := { store := history [.makeSchema (.text "shop") (.text "")] }
  let c := bareTables ["users", ""]
  have hkept := h (fun _ => .error .noConnection) ⟨0⟩ (some c) none none none [] σ
  have hrefused : (outcome (fill (fun _ => .error .noConnection) ⟨0⟩ (some c) none none none [])
      σ).1.toOption.isNone := by decide +kernel
  have hone : ((outcome (fill (fun _ => .error .noConnection) ⟨0⟩ (some c) none none none [])
      σ).2.store.schema ⟨0⟩).tables.length = 1 := by decide +kernel
  rcases ho : outcome (fill (fun _ => .error .noConnection) ⟨0⟩ (some c) none none none []) σ with
    ⟨e | found, σ'⟩ <;> rw [ho] at hkept hrefused hone
  · rw [(hkept σ' e (reachable_history _) (by decide +kernel) rfl).1] at hone
    cases hone
  · cases hrefused

end DbSchema.Source
