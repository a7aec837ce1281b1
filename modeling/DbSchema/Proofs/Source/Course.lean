import DbSchema.Proofs.Source.Registration

/-!
# The course of a filling

A schema is filled in three parts: the database is asked, its connection is closed, and the tables
are registered.  Whatever the database answers and wherever the reading fails, the connection is
closed once and nothing is asked after that; where statements are executed through cursors, every
one that was opened is closed before the next one is opened; and the schema is as it was until the
connection is closed.

## Main definitions

* `CursorStep c past isOpen r isOpen'`, `CursorRun c past isOpen talk isOpen'` — requests through
  cursors, of which at most one is open at any time.
* `Conversation c past talk` — the requests of one or more statements, none of which is left open.
* `Course b old D events` — what happened since the events `old`.

## Main results

* `ensures_fetchAll_course` — a statement is a conversation.
* `reading_course` — so is the reading of a database, and it changes nothing that was there.
* `filled_of_fill` — what a filling that succeeds leaves.
* `fill_course` — the course of a filling.
-/

namespace DbSchema.Source

open Probe

/-! ### Conversations -/

/-- A request, where a cursor may be open before it and after it.  A cursor that is refused when it
should be opened is not open. -/
inductive CursorStep (c : Connection) (past : List Request) : Bool → Request → Bool → Prop
  | opened (h : (c.respond past .openCursor).failure? = none) :
      CursorStep c past false .openCursor true
  | refused {m : String} (h : (c.respond past .openCursor).failure? = some m) :
      CursorStep c past false .openCursor false
  | executed (sql : String) (params : Option (List Value)) :
      CursorStep c past true (.execute sql params) true
  | fetched : CursorStep c past true .fetch true
  | closed : CursorStep c past true .closeCursor false

/-- Requests one after the other, after those of the past. -/
inductive CursorRun (c : Connection) (past : List Request) :
    Bool → List Request → Bool → Prop
  | nil {isOpen : Bool} : CursorRun c past isOpen [] isOpen
  | snoc {before between after : Bool} {talk : List Request} {r : Request}
      (run : CursorRun c past before talk between)
      (step : CursorStep c (past ++ talk) between r after) :
      CursorRun c past before (talk ++ [r]) after

/-- The requests of some statements: queries, or requests through cursors that are all closed. -/
def Conversation (c : Connection) (past talk : List Request) : Prop :=
  if c.usesCursors then CursorRun c past false talk false
  else ∀ r ∈ talk, ∃ sql params, r = .query sql params

variable {c : Connection} {past talk : List Request}

/-- Closing the connection is no part of a conversation. -/
theorem CursorRun.close_notMem {isOpen isOpen' : Bool} (h : CursorRun c past isOpen talk isOpen') :
    Request.close ∉ talk := by
  induction h with
  | nil => exact List.not_mem_nil
  | snoc run step ih =>
    rw [List.mem_append, List.mem_singleton]
    rintro (hmem | rfl)
    · exact ih hmem
    · cases step

theorem Conversation.close_notMem (h : Conversation c past talk) : Request.close ∉ talk := by
  rw [Conversation] at h
  split at h
  · exact h.close_notMem
  · intro hmem
    obtain ⟨sql, params, hr⟩ := h _ hmem
    cases hr

/-! ### What happened since -/

/-- What happened since the events `old`: the requests are as told, and every operation left all
that the store `b` had. -/
def Course (b : Store) (old : List Event) (D : List Request → Prop) (events : List Event) : Prop :=
  ∃ talk, events = old ++ talk ∧ D (requests talk) ∧ ∀ st, .edited st ∈ talk → b.Extends st

section

variable {b : Store} {old events : List Event} {D D' : List Request → Prop}

theorem Course.edited {st : Store} (h : Course b old D events) (hst : b.Extends st) :
    Course b old D (events ++ [.edited st]) := by
  obtain ⟨talk, rfl, hD, hall⟩ := h
  refine ⟨talk ++ [.edited st], List.append_assoc _ _ _, ?_, fun st' hst' => ?_⟩
  · rwa [requests_append, show requests [.edited st] = [] from rfl, List.append_nil]
  · rcases List.mem_append.mp hst' with hmem | hmem
    · exact hall st' hmem
    · cases List.mem_singleton.mp hmem
      exact hst

theorem Course.asked {r : Request} (h : Course b old D events)
    (hstep : ∀ talk, requests events = requests old ++ talk → D talk → D' (talk ++ [r])) :
    Course b old D' (events ++ [.asked r]) := by
  obtain ⟨talk, rfl, hD, hall⟩ := h
  refine ⟨talk ++ [.asked r], List.append_assoc _ _ _, ?_, fun st hst => ?_⟩
  · rw [requests_append, show requests [.asked r] = [r] from rfl]
    exact hstep _ (requests_append _ _) hD
  · rcases List.mem_append.mp hst with hmem | hmem
    · exact hall st hmem
    · cases List.mem_singleton.mp hmem

variable (c b old) in
/-- What happened since is a run of requests after which a cursor is open, or none. -/
abbrev AtCursor (isOpen : Bool) (σ : Session) : Prop :=
  Course b old (CursorRun c (requests old) false · isOpen) σ.trace

/-- A request at an open cursor, whatever is answered. -/
theorem ensures_atCursor {r : Request} {isOpen : Bool}
    (hstep : ∀ past, CursorStep c past true r isOpen) :
    Ensures (AtCursor c b old true) (request c r) (fun _ => AtCursor c b old isOpen)
      (AtCursor c b old isOpen) := by
  refine Ensures.iff_outcome.mpr fun σ hσ => ?_
  rw [outcome_request]
  exact hσ.asked fun talk _ hrun => hrun.snoc (hstep _)

/-- Opening a cursor: it is open unless that was refused. -/
theorem ensures_openCursor :
    Ensures (AtCursor c b old false) (request c .openCursor) (fun _ => AtCursor c b old true)
      (AtCursor c b old false) := by
  intro σ hσ
  rw [outcome_request, Session.journal]
  rcases hreply : (c.respond (requests σ.trace) .openCursor).failure? with _ | m
  · exact hσ.asked fun talk hpast hrun => hrun.snoc (.opened (hpast ▸ hreply))
  · exact hσ.asked fun talk hpast hrun => hrun.snoc (.refused (hpast ▸ hreply))

/-- **A statement is a conversation**: a query, or what is asked through a cursor that is closed in
any case. -/
theorem ensures_fetchAll_course (sql : String) (params : Option (List Value)) :
    Ensures (fun σ : Session => Course b old (Conversation c (requests old)) σ.trace)
      (fetchAll c sql params)
      (fun _ σ => Course b old (Conversation c (requests old)) σ.trace)
      fun σ => Course b old (Conversation c (requests old)) σ.trace := by
  unfold Conversation
  cases hc : c.usesCursors with
  | true =>
    have hclose : Ensures (AtCursor c b old true) (request c .closeCursor)
        (fun _ => AtCursor c b old false) (AtCursor c b old false) :=
      ensures_atCursor fun _ => .closed
    exact concludes_fetchAll_of_cursor hc ensures_openCursor
      (ensures_atCursor fun _ => .executed sql params) (ensures_atCursor fun _ => .fetched) hclose
      fun _ => hclose
  | false =>
    refine concludes_fetchAll_of_query hc (Ensures.iff_outcome.mpr fun σ hσ => ?_)
    rw [outcome_request]
    refine hσ.asked fun talk _ hall r hr => ?_
    rcases List.mem_append.mp hr with hr | hr
    · exact hall r hr
    · exact ⟨sql, params, List.mem_singleton.mp hr⟩

end

/-- The watch of the course: only conversations are held, and all that was there stays. -/
def Watch.ofCourse (c : Connection) (b : Store) (old : List Event) : Watch c where
  past := Course b old (Conversation c (requests old))
  failed _ := Course b old (Conversation c (requests old))
  store := b.Extends
  name _ := True
  edited h hst := h.edited hst
  fetched sql params := Concludes.weaken (ensures_fetchAll_course sql params) (fun _ h => h)
    (fun _ _ h => ⟨h, fun _ _ _ _ _ _ => trivial⟩) fun e _ h => by cases e <;> exact h

theorem Watch.steady_ofCourse (c : Connection) (b : Store) (old : List Event) :
    (Watch.ofCourse c b old).Steady := fun _ _ h => h

theorem conversation_nil (c : Connection) (past : List Request) : Conversation c past [] := by
  rw [Conversation]
  split
  · exact .nil
  · simp

/-! ### The three parts -/

/-- **The reading of a database is a conversation**, whether it succeeds or not, and every operation
in it leaves all that was there. -/
theorem readAll_course (c : Connection) (options : Params) (σ : Session) :
    Course σ.store σ.trace (Conversation c σ.journal) (outcome (readAll c options) σ).2.trace ∧
      σ.store.Extends (outcome (readAll c options) σ).2.store := by
  let w := Watch.ofCourse c σ.store σ.trace
  have hread : ∀ name, Reads w σ.store name fun t => Making σ.store t name :=
    fun name => reads_making (fun _ h => h) name
  have hstart : w.Holds σ.store.Extends σ := by
    refine ⟨.refl _, .refl _, [], (List.append_nil _).symm, conversation_nil c _, by simp⟩
  have hw : w.Steady := Watch.steady_ofCourse c σ.store σ.trace
  have hend := (keeps_readAll hw (fun name _ => hread name) options).sees hw hstart
  exact ⟨hend.past, hend.store⟩

/-- Registering asks nothing. -/
theorem registering_trace (s : SchemaId) (found : Vendor × List TableId) (σ : Session) :
    ∃ after, (outcome (registering s found) σ).2.trace = σ.trace ++ after ∧
      requests after = [] := by
  rw [registering, outcome_bind, outcome_edit]
  rcases outcome (registerTables s found.2) σ.store with ⟨e | u, st⟩
  · exact ⟨[.edited st], rfl, rfl⟩
  · exact ⟨[.edited st, .edited _], (List.append_assoc _ [_] [_]), rfl⟩

theorem owner_listedAll {st : Store} {s : SchemaId} {tables : List TableId} {t : TableId}
    (ht : t ∈ tables) : ((listedAll st s tables).table t).owner = some s := by
  induction tables using List.reverseRecOn with
  | nil => cases ht
  | append_singleton l u ih =>
    rw [listedAll_append_singleton, Edit.listed, Store.table_setSchema]
    by_cases hu : t = u
    · rw [hu, Store.table_setTable_self]
    · rw [Store.table_setTable_of_ne _ hu]
      exact ih ((List.mem_append.mp ht).resolve_right fun h => hu (List.mem_singleton.mp h))

/-- What a successful registration leaves: the schema lists the tables after those that it had, and
it names a database. -/
theorem registering_ok {s : SchemaId} {vendor : Vendor} {tables tables' : List TableId}
    {σ σ' : Session} (hnodup : tables.Nodup)
    (h : outcome (registering s (vendor, tables)) σ = (.ok tables', σ')) :
    tables' = tables ∧ Registrable σ.store tables ∧
      σ'.store = (listedAll σ.store s tables).setSchema s
        { σ.store.schema s with
          tables := (σ.store.schema s).tables ++ entriesOf σ.store tables
          database := if (σ.store.schema s).database.truthy then (σ.store.schema s).database
            else .text vendor.label } := by
  rw [registering, outcome_bind, outcome_edit] at h
  dsimp only at h
  obtain ⟨e, -, ho⟩ | ⟨more, rest, r, hfree, rfl, hmore, ho, hend⟩ :=
    outcome_registerTables σ.store s hnodup
  · rw [ho] at h
    cases h
  obtain ⟨rfl, rfl⟩ | ⟨e, t, l, rfl, rfl, -⟩ := hend
  · rw [ho] at h
    cases h
    rw [List.append_nil] at hfree ⊢
    refine ⟨rfl, hmore, ?_⟩
    change (listedAll σ.store s more).setSchema s _ = _
    rw [schema_listedAll hfree hmore]
    congr 1
    dsimp only
    split <;> simp_all
  · rw [ho] at h
    cases h

/-- What a filling that succeeds leaves: the tables of the database are read in turn, those that
were not passed over are listed after those that the schema had, under their names and in the order
in which the database lists them, and a schema that names no database gets the name of the
vendor. -/
structure Filled (c : Connection) (options : Params) (s : SchemaId) (σ : Session)
    (tables : List TableId) (σ' : Session) : Prop where
  read : ∃ vendor found opened σ₁, ReadsAll c options { σ with opened } vendor found σ₁ ∧
    tables = found.filterMap (·.2) ∧
    (∀ e ∈ found, ∀ t, e.2 = some t → (σ'.store.table t).name = e.1) ∧
    σ'.store.schema s =
      { σ.store.schema s with
        tables := (σ.store.schema s).tables ++ entriesOf σ'.store tables
        database := if (σ.store.schema s).database.truthy then (σ.store.schema s).database
          else .text vendor.label }
  owner : ∀ t ∈ tables, (σ'.store.table t).owner = some s

section

variable {access : Access} {s : SchemaId} {given : Option Connection}
  {dsn user password : Option String} {options : Params} {σ σ' : Session}

/-- A filling that succeeds has read all tables from its client, closed that, and registered the
tables. -/
theorem fill_ok {tables : List TableId}
    (h : outcome (fill access s given dsn user password options) σ = (.ok tables, σ')) :
    ∃ c opened vendor found σ₁, clientOf access given dsn user password = .ok c ∧
      ReadsAll c options { σ with opened } vendor found σ₁ ∧
      outcome (registering s (vendor, found.filterMap (·.2)))
        { σ₁ with trace := σ₁.trace ++ [.asked .close] } = (.ok tables, σ') := by
  rw [fill_eq, outcome_bind] at h
  obtain ⟨e, ho⟩ | ⟨c, opened, hc, ho⟩ := reading_cases access given dsn user password options σ
  · rw [ho] at h
    cases h
  rw [ho, outcome_readAndClose] at h
  rcases hall : outcome (readAll c options) { σ with opened } with ⟨e | ⟨vendor, read⟩, σ₁⟩ <;>
    rw [hall] at h <;> dsimp only at h <;>
    rcases hclose : (c.respond σ₁.journal .close).failure? with _ | m <;> rw [hclose] at h
  · cases h
  · cases h
  · obtain ⟨found, hread, rfl⟩ := readAll_ok hall
    exact ⟨c, opened, vendor, found, σ₁, hc, hread, h⟩
  · cases h

/-- When a filling succeeds, the tables that were read are in the schema. -/
theorem filled_of_fill {c : Connection} {tables : List TableId}
    (hs : s.index < σ.store.schemas.size) (hc : clientOf access given dsn user password = .ok c)
    (h : outcome (fill access s given dsn user password options) σ = (.ok tables, σ')) :
    Filled c options s σ tables σ' := by
  obtain ⟨c', opened, vendor, found, σ₁, hc', hreads, hregister⟩ := fill_ok h
  cases hc.symm.trans hc'
  -- the names of the tables when they were read are their names in the end
  obtain ⟨-, hext, hnew, hnames⟩ := hreads.tables (w := .ofStore c fun _ => True)
    (P := fun b name t => Making b t name)
    (Q := fun name t st => (st.table t).name = if name.truthy then name else .text "")
    (fun name _ b _ => reads_making (fun _ _ => trivial) name)
    (fun hmake hext => by
      rw [hext.table_eq hmake.inUse]
      exact hmake.name)
    ⟨trivial, trivial, trivial⟩
  obtain ⟨rfl, hreg, hstore⟩ := registering_ok hnew.nodup hregister
  have hname : ∀ t, (σ'.store.table t).name = (σ₁.store.table t).name := fun t => by
    rw [hstore, Store.table_setSchema, name_listedAll]
  have hentries : entriesOf σ₁.store (found.filterMap (·.2)) =
      entriesOf σ'.store (found.filterMap (·.2)) :=
    List.map_congr_left fun t _ => by rw [hname t]
  refine ⟨⟨vendor, found, opened, σ₁, hreads, rfl, fun e he t ht => ?_, ?_⟩,
    fun t ht => by rw [hstore, Store.table_setSchema, owner_listedAll ht]⟩
  · have hlisted := hnames e he t ht
    have htruthy := hreg.1 t (List.mem_filterMap.mpr ⟨e, he, ht⟩)
    rw [hname t, hlisted]
    -- a table without a name would not have been registered
    dsimp only at htruthy
    rw [hlisted] at htruthy
    split at htruthy
    · next hgiven => rw [if_pos hgiven]
    · cases htruthy
  · rw [← hentries, ← hext.schema_eq hs, hstore, Store.schema_setSchema_self]

end

/-- **The course of a filling.**  A filling that has a client holds conversations with it, closes it
once, and asks nothing after that; until then the schema is as it was.  When the filling succeeds,
the tables that were read are in the schema. -/
theorem fill_course {access : Access} {s : SchemaId} {given : Option Connection}
    {dsn user password : Option String} {options : Params} {c : Connection} {σ σ' : Session}
    {result : Except SourceError (List TableId)} (hs : s.index < σ.store.schemas.size)
    (ho : ¬ options.any (fun o => fillNames.contains o.1))
    (hc : clientOf access given dsn user password = .ok c)
    (h : outcome (fill access s given dsn user password options) σ = (result, σ')) :
    (∃ talk after, σ'.trace = σ.trace ++ talk ++ .asked .close :: after ∧
      Conversation c σ.journal (requests talk) ∧ .close ∉ requests talk ∧ requests after = [] ∧
      ∀ st, .edited st ∈ talk → st.schema s = σ.store.schema s) ∧
    ∀ tables, result = .ok tables → Filled c options s σ tables σ' := by
  refine ⟨?_, fun tables hok => filled_of_fill hs hc (hok ▸ h)⟩
  obtain ⟨opened, hread⟩ := reading_of_client ho hc σ
  obtain ⟨⟨talk, htrace, htalk, hkept⟩, -⟩ := readAll_course c options { σ with opened }
  rw [fill_eq, outcome_bind, hread, outcome_readAndClose] at h
  rcases hall : outcome (readAll c options) { σ with opened } with ⟨read, σ₁⟩
  rw [hall] at h htrace
  dsimp only at h htrace
  -- a registration follows the closing, unless reading or closing failed
  obtain ⟨after, hafter, hnone⟩ : ∃ after, σ'.trace = σ₁.trace ++ [.asked .close] ++ after ∧
      requests after = [] := by
    rcases hclose : (c.respond σ₁.journal .close).failure? with _ | m <;> rw [hclose] at h
    · rcases read with e | ⟨vendor, tables⟩
      · cases h
        exact ⟨[], (List.append_nil _).symm, rfl⟩
      · obtain ⟨after, hafter, hnone⟩ := registering_trace s (vendor, tables)
          { σ₁ with trace := σ₁.trace ++ [.asked .close] }
        dsimp only at h
        rw [h] at hafter
        exact ⟨after, hafter, hnone⟩
    · cases h
      exact ⟨[], (List.append_nil _).symm, rfl⟩
  refine ⟨talk, after, ?_, htalk, htalk.close_notMem, hnone, fun st hst => ?_⟩
  · rw [hafter, htrace, List.append_assoc, List.singleton_append]
  · exact (hkept st hst).schema_eq hs

/-- A database of tables without columns that is asked through cursors. -/
def cursorTables (names : List String) : Connection where
  usesCursors := true
  driver := "sqlite3"
  respond past r :=
    match r, past.getLast? with
    | .execute _ _, _ => .columns ["name"]
    | .fetch, some (.execute sql _) =>
      .records (if sql = Pragmas.listStatement then names.map fun name => [.text name] else [])
    | _, _ => .done

/-- A schema with a table `users` is filled from a database that lists `orders` and `items`: it has
three tables then. -/
theorem fill_course_of_two_tables :
    let σ : Session := { store := history [.makeSchema (.text "shop") (.text ""),
      .addTable ⟨0⟩ .null [("name", .text "users")]] }
    let c := cursorTables ["orders", "items"]
    ∃ tables σ', outcome (fill (fun _ => .error .noConnection) ⟨0⟩ (some c) none none none []) σ =
        (.ok tables, σ') ∧
      tables.length = 2 ∧ (σ'.store.schema ⟨0⟩).tables.length = 3 ∧
      (∃ talk after, σ'.trace = σ.trace ++ talk ++ .asked .close :: after ∧
        Conversation c σ.journal (requests talk) ∧ .close ∉ requests talk ∧ requests after = [] ∧
        ∀ st, .edited st ∈ talk → st.schema ⟨0⟩ = σ.store.schema ⟨0⟩) ∧
      Filled c [] ⟨0⟩ σ tables σ' := by
  intro σ c
  have hsize : (⟨0⟩ : SchemaId).index < σ.store.schemas.size := by decide +kernel
  have htwo : (outcome (fill (fun _ => .error .noConnection) ⟨0⟩ (some c) none none none [])
      σ).1.toOption.map List.length = some 2 := by decide +kernel
  have hthree : ((outcome (fill (fun _ => .error .noConnection) ⟨0⟩ (some c) none none none [])
      σ).2.store.schema ⟨0⟩).tables.length = 3 := by decide +kernel
  rcases ho : outcome (fill (fun _ => .error .noConnection) ⟨0⟩ (some c) none none none []) σ with
    ⟨e | tables, σ'⟩ <;> rw [ho] at htwo hthree
  · cases htwo
  · obtain ⟨hcourse, hfilled⟩ := fill_course hsize (by simp) rfl ho
    exact ⟨tables, σ', rfl, Option.some.inj htwo, hthree, hcourse, hfilled tables rfl⟩

end DbSchema.Source
