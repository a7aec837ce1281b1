import DbSchema.Proofs.Source.Course
import DbSchema.Source.Dsn

/-!
# How failures leave a filling

A driver may fail at any request: when a cursor is opened, used or closed, when a query is sent, and
when the connection is closed.  What it fails with while tables are read leaves the filling as an
error of the introspection of its vendor, wherever in the reading that happens.  The parts around
the reading have no such wrapping: a driver that refuses the connection, or fails to close it, is
heard as it is, and so is a name that is unfit to register a table under.

## Main definitions

* `lastFailure c past talk` — the message of the last failed request of a talk.
* `throughDrivers` — databases are reached through the drivers of their vendors.
* `ToldAs c b old e σ` — the error is one of a category, and tells the last failure if there is one.
* `Nameable v` — a table may be registered under the value, or be refused for it.

## Main results

* `concludes_fetchAll_failures` — a statement succeeds exactly when nothing failed.
* `concludes_readAll` — so does a reading, and it tells of its failures.
* `foreign_of_registerTables` — a registration fails outside the categories for a name only.
* `fill_wraps_failures` — how every filling ends, by the part of it that failed.
-/

namespace DbSchema.Source

open Probe

variable {c : Connection} {b : Store} {old : List Event}

/-! ### The last failure -/

/-- The message of the last failure among requests that follow those of the past. -/
def lastFailure (c : Connection) (past : List Request) : List Request → Option String
  | [] => none
  | r :: talk => (lastFailure c (past ++ [r]) talk).or (c.respond past r).failure?

theorem lastFailure_concat (c : Connection) (past talk : List Request) (r : Request) :
    lastFailure c past (talk ++ [r]) =
      (c.respond (past ++ talk) r).failure?.or (lastFailure c past talk) := by
  induction talk generalizing past with
  | nil => simp [lastFailure]
  | cons q talk ih => simp [lastFailure, ih, Option.or_assoc]

variable (c b old) in
/-- What happened since the events `old` has the given last failure. -/
abbrev LastFailed (failure : Option String) (σ : Session) : Prop :=
  Course b old (lastFailure c (requests old) · = failure) σ.trace

/-- After a request that is answered the last failure is the one before; a request that fails is
refused with the last failure. -/
theorem concludes_request_failures (failure : Option String) (r : Request) :
    Concludes (LastFailed c b old failure) (request c r) (fun _ => LastFailed c b old failure)
      fun e => LastFailed c b old e.driver? := by
  intro σ hσ
  rw [outcome_request, Session.journal]
  rcases hreply : (c.respond (requests σ.trace) r).failure? with _ | m
  all_goals
    refine hσ.asked fun talk hpast hlast => ?_
    rw [lastFailure_concat, ← hpast, hreply, hlast]
    rfl

/-- **A statement succeeds when nothing fails**, and is refused with the last failure otherwise: a
cursor is closed even after a failure, and when that fails as well only the second one is told. -/
theorem concludes_fetchAll_failures (sql : String) (params : Option (List Value)) :
    Concludes (LastFailed c b old none) (fetchAll c sql params)
      (fun _ => LastFailed c b old none) fun e => LastFailed c b old e.driver? := by
  have hask : ∀ r, Concludes (LastFailed c b old none) (request c r)
      (fun _ => LastFailed c b old none) fun e => LastFailed c b old e.driver? :=
    concludes_request_failures none
  cases hc : c.usesCursors with
  | false => exact concludes_fetchAll_of_query hc (hask _)
  | true =>
    exact concludes_fetchAll_of_cursor hc (hask _) (hask _) (hask _) (hask _) fun e =>
      concludes_request_failures e.driver? _

/-! ### Failures of a reading -/

/-- The watch of failures: none so far, until one stops the reading. -/
def Watch.ofFailures (c : Connection) (b : Store) (old : List Event) : Watch c where
  past := Course b old (lastFailure c (requests old) · = none)
  failed m := Course b old (lastFailure c (requests old) · = some m)
  store := b.Extends
  name _ := True
  edited h hst := h.edited hst
  fetched sql params := (concludes_fetchAll_failures sql params).weaken (fun _ h => h)
    (fun _ _ h => ⟨h, fun _ _ _ _ _ _ => trivial⟩) fun e _ h => by cases e <;> exact h

theorem Watch.lastFailed_of_stops {e : SourceError} {σ : Session}
    (h : (Watch.ofFailures c b old).Stops e σ) : LastFailed c b old e.driver? σ := by
  have hstopped := h.stopped
  cases e <;> exact hstopped

variable (c b old) in
/-- The error is one of a category, and it tells the last failure if there was one. -/
structure ToldAs (e : SourceError) (σ : Session) : Prop where
  own : e.isForeign = false
  told : ∃ failure, LastFailed c b old failure σ ∧
    ∀ m ∈ failure, ∃ vendor, vendorOf c.driver = .ok vendor ∧ e = .stopped vendor m

theorem toldAs_of_own {P : Store → Prop} {e : SourceError} (he : e.isForeign = false) {σ : Session}
    (h : (Watch.ofFailures c b old).Holds P σ) : ToldAs c b old e σ :=
  ⟨he, none, h.past, fun m hm => by cases hm⟩

/-- Reading all tables has no failure, or ends with an error that tells the last one. -/
theorem concludes_readTables {vendor : Vendor} (hv : vendorOf c.driver = .ok vendor) (r : Reader) :
    Concludes ((Watch.ofFailures c b old).Holds b.Extends) (readTables vendor c r)
      (fun _ => LastFailed c b old none) (ToldAs c b old) := by
  have hread : ∀ name, Reads (Watch.ofFailures c b old) b name fun t => Making b t name :=
    fun name => reads_making (fun _ h => h) name
  refine concludes_attempt (keeps_readListed (fun name _ => hread name) r)
    (fun tables => .pure fun _ h => h.past) fun e => Concludes.get_bind fun σ _ => .throw ?_
  intro σ' h
  refine ⟨isForeign_readingError vendor _ e, e.driver?, Watch.lastFailed_of_stops h, ?_⟩
  intro m hm
  -- only what a driver reports has a last failure, and that is wrapped
  cases e <;> cases hm
  exact ⟨vendor, hv, rfl⟩

/-- Choosing a reader fails for a reason of a category, unless an option has a name of the
reader's. -/
theorem refuses_ofOptions {options : Params} (hopts : ∀ o ∈ options, o.1 ∉ Reader.takenNames)
    (vendor : Vendor) :
    RefusesWith (fun e => e.isForeign = false) (Reader.ofOptions vendor options) := by
  have hnone : ¬ options.any fun o => Reader.takenNames.contains o.1 := by
    simpa using hopts
  intro σ e σ' h
  rw [Reader.ofOptions, if_neg hnone] at h
  cases vendor with
  | databricks =>
    dsimp only at h
    split at h <;> cases h
    rfl
  | _ => cases h

/-- **A reading tells of its failures.**  It succeeds only when no request failed, and whenever one
did, it ends with an error of the introspection that tells the last failure. -/
theorem concludes_readAll {options : Params} (hopts : ∀ o ∈ options, o.1 ∉ Reader.takenNames) :
    Concludes ((Watch.ofFailures c b old).Holds b.Extends) (readAll c options)
      (fun _ => LastFailed c b old none) (ToldAs c b old) := by
  let w := Watch.ofFailures c b old
  unfold readAll
  split
  · exact .throw_bind fun _ h => toldAs_of_own rfl h
  rcases hv : vendorOf c.driver with e | vendor
  · have he : e.isForeign = false := by
      rw [vendorOf] at hv
      split at hv <;> cases hv
      rfl
    exact .throw_bind fun _ h => toldAs_of_own he h
  refine Concludes.bind (Q := fun v σ => v = vendor ∧ w.Holds b.Extends σ)
    (.pure fun _ h => ⟨rfl, h⟩) fun v => ?_
  rintro σ₀ ⟨rfl, hσ₀⟩
  -- what is told first is written to the log alone
  have htell : ∀ line, Concludes (w.Holds b.Extends) (tell .info line)
      (fun _ => w.Holds b.Extends) (ToldAs c b old) :=
    fun _ σ hσ => ⟨hσ.store, hσ.known, hσ.past⟩
  refine Concludes.bind (htell _) (fun _ => ?_) σ₀ hσ₀
  refine Concludes.bind (Q := fun _ => w.Holds b.Extends) (fun σ hσ => ?_) fun reader =>
    (concludes_readTables hv reader).bind fun _ => .pure fun _ h => h
  -- choosing a reader leaves the state alone
  have hsame := outcome_ofOptions v options σ
  rcases ho : outcome (Reader.ofOptions v options) σ with ⟨e | reader, σ'⟩ <;>
    rw [ho] at hsame <;> subst hsame
  · exact toldAs_of_own (refuses_ofOptions hopts v _ _ _ ho) hσ
  · exact hσ

/-! ### Failures of a registration -/

/-- A table may be listed under the value, and refused for it: the value is fit for a key, and a
message can show it. -/
def Nameable (v : Value) : Prop := v.hashable ∧ v.showFault? = none

section

variable {st : Store} {s : SchemaId} {t : TableId}

theorem not_nameable_of_lookupTable {name : Value} {e : ModelError}
    (h : lookupTable st s name = .error e) : ¬ Nameable name := by
  rintro ⟨hkey, -⟩
  rw [lookupTable, if_pos hkey] at h
  cases h

/-- A name conflict is told by showing the name. -/
theorem not_nameable_of_nameConflict {name : Value}
    (h : (ModelError.nameConflict name).fault?.isSome) : ¬ Nameable name := by
  rintro ⟨-, hshow⟩
  have hfault : (ModelError.nameConflict name).fault? = name.showFault? := rfl
  rw [hfault, hshow] at h
  cases h

theorem not_nameable_of_mayList {e : ModelError} (h : Edit.mayList st s t = .error e)
    (he : e.fault?.isSome) : ¬ Nameable (st.table t).name := by
  rw [Edit.mayList] at h
  split at h
  · rcases hl : lookupTable st s (st.table t).name with e' | _ | u <;> rw [hl] at h
    · exact not_nameable_of_lookupTable hl
    · cases h
    · dsimp only at h
      split at h <;> cases h
      exact not_nameable_of_nameConflict he
  · cases h
    cases he

/-- **A registration fails outside the categories for a name only.**  The names are those from
before the registration, which renames no table. -/
theorem foreign_of_registerTables (s : SchemaId) (tables : List TableId) :
    Concludes (fun st' : Store => ∀ t, (st'.table t).name = (st.table t).name)
      (registerTables s tables) (fun _ st' => ∀ t, (st'.table t).name = (st.table t).name)
      fun e _ => e.fault?.isSome → ∃ t ∈ tables, ¬ Nameable (st.table t).name := by
  refine Concludes.bind (Concludes.forM tables fun t ht st' hst => ?_) fun _ =>
    Concludes.forM tables fun t ht st' hst => ?_
  · rw [checkNew, outcome_get_bind, outcome_bind, Edit.outcome_ask]
    rcases hl : lookupTable st' s (st'.table t).name with e | _ | u
    · exact fun _ => ⟨t, ht, hst t ▸ not_nameable_of_lookupTable hl⟩
    · exact hst
    · exact fun he => ⟨t, ht, hst t ▸ not_nameable_of_nameConflict he⟩
  · rw [outcome_discard, Edit.outcome_addTable_object, Edit.outcome_register]
    rcases hm : Edit.mayList st' s t with e | u
    · exact fun he => ⟨t, ht, hst t ▸ not_nameable_of_mayList hm he⟩
    · exact fun u => (name_listedAll st' s [t] u).trans (hst u)

end

/-! ### How a filling ends -/

/-- Databases are reached through the drivers of their vendors: a driver opens what a data source
name asks for, or refuses to with a message.  Workspaces are reached by other means. -/
def throughDrivers (installed : List Vendor) (drive : Opening → Except String Connection) : Access
  | .database dsn user password => do
    let opening ← openingOf installed dsn user password
    (drive opening).mapError .driver
  | .workspace _ _ => .error (.notInstalled Vendor.databricks.driver (driverExtra .databricks))

section

variable {installed : List Vendor} {drive : Opening → Except String Connection}
  {given : Option Connection} {dsn user password : Option String}

/-- A data source name asks for an opening, or is refused for a reason of a category, or cannot be
taken apart. -/
theorem openingOf_error {dsn : String} {e : SourceError}
    (h : openingOf installed dsn user password = .error e) :
    e.isForeign = false ∨ ∃ f, e = .model (.fault f) := by
  rw [openingOf] at h
  split at h
  · cases h
    exact Or.inr ⟨_, rfl⟩
  split at h
  · cases h
  split at h
  · cases h
    exact Or.inl rfl
  split at h
  · cases h
    exact Or.inr ⟨_, rfl⟩
  split at h <;> cases h
  exact Or.inl rfl

/-- A client that has to be connected to is the one that the driver gives. -/
theorem clientOf_throughDrivers {name : String} (hname : name ≠ "") {opening : Opening}
    (ho : openingOf installed name user password = .ok opening) :
    clientOf (throughDrivers installed drive) none (some name) user password =
      (drive opening).mapError .driver := by
  simp only [clientOf, Option.getD_some, hname, if_false]
  rw [throughDrivers, ho]
  rfl

variable (installed drive dsn user password) in
/-- No connection is had, for a reason outside the categories: the driver refuses it, or the data
source name cannot be taken apart. -/
inductive Unreached : SourceError → Prop
  | refused {opening : Opening} {m : String}
      (asked : openingOf installed (dsn.getD "") user password = .ok opening)
      (refused : drive opening = .error m) : Unreached (.driver m)
  | unreadable {f : Fault}
      (asked : openingOf installed (dsn.getD "") user password = .error (.model (.fault f))) :
      Unreached (.model (.fault f))

theorem unreached_of_clientOf {e : SourceError}
    (h : clientOf (throughDrivers installed drive) given dsn user password = .error e)
    (he : e.isForeign) : given = none ∧ Unreached installed drive dsn user password e := by
  rcases given with _ | c'
  · refine ⟨rfl, ?_⟩
    simp only [clientOf] at h
    split at h
    · cases h
      cases he
    rw [throughDrivers] at h
    rcases ho : openingOf installed (dsn.getD "") user password with e' | opening <;> rw [ho] at h
    · cases h
      rcases openingOf_error ho with hown | ⟨f, rfl⟩
      · rw [hown] at he
        cases he
      · exact .unreadable ho
    · replace h : (drive opening).mapError SourceError.driver = .error e := h
      rcases hd : drive opening with m | c' <;> rw [hd] at h <;> cases h
      exact .refused ho hd
  · cases h

/-- All tables are read, and one of them has a name that is unfit for registering it. -/
def ReadsUnnameable (access : Access) (given : Option Connection)
    (dsn user password : Option String) (options : Params) (σ : Session) : Prop :=
  ∃ found σ', outcome (reading access given dsn user password options) σ = (.ok found, σ') ∧
    ∃ t ∈ found.2, ¬ Nameable (σ'.store.table t).name

/-- A registration that follows a reading fails outside the categories for a name only. -/
theorem not_nameable_of_registering {s : SchemaId} {found : Vendor × List TableId} {e : SourceError}
    {σ σ' : Session} (h : outcome (registering s found) σ = (.error e, σ')) (he : e.isForeign) :
    ∃ t ∈ found.2, ¬ Nameable (σ.store.table t).name := by
  have hregister := foreign_of_registerTables s found.2 σ.store fun _ => rfl
  rw [registering, outcome_bind, outcome_edit] at h
  rcases ho : outcome (registerTables s found.2) σ.store with ⟨x | u, st⟩ <;> rw [ho] at h hregister
  · cases h
    exact hregister he
  · cases h

/-- How a filling from a client ends after the given events of its reading; `unfit` is what else
may keep the tables from being registered, outside the categories. -/
structure EndsAfter (c : Connection) (past : List Request) (read : List Event) (unfit : Prop)
    (r : Except SourceError (List TableId)) : Prop where
  /-- A driver that fails to close is heard as it is. -/
  closing : ∀ m, (c.respond (past ++ requests read) .close).failure? = some m →
    r = .error (.driver m)
  /-- Otherwise the last failure of the reading leaves as an error of the introspection. -/
  reading : (c.respond (past ++ requests read) .close).failure? = none →
    ∀ m, lastFailure c past (requests read) = some m → ∃ vendor, vendorOf c.driver = .ok vendor ∧
      ∃ e, r = .error e ∧ ∀ shown, e.report? shown =
        some ⟨.introspection, vendor.label ++ " introspection failed: " ++ m, []⟩
  /-- All other errors are of a category, but for those about names. -/
  registering : (c.respond (past ++ requests read) .close).failure? = none →
    ∀ e, r = .error e → e.isForeign → unfit

section

variable {past : List Request} {read : List Event} {unfit : Prop}

theorem endsAfter_of_closing {m : String}
    (h : (c.respond (past ++ requests read) .close).failure? = some m) :
    EndsAfter c past read unfit (.error (.driver m)) where
  closing m' hm' := by
    cases h.symm.trans hm'
    rfl
  reading hnone := by cases h.symm.trans hnone
  registering hnone := by cases h.symm.trans hnone

theorem endsAfter_of_toldAs {σ : Session} {e : SourceError}
    (h : (c.respond (requests old ++ requests read) .close).failure? = none)
    (htrace : σ.trace = old ++ read) (he : ToldAs c b old e σ) :
    EndsAfter c (requests old) read unfit (.error e) where
  closing m hm := by cases h.symm.trans hm
  reading _ m hm := by
    obtain ⟨failure, ⟨talk, htalk, hlast, -⟩, htold⟩ := he.told
    cases List.append_cancel_left (htrace.symm.trans htalk)
    obtain ⟨vendor, hv, rfl⟩ := htold m (hlast.symm.trans hm)
    exact ⟨vendor, hv, _, rfl, fun _ => rfl⟩
  registering _ e' he' hforeign := by
    cases he'
    rw [he.own] at hforeign
    cases hforeign

theorem endsAfter_of_registering {r : Except SourceError (List TableId)}
    (h : (c.respond (past ++ requests read) .close).failure? = none)
    (hlast : lastFailure c past (requests read) = none)
    (hr : ∀ e, r = .error e → e.isForeign → unfit) : EndsAfter c past read unfit r where
  closing m hm := by cases h.symm.trans hm
  reading _ m hm := by cases hlast.symm.trans hm
  registering _ := hr

end

/-- **How every filling ends.**  A filling without a client ends with what kept it from having one;
that is outside the categories only when a driver refused the connection or the data source name
cannot be taken apart.  A filling with a client reads, closes and registers, and each part ends it
in its own way. -/
theorem fill_wraps_failures {s : SchemaId} {options : Params} {σ σ' : Session}
    {r : Except SourceError (List TableId)}
    (hopts : ∀ o ∈ options, o.1 ∉ fillNames ∧ o.1 ∉ Reader.takenNames)
    (h : outcome (fill (throughDrivers installed drive) s given dsn user password options) σ =
      (r, σ')) :
    (∀ e, clientOf (throughDrivers installed drive) given dsn user password = .error e →
      r = .error e ∧ (e.isForeign → given = none ∧ Unreached installed drive dsn user password e)) ∧
    ∀ c, clientOf (throughDrivers installed drive) given dsn user password = .ok c →
      ∃ read after, σ'.trace = σ.trace ++ read ++ .asked .close :: after ∧ requests after = [] ∧
        EndsAfter c σ.journal read
          (ReadsUnnameable (throughDrivers installed drive) given dsn user password options σ)
          r := by
  have ho : ¬ options.any fun o => fillNames.contains o.1 := by
    simpa using fun o ho => (hopts o ho).1
  refine ⟨fun e hc => ⟨?_, unreached_of_clientOf hc⟩, fun c hc => ?_⟩
  · rw [fill_eq, outcome_bind, reading_of_no_client ho hc] at h
    cases h
    rfl
  obtain ⟨opened, hread⟩ := reading_of_client ho hc σ
  have hstart : (Watch.ofFailures c σ.store σ.trace).Holds σ.store.Extends { σ with opened } :=
    ⟨.refl _, .refl _, [], (List.append_nil _).symm, rfl, by simp⟩
  have hends := concludes_readAll (fun o ho => (hopts o ho).2) _ hstart
  rw [fill_eq, outcome_bind, hread] at h
  have hclosed := outcome_readAndClose c options { σ with opened }
  rcases hall : outcome (readAll c options) { σ with opened } with ⟨result, σ₁⟩
  rw [hall] at hends hclosed
  -- whether the reading succeeded or not, what happened in it is known
  obtain ⟨read, htrace⟩ : ∃ read, σ₁.trace = σ.trace ++ read := by
    rcases result with e | found
    · obtain ⟨failure, ⟨read, htrace, -⟩, -⟩ := hends.told
      exact ⟨read, htrace⟩
    · obtain ⟨read, htrace, -⟩ := hends
      exact ⟨read, htrace⟩
  have hjournal : σ₁.journal = σ.journal ++ requests read := by
    rw [Session.journal, htrace, requests_append]
    rfl
  dsimp only at hclosed
  rw [hjournal, htrace] at hclosed
  rcases hclose : (c.respond (σ.journal ++ requests read) .close).failure? with _ | m <;>
    rw [hclose] at hclosed <;> rw [hclosed] at h
  · rcases result with e | found
    · cases h
      exact ⟨read, [], rfl, rfl, endsAfter_of_toldAs hclose htrace hends⟩
    · obtain ⟨talk, htalk, hlast, -⟩ := hends
      cases List.append_cancel_left (htrace.symm.trans htalk)
      obtain ⟨after, hafter, hquiet⟩ := registering_trace s found
        { σ₁ with trace := σ.trace ++ read ++ [.asked .close] }
      dsimp only at h
      rw [h] at hafter
      refine ⟨read, after, by simpa using hafter, hquiet,
        endsAfter_of_registering hclose hlast ?_⟩
      rintro e rfl hforeign
      exact ⟨found, _, hread.trans hclosed, not_nameable_of_registering h hforeign⟩
  · cases h
    exact ⟨read, [], rfl, rfl, endsAfter_of_closing hclose⟩

/-- A database server that loses its clients when they fetch rows. -/
def losingServer : Connection where
  usesCursors := true
  driver := "psycopg2"
  respond _ r :=
    match r with
    | .fetch => .failed "server closed the connection unexpectedly"
    | _ => .done

/-- Filling a schema from such a server ends with an error of the introspection. -/
theorem fill_wraps_failures_of_lost_connection :
    let σ : Session := { store := history [.makeSchema (.text "shop") (.text "")] }
    let dsn := some "postgresql://app@db/shop"
    let options : Params := [("db_schema", .text "public")]
    let access := throughDrivers [.postgres] fun _ => .ok losingServer
    ∃ e σ', outcome (fill access ⟨0⟩ none dsn none none options) σ = (.error e, σ') ∧
      e.message (fun _ => "") =
        "PostgreSQL introspection failed: server closed the connection unexpectedly" ∧
      ∃ read after, σ'.trace = σ.trace ++ read ++ .asked .close :: after ∧ requests after = [] ∧
        EndsAfter losingServer σ.journal read
          (ReadsUnnameable access none dsn none none options σ) (.error e) := by
  intro σ dsn options access
  have hopts : ∀ o ∈ options, o.1 ∉ fillNames ∧ o.1 ∉ Reader.takenNames := by
    simp [options, fillNames, Reader.takenNames]
  have hmessage : (match (outcome (fill access ⟨0⟩ none dsn none none options) σ).1 with
      | .error e => e.message fun _ => ""
      | .ok _ => "") =
      "PostgreSQL introspection failed: server closed the connection unexpectedly" := by
    decide +kernel
  have hopening : (openingOf [.postgres] (dsn.getD "") none none).toOption.isSome := by
    decide +kernel
  have hclient : clientOf access none dsn none none = .ok losingServer := by
    rcases hasked : openingOf [.postgres] (dsn.getD "") none none with e | opening <;>
      rw [hasked] at hopening
    · cases hopening
    · exact clientOf_throughDrivers (by decide) hasked
  rcases ho : outcome (fill access ⟨0⟩ none dsn none none options) σ with ⟨e | tables, σ'⟩ <;>
    rw [ho] at hmessage
  · exact ⟨e, σ', rfl, hmessage, (fill_wraps_failures hopts ho).2 _ hclient⟩
  · simp at hmessage

/-- A file that cannot be opened: what the driver says of it is heard as it is. -/
theorem not_wrapped_of_refused_connection :
    ¬ ∀ (installed : List Vendor) (drive : Opening → Except String Connection) (s : SchemaId)
        (given : Option Connection) (dsn user password : Option String) (options : Params)
        (σ σ' : Session) (e : SourceError),
      (∀ o ∈ options, o.1 ∉ fillNames ∧ o.1 ∉ Reader.takenNames) →
      (given.isSome ∨ (openingOf installed (dsn.getD "") user password).toOption.isSome) →
      outcome (fill (throughDrivers installed drive) s given dsn user password options) σ =
        (.error e, σ') →
      e.isForeign = false := by
  intro h
  let drive : Opening → Except String Connection := fun _ => .error "unable to open database file"
  let dsn := some "sqlite:////no/such/dir/shop.db"
  have hopening : (openingOf [] (dsn.getD "") none none).toOption.isSome := by decide +kernel
  have hrefused : (match (outcome (fill (throughDrivers [] drive) ⟨0⟩ none dsn none none [])
      { store := history [.makeSchema (.text "shop") (.text "")] }).1 with
      | .error e => e.isForeign
      | .ok _ => false) = true := by decide +kernel
  rcases ho : outcome (fill (throughDrivers [] drive) ⟨0⟩ none dsn none none [])
    { store := history [.makeSchema (.text "shop") (.text "")] } with ⟨e | tables, σ'⟩ <;>
    rw [ho] at hrefused
  · have hown := h [] drive ⟨0⟩ none dsn none none [] _ σ' e (by simp) (.inr hopening) ho
    exact Bool.false_ne_true (hown.symm.trans hrefused)
  · cases hrefused

end

end DbSchema.Source
