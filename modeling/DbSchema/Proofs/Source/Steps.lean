import DbSchema.Proofs.Cells
import DbSchema.Proofs.Outcome
import DbSchema.Source.Reader

/-!
# Steps of reading

Reading a database is made of requests, of lines in a log, and of operations on the store.  Only the
last change the store, and only the first are seen by the connection.  What is true of the store and
of what happened so far is therefore kept by a step as soon as its requests and its operations keep
it.

## Main definitions

* `NameColumn sql column` — the column holds names that are taken as they are.
* `Watch c` — what is watched while the database behind `c` is read: what happened, before and
  after a failure of the driver, what any step may leave of the store, and the names that are taken
  as they are.
* `Watch.Stops w e` — what the watch knows when a step ends with the error `e`.
* `Keeps w P step` — started under the watch where `P` holds of the store, the step ends under the
  watch, and with `P` if it succeeds.
* `Gives w P step Q` — the same, with a fact about what a successful step gives.

## Main results

* `Keeps.bind`, `Keeps.forM`, `Gives.bind` — steps made of steps.
* `concludes_fetchAll_of_query`, `concludes_fetchAll_of_cursor` — asking for rows.
* `keeps_tell`, `keeps_plain`, `gives_fetchAll` and their like — steps that leave the store alone.
* `concludes_edit`, `Keeps.edit` — operations on the store.
-/

namespace DbSchema.Source

open Probe

variable {α β γ : Type} {c : Connection}

/-! ### Requests -/

/-- The message of a reply that is a failure. -/
def Reply.failure? : Reply → Option String
  | .failed m => some m
  | _ => none

theorem requests_append (l l' : List Event) : requests (l ++ l') = requests l ++ requests l' :=
  List.filterMap_append

/-- A request is noted, and its answer is given unless it is a failure. -/
theorem outcome_request (c : Connection) (r : Request) (σ : Session) :
    outcome (request c r) σ =
      (match (c.respond σ.journal r).failure? with
        | some m => .error (.driver m)
        | none => .ok (c.respond σ.journal r),
        { σ with trace := σ.trace ++ [.asked r] }) := by
  rw [request, outcome_get_bind, outcome_bind, outcome_set]
  dsimp only
  rcases c.respond σ.journal r <;> rfl

/-- A step that tells a value and succeeds goes on with the text of the value. -/
theorem outcome_of_plain {v : Value} {f : String → Probe β} {σ σ' : Session} {b : β}
    (h : outcome (plain v >>= f) σ = (.ok b, σ')) :
    outcome (f (σ.store.plain v)) σ = (.ok b, σ') := by
  unfold plain at h
  split at h
  · rw [outcome_throw_bind] at h
    cases h
  · rwa [bind_assoc, outcome_get_bind, outcome_pure_bind] at h

/-- Trying a step always succeeds and gives what came of it. -/
theorem outcome_attempt (step : Probe α) (σ : Session) :
    outcome (ExceptT.lift (ExceptT.run step) : Probe (Except SourceError α)) σ =
      (.ok (outcome step σ).1, (outcome step σ).2) := rfl

/-- Going on from what came of a step. -/
theorem concludes_attempt {P : Session → Prop} {Q : α → Session → Prop} {R : β → Session → Prop}
    {E F : SourceError → Session → Prop} {step : Probe α} {f : Except SourceError α → Probe β}
    (h : Concludes P step Q E) (hok : ∀ a, Concludes (Q a) (f (.ok a)) R F)
    (herror : ∀ e, Concludes (E e) (f (.error e)) R F) :
    Concludes P ((ExceptT.lift (ExceptT.run step) : Probe (Except SourceError α)) >>= f) R F := by
  intro σ hσ
  have hstep := h σ hσ
  rw [outcome_bind, outcome_attempt]
  rcases ho : outcome step σ with ⟨e | a, σ'⟩ <;> rw [ho] at hstep
  · exact herror e σ' hstep
  · exact hok a σ' hstep

/-- A step after which something is closed in any case, where closing may end the conditions that
the step kept. -/
theorem concludes_closing {P : Session → Prop} {Q R : α → Session → Prop}
    {E F : SourceError → Session → Prop} {step : Probe α} {close : Probe Unit}
    (h : Concludes P step Q E) (hok : ∀ a, Concludes (Q a) close (fun _ => R a) F)
    (herror : ∀ e, Concludes (E e) close (fun _ => F e) F) :
    Concludes P (closing step close) R F :=
  concludes_attempt h (fun a => (hok a).bind fun _ => .pure fun _ h => h)
    fun e => (herror e).bind fun _ => .throw fun _ h => h

/-! ### The store and the rows of a statement -/

/-- The step leaves the store as it was. -/
def LeavesStore (step : Probe α) : Prop := ∀ σ, (outcome step σ).2.store = σ.store

theorem leavesStore_iff {step : Probe α} :
    LeavesStore step ↔ ∀ st, Ensures (fun σ => σ.store = st) step (fun _ σ => σ.store = st)
      fun σ => σ.store = st := by
  refine ⟨fun h st => Ensures.iff_outcome.mpr fun σ hσ => (h σ).trans hσ, fun h σ => ?_⟩
  exact Ensures.iff_outcome.mp (h σ.store) σ rfl

/-- Without cursors asking for rows is a query. -/
theorem concludes_fetchAll_of_query {P : Session → Prop} {E : SourceError → Session → Prop}
    {sql : String} {params : Option (List Value)} (hc : c.usesCursors = false)
    (h : Concludes P (request c (.query sql params)) (fun _ => P) E) :
    Concludes P (fetchAll c sql params) (fun _ => P) E := by
  rw [fetchAll, hc, if_neg (by simp)]
  refine Concludes.bind h fun reply => ?_
  split <;> exact .pure fun _ h => h

/-- **Asking for rows through a cursor**, by what its requests leave: `P` holds while no cursor is
open and `R` while one is, `F` where something was refused before the cursor is closed. -/
theorem concludes_fetchAll_of_cursor {P R : Session → Prop} {E F : SourceError → Session → Prop}
    {sql : String} {params : Option (List Value)} (hc : c.usesCursors = true)
    (hopen : Concludes P (request c .openCursor) (fun _ => R) E)
    (hexecute : Concludes R (request c (.execute sql params)) (fun _ => R) F)
    (hfetch : Concludes R (request c .fetch) (fun _ => R) F)
    (hclose : Concludes R (request c .closeCursor) (fun _ => P) E)
    (hfailed : ∀ e, Concludes (F e) (request c .closeCursor) (fun _ => E e) E) :
    Concludes P (fetchAll c sql params) (fun _ => P) E := by
  have hopened : Concludes P (discard (request c .openCursor)) (fun _ => R) E := hopen.discard
  have hclosed : Concludes R (discard (request c .closeCursor)) (fun _ => P) E := hclose.discard
  have hdropped : ∀ e, Concludes (F e) (discard (request c .closeCursor)) (fun _ => E e) E :=
    fun e => (hfailed e).discard
  rw [fetchAll, hc, if_pos rfl]
  refine Concludes.bind hopened fun _ => concludes_closing ?_ (fun _ => hclosed) hdropped
  refine Concludes.bind hexecute fun columns => ?_
  -- the rows are asked for whether or not the statement has told its columns
  split
  all_goals
    refine Concludes.bind (Q := fun _ => R) (.pure fun _ h => h) fun names => ?_
    refine Concludes.bind hfetch fun rows => ?_
    split <;> exact .pure fun _ h => h

/-- Asking for rows changes what happened so far only, whether a cursor is used or not, and so
keeps what is not about that. -/
theorem ensures_fetchAll {P : Session → Prop} (hP : ∀ {σ} trace, P σ → P { σ with trace })
    (c : Connection) (sql : String) (params : Option (List Value)) :
    Ensures P (fetchAll c sql params) (fun _ => P) P := by
  have hask : ∀ r, Ensures P (request c r) (fun _ => P) P := fun r =>
    Ensures.iff_outcome.mpr fun σ hσ => by
      rw [outcome_request]
      exact hP _ hσ
  cases hc : c.usesCursors with
  | false => exact concludes_fetchAll_of_query hc (hask _)
  | true =>
    exact concludes_fetchAll_of_cursor hc (hask _) (hask _) (hask _) (hask _) fun _ => hask _

theorem leavesStore_fetchAll (c : Connection) (sql : String) (params : Option (List Value)) :
    LeavesStore (fetchAll c sql params) :=
  leavesStore_iff.mpr fun _ => ensures_fetchAll (fun _ h => h) c sql params

/-! ### Watches -/

/-- The column of the rows that the statement gives holds names that are taken as they are: those of
the tables, and those of the primary keys.  All others are tidied. -/
inductive NameColumn : String → String → Prop
  | pragmas : NameColumn Pragmas.listStatement "name"
  | views : NameColumn StandardViews.tablesStatement "table_name"
  | catalog (p : Place) : NameColumn (Catalog.tablesStatement p) "table_name"
  | viewsKey : NameColumn StandardViews.keysStatement "constraint_name"
  | catalogKey (p : Place) (table : String) :
      NameColumn (Catalog.keyStatement p table) "constraint_name"

/-- The names in the rows that a statement gives. -/
def NamesIn (P : Value → Prop) (sql : String) (rows : List Row) : Prop :=
  ∀ row ∈ rows, ∀ column v, NameColumn sql column → row.find column = some v → P v

/-- The message of an error that is a failure of the driver. -/
def SourceError.driver? : SourceError → Option String
  | .driver m => some m
  | _ => none

/-- What happened when a step ends with an error: of a failure of the driver `failed` holds, and
of all others what held before. -/
def Stopped (past : List Event → Prop) (failed : String → List Event → Prop) (e : SourceError) :
    List Event → Prop :=
  e.driver?.elim past failed

/-- What is watched while a database is read. -/
structure Watch (c : Connection) where
  /-- A condition on what happened so far, until the driver fails. -/
  past : List Event → Prop
  /-- A condition on what happened when the driver failed with the message. -/
  failed : String → List Event → Prop
  /-- A condition on the store, whatever happens. -/
  store : Store → Prop
  /-- A condition on the names that are taken as they are. -/
  name : Value → Prop
  edited : ∀ {events st}, past events → store st → past (events ++ [.edited st])
  fetched : ∀ sql params, Concludes (fun σ : Session => past σ.trace) (fetchAll c sql params)
    (fun rows σ => past σ.trace ∧ NamesIn name sql rows) fun e σ => Stopped past failed e σ.trace

namespace Watch

/-- A failure of the driver is no end of what holds so far. -/
def Steady {c : Connection} (w : Watch c) : Prop := ∀ m events, w.failed m events → w.past events

/-- The watch of the store alone. -/
def ofStore (c : Connection) (P : Store → Prop) : Watch c where
  past _ := True
  failed _ _ := True
  store := P
  name _ := True
  edited _ _ := trivial
  fetched sql params σ _ := by
    dsimp only
    rcases outcome (fetchAll c sql params) σ with ⟨e | rows, σ'⟩
    · cases e <;> trivial
    · exact ⟨trivial, fun _ _ _ _ _ _ => trivial⟩

theorem steady_ofStore (c : Connection) (P : Store → Prop) : (ofStore c P).Steady :=
  fun _ _ _ => trivial

/-- The state is under the watch, and something more is known of the store. -/
structure Holds (w : Watch c) (P : Store → Prop) (σ : Session) : Prop where
  store : w.store σ.store
  known : P σ.store
  past : w.past σ.trace

/-- The state is under the watch. -/
abbrev Sees (w : Watch c) : Session → Prop := w.Holds fun _ => True

/-- The state is one that the watch has when a step ends with the error. -/
structure Stops (w : Watch c) (e : SourceError) (σ : Session) : Prop where
  store : w.store σ.store
  stopped : Stopped w.past w.failed e σ.trace

/-- An operation on the store keeps to the watch, and keeps what is known when it succeeds. -/
def Stays (w : Watch c) (P : Store → Prop) (e : Edit α) : Prop :=
  Ensures (fun st => w.store st ∧ P st) e (fun _ st => w.store st ∧ P st) w.store

variable {w : Watch c} {P : Store → Prop} {σ : Session}

theorem Holds.sees (h : w.Holds P σ) : w.Sees σ := ⟨h.store, trivial, h.past⟩

/-- An error that the driver is not to blame for leaves the state under the watch. -/
theorem Holds.stops (h : w.Holds P σ) {e : SourceError} (he : e.driver? = none) : w.Stops e σ :=
  ⟨h.store, by rw [Stopped, he]; exact h.past⟩

/-- Under a steady watch a state stays whatever the error is. -/
theorem Stops.sees (hw : w.Steady) {e : SourceError} (h : w.Stops e σ) : w.Sees σ := by
  refine ⟨h.store, trivial, ?_⟩
  have hpast := h.stopped
  rw [Stopped] at hpast
  rcases hm : e.driver? with _ | m <;> rw [hm] at hpast
  · exact hpast
  · exact hw m _ hpast

theorem Holds.mono {Q : Store → Prop} (h : w.Holds P σ) (hPQ : P σ.store → Q σ.store) :
    w.Holds Q σ := ⟨h.store, hPQ h.known, h.past⟩

end Watch

/-- Started under the watch where `P` holds, the step ends under the watch; when it succeeds, `P`
holds again and its result is as told. -/
def Gives (w : Watch c) (P : Store → Prop) (step : Probe α) (Q : α → Prop) : Prop :=
  Concludes (w.Holds P) step (fun a σ => w.Holds P σ ∧ Q a) w.Stops

/-- The same, with nothing told of the result. -/
def Keeps (w : Watch c) (P : Store → Prop) (step : Probe α) : Prop :=
  Concludes (w.Holds P) step (fun _ => w.Holds P) w.Stops

section

variable {w : Watch c} {P : Store → Prop} {step : Probe α} {f : α → Probe β} {Q : α → Prop}

namespace Keeps

theorem pure (a : α) : Keeps w P (Pure.pure a : Probe α) := fun _ hσ => hσ

theorem throw {e : SourceError} (he : e.driver? = none) :
    Keeps w P (MonadExcept.throw e : Probe α) :=
  Concludes.throw fun _ h => h.stops he

/-- The step ends under a steady watch, whether it succeeds or not. -/
theorem sees (h : Keeps w P step) (hw : w.Steady) {σ : Session} (hσ : w.Holds P σ) :
    w.Sees (outcome step σ).2 :=
  Ensures.iff_outcome.mp
    (h.weaken (fun _ h => h) (fun _ _ h => h.sees) fun _ _ h => h.sees hw) σ hσ

theorem throw_bind {g : γ → Probe β} {e : SourceError} (he : e.driver? = none) :
    Keeps w P (MonadExcept.throw e >>= g) :=
  Concludes.throw_bind fun _ h => h.stops he

theorem bind (h : Keeps w P step) (hf : ∀ a, Keeps w P (f a)) : Keeps w P (step >>= f) :=
  Concludes.bind h hf

/-- A step may look at the state first. -/
theorem get_bind {f : Session → Probe β} (hf : ∀ σ, Keeps w P (f σ)) : Keeps w P (get >>= f) :=
  Concludes.get_bind fun σ _ => hf σ

/-- A change of the state that is neither of its store nor of what happened. -/
theorem modify {g : Session → Session}
    (hg : ∀ σ, (g σ).store = σ.store ∧ (g σ).trace = σ.trace) :
    Keeps w P (modify g : Probe Unit) := by
  intro σ hσ
  obtain ⟨hstore, htrace⟩ := hg σ
  exact ⟨hstore ▸ hσ.store, hstore ▸ hσ.known, htrace ▸ hσ.past⟩

theorem discard (h : Keeps w P step) : Keeps w P (Functor.discard step) := Concludes.discard h

theorem ite {p : Prop} [Decidable p] {g : Probe α} (h : Keeps w P step) (hg : Keeps w P g) :
    Keeps w P (if p then step else g) := by
  split
  · exact h
  · exact hg

theorem forM {g : γ → Probe PUnit} (l : List γ) (h : ∀ c ∈ l, Keeps w P (g c)) :
    Keeps w P (l.forM g) := Concludes.forM l h

theorem mapM {g : γ → Probe β} (l : List γ) (h : ∀ c ∈ l, Keeps w P (g c)) :
    Keeps w P (l.mapM g) := Concludes.mapM l h

end Keeps

namespace Gives

theorem keeps (h : Gives w P step Q) : Keeps w P step :=
  Concludes.weaken h (fun _ h => h) (fun _ _ h => h.1) fun _ _ h => h

theorem pure {a : α} (ha : Q a) : Gives w P (Pure.pure a : Probe α) Q := fun _ hσ => ⟨hσ, ha⟩

theorem throw {e : SourceError} (he : e.driver? = none) :
    Gives w P (MonadExcept.throw e : Probe α) Q :=
  Concludes.throw fun _ h => h.stops he

theorem ite {p : Prop} [Decidable p] {g : Probe α} (h : Gives w P step Q) (hg : Gives w P g Q) :
    Gives w P (if p then step else g) Q := by
  split
  · exact h
  · exact hg

theorem bind {R : β → Prop} (h : Gives w P step Q) (hf : ∀ a, Q a → Gives w P (f a) R) :
    Gives w P (step >>= f) R :=
  Concludes.bind h fun a σ hσ => hf a hσ.2 σ hσ.1

theorem mapM {R : γ → β → Prop} {g : γ → Probe β} (l : List γ)
    (h : ∀ c ∈ l, Gives w P (g c) (R c)) : Gives w P (l.mapM g) (List.Forall₂ R l) := by
  induction l with
  | nil => exact pure .nil
  | cons c l ih =>
    rw [List.mapM_cons]
    exact (h c List.mem_cons_self).bind fun _ hb =>
      (ih fun d hd => h d (List.mem_cons_of_mem c hd)).bind fun _ hbs => pure (.cons hb hbs)

/-- What follows may use what is known of the result. -/
theorem keeps_bind (h : Gives w P step Q) (hf : ∀ a, Q a → Keeps w P (f a)) :
    Keeps w P (step >>= f) :=
  Concludes.bind h fun a σ hσ => hf a hσ.2 σ hσ.1

end Gives

theorem Keeps.gives_bind {R : β → Prop} (h : Keeps w P step) (hf : ∀ a, Gives w P (f a) R) :
    Gives w P (step >>= f) R := Concludes.bind h hf

end

/-! ### Operations on the store -/

theorem outcome_edit (e : Edit α) (σ : Session) :
    outcome (edit e) σ =
      ((outcome e σ.store).1.mapError .model,
        { σ with store := (outcome e σ.store).2,
                 trace := σ.trace ++ [.edited (outcome e σ.store).2] }) := by
  rw [edit, outcome_get_bind]
  rcases he : outcome e σ.store with ⟨x | a, st⟩
  · have hrun : e.run σ.store = (.error x, st) := he
    rw [hrun]
    rfl
  · have hrun : e.run σ.store = (.ok a, st) := he
    rw [hrun]
    rfl

section

variable {w : Watch c} {P : Store → Prop}

/-- An operation on the store, with what it leaves under the watch. -/
theorem concludes_edit {e : Edit α} {Q : α → Store → Prop}
    (h : Ensures (fun st => w.store st ∧ P st) e (fun a st => w.store st ∧ Q a st) w.store) :
    Concludes (w.Holds P) (edit e) (fun a => w.Holds (Q a)) w.Stops := by
  intro σ hσ
  have he := h σ.store ⟨hσ.store, hσ.known⟩
  rw [outcome_edit]
  rcases ho : outcome e σ.store with ⟨x | a, st⟩ <;> rw [ho] at he
  · exact ⟨he, w.edited hσ.past he⟩
  · exact ⟨he.1, he.2, w.edited hσ.past he.1⟩

theorem Keeps.edit {e : Edit α} (h : w.Stays P e) : Keeps w P (Probe.edit e) := concludes_edit h

/-! ### Steps that leave the store alone -/

theorem keeps_pureStep (r : Except Fault α) : Keeps w P (pureStep r) := by
  cases r with
  | ok a => exact .pure a
  | error f => exact .throw rfl

/-- A pure step that succeeds gives what it computes. -/
theorem gives_pureStep (r : Except Fault α) : Gives w P (pureStep r) fun a => r = .ok a := by
  cases r with
  | ok a => exact .pure rfl
  | error f => exact .throw rfl

theorem keeps_tell (level : Level) (line : String) : Keeps w P (tell level line) :=
  .modify fun _ => ⟨rfl, rfl⟩

theorem keeps_plain (v : Value) : Keeps w P (plain v) := by
  unfold plain
  split
  · exact .throw rfl
  · exact .get_bind fun _ => .pure _

/-- The names in the rows that a statement gives are as the watch has it. -/
theorem gives_fetchAll (sql : String) (params : Option (List Value)) :
    Gives w P (fetchAll c sql params) (NamesIn w.name sql) := by
  intro σ hσ
  have hpast := w.fetched sql params σ hσ.past
  have hstore := leavesStore_fetchAll c sql params σ
  rcases ho : outcome (fetchAll c sql params) σ with ⟨e | rows, σ'⟩ <;> rw [ho] at hpast hstore
  · exact ⟨hstore ▸ hσ.store, hpast⟩
  · exact ⟨⟨hstore ▸ hσ.store, hstore ▸ hσ.known, hpast.1⟩, hpast.2⟩

theorem keeps_fetchAll (sql : String) (params : Option (List Value)) :
    Keeps w P (fetchAll c sql params) := (gives_fetchAll sql params).keeps

end

end DbSchema.Source
