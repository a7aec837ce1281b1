import DbSchema.Proofs.Model.Sound
import DbSchema.Proofs.Source.Course

/-!
# Schemas that are pulled

The readers take names of tables and of primary keys as they are.  If a database gives texts for
them, then every table that is read is sound, whatever else the database answers: all of it is
tidied by the operations that fill the table.  A new schema that is filled from the database lists
such tables under their names.

## Main definitions

* `GivesTexts c` — those names are texts in all rows that the connection gives.
* `Watch.ofTexts` — a reading from such a connection.

## Main results

* `reads_sound` — reading a table makes a sound one.
* `fill_sound`, `pull_sound` — a schema without tables is filled with sound tables.
-/

namespace DbSchema.Source

open Probe

/-- The names of tables and of primary keys are texts in all rows that the connection gives. -/
def GivesTexts (c : Connection) : Prop :=
  ∀ sql params σ rows σ', outcome (fetchAll c sql params) σ = (.ok rows, σ') →
    NamesIn IsText sql rows

variable {c : Connection} {b : Store} {t : TableId} {name : Value}

/-- Without cursors, the rows are those of the answers to queries. -/
theorem givesTexts_of_queries (hc : c.usesCursors = false)
    (h : ∀ past sql params rows, c.respond past (.query sql params) = .rows rows →
      NamesIn IsText sql rows) : GivesTexts c := by
  intro sql params σ rows σ' ho
  rw [fetchAll, hc, if_neg Bool.false_ne_true, outcome_bind, outcome_request] at ho
  rcases hreply : c.respond σ.journal (.query sql params) with _ | answer | _ | _ | m <;>
    rw [hreply] at ho <;> cases ho
  all_goals first
    | exact h σ.journal sql params _ hreply
    | exact fun row hrow => absurd hrow List.not_mem_nil

/-- The watch of a connection whose names are texts. -/
def Watch.ofTexts (h : GivesTexts c) : Watch c where
  past _ := True
  failed _ _ := True
  store _ := True
  name := IsText
  edited _ _ := trivial
  fetched sql params σ _ := by
    dsimp only
    rcases ho : outcome (fetchAll c sql params) σ with ⟨e | rows, σ'⟩
    · cases e <;> trivial
    · exact ⟨trivial, h sql params σ rows σ' ho⟩

/-! ### Sound tables -/

/-- A sound table is being built, under the name that it was listed under. -/
structure MakingSound (b : Store) (t : TableId) (given : Value) (st : Store) : Prop
    extends Making b t given st where
  listed : IsText given ∨ given = .null
  sound : st.SoundTable t

/-- The name of such a table is a text: what counts as false gives an empty one. -/
theorem MakingSound.isText {st : Store} (h : MakingSound b t name st) :
    IsText (st.table t).name := by
  rw [h.name]
  split
  · next htruthy =>
    refine h.listed.resolve_right fun hnull => ?_
    rw [hnull] at htruthy
    cases htruthy
  · exact ⟨"", rfl⟩

/-- An operation that goes on building a table with its name keeps it sound as soon as it leaves a
sound table. -/
theorem stays_makingSound {α : Type} {w : Watch c} {e : Edit α} (h : w.Stays (Making b t name) e)
    (hsound : Ensures (Store.SoundTable.Built b t) e (fun _ st => st.SoundTable t) fun _ => True) :
    w.Stays (MakingSound b t name) e := by
  rintro st ⟨hst, hmake⟩
  have hnext := h st ⟨hst, hmake.toMaking⟩
  have hleft := hsound st ⟨hmake.toBuilding, hmake.sound⟩
  rcases ho : outcome e st with ⟨x | a, st'⟩ <;> rw [ho] at hnext hleft
  · exact hnext
  · exact ⟨hnext.1, hnext.2, hmake.listed, hleft⟩

/-- Whatever a table is filled with, it stays sound; the names that are given to constraints are
texts. -/
theorem filling_sound (h : GivesTexts c) :
    Filling (Watch.ofTexts h) b t (MakingSound b t name) :=
  have hfill : Filling (Watch.ofTexts h) b t (Making b t name) := filling_making fun _ _ => trivial
  { building := fun h => h.toBuilding
    addField := fun ps => stays_makingSound (hfill.addField ps) (Store.SoundTable.addField ps)
    addIndex := fun ps => stays_makingSound (hfill.addIndex ps) (Store.SoundTable.addIndex ps)
    addConstraint := fun ps =>
      stays_makingSound (hfill.addConstraint ps) (Store.SoundTable.addConstraint ps)
    addOptions := fun vs => stays_makingSound (hfill.addOptions vs) (Store.SoundTable.addOptions vs)
    extend := fun {k} hk _ hn => stays_makingSound (hfill.extend hk hn) fun st hst => by
      have hleft := hst.2.extendFields k hn
      rcases ho : outcome (Edit.extendFields k _) st with ⟨e | u, st'⟩ <;> rw [ho] at hleft
      · trivial
      · exact hleft
    rename := fun {k} hk f hf => stays_makingSound (hfill.rename hk hf) fun st hst => by
      refine hst.2.setConstraint (x := f (st.constraint k)) ?_ fun htidy => ?_
      · rcases hf (st.constraint k) with heq | ⟨v, -, heq⟩ <;> rw [heq]
      · rcases hf (st.constraint k) with heq | ⟨v, hv, heq⟩ <;> rw [heq]
        · exact htidy
        · refine ⟨?_, htidy.kind, htidy.fields, htidy.referenceFields, htidy.options⟩
          exact hv.elim id fun hempty => ⟨"", hempty⟩
    countUp := fun hi => stays_makingSound (hfill.countUp hi) fun st hst =>
      hst.2.setField ⟨rfl, rfl, rfl⟩ fun htidy => ⟨htidy.name, htidy.dataType, htidy.size⟩ }

/-- **Reading a table makes a sound one.** -/
theorem reads_sound (h : GivesTexts c) (b : Store) (hname : IsText name ∨ name = .null) :
    Reads (Watch.ofTexts h) b name fun t => MakingSound b t name where
  make := by
    intro st hst
    have hmake :=
      (reads_making (w := Watch.ofTexts h) (b := b) (fun _ _ => trivial) name).make st hst
    have hnew := Store.SoundTable.newTable name st trivial
    rcases ho : outcome (Edit.newTable { name }) st with ⟨e | t, st'⟩ <;> rw [ho] at hmake hnew
    · exact hmake
    · exact ⟨hmake.1, hmake.2, hname, hnew⟩
  fill _ := filling_sound h

/-- All tables that are read from such a connection are sound in the end, and their names are
texts. -/
theorem sound_of_readsAll (h : GivesTexts c) {options : Params} {vendor : Vendor}
    {found : List (Value × Option TableId)} {σ σ' : Session}
    (hread : ReadsAll c options σ vendor found σ') :
    σ.store.Extends σ'.store ∧ NewTables σ.store (found.filterMap (·.2)) ∧
      ∀ t ∈ found.filterMap (·.2), IsText (σ'.store.table t).name ∧ σ'.store.SoundTable t := by
  obtain ⟨-, hext, hnew, hall⟩ := hread.tables (w := .ofTexts h)
    (P := fun b name t => MakingSound b t name)
    (Q := fun _ t st => IsText (st.table t).name ∧ st.SoundTable t)
    (fun name hname b _ => reads_sound h b hname)
    (fun hmake hext => ⟨hext.table_eq hmake.inUse ▸ hmake.isText,
      hmake.sound.of_extends hext hmake.inUse⟩)
    ⟨trivial, trivial, trivial⟩
  refine ⟨hext, hnew, fun t ht => ?_⟩
  obtain ⟨e, he, het⟩ := List.mem_filterMap.mp ht
  exact hall e he t het

/-! ### Filling a schema -/

theorem soundTable_listedAll {st : Store} (h : st.SoundTable t) (s : SchemaId)
    (tables : List TableId) : (listedAll st s tables).SoundTable t := by
  induction tables using List.reverseRecOn with
  | nil => exact h
  | append_singleton l u ih =>
    rw [listedAll_append_singleton]
    exact ih.listed s u

/-- **A schema without tables is filled with sound tables**, when the names that its client gives
are texts. -/
theorem fill_sound {access : Access} {s : SchemaId} {given : Option Connection}
    {dsn user password : Option String} {options : Params} {σ σ' : Session} {tables : List TableId}
    (hs : s.index < σ.store.schemas.size) (hempty : (σ.store.schema s).tables = [])
    (htexts : ∀ c, clientOf access given dsn user password = .ok c → GivesTexts c)
    (h : outcome (fill access s given dsn user password options) σ = (.ok tables, σ')) :
    σ'.store.SoundSchema s := by
  obtain ⟨c, opened, vendor, found, σ₁, hc, hread, hregister⟩ := fill_ok h
  obtain ⟨hext, hnew, hsound⟩ := sound_of_readsAll (htexts c hc) hread
  obtain ⟨-, hreg, hstore⟩ := registering_ok hnew.nodup hregister
  -- the schema lists the tables that were read, and nothing else
  have htables : (σ'.store.schema s).tables = entriesOf σ₁.store (found.filterMap (·.2)) := by
    rw [hstore, Store.schema_setSchema_self]
    dsimp only
    rw [hext.schema_eq hs, hempty, List.nil_append]
  have hname : ∀ t, (σ'.store.table t).name = (σ₁.store.table t).name := fun t => by
    rw [hstore, Store.table_setSchema, name_listedAll]
  have hentry : ∀ e ∈ (σ'.store.schema s).tables, e.2 ∈ found.filterMap (·.2) ∧
      e.1 = (σ'.store.table e.2).name := by
    intro e he
    rw [htables] at he
    obtain ⟨t, ht, rfl⟩ := List.mem_map.mp he
    exact ⟨ht, (hname t).symm⟩
  refine ⟨fun e he => (hentry e he).2, fun e he => ?_, fun e he => ?_, fun e he => ?_,
    fun e he => ?_, ?_⟩
  · rw [hstore, Store.table_setSchema, owner_listedAll (hentry e he).1]
  · rw [hname]
    exact (hsound _ (hentry e he).1).1
  · rw [hname]
    exact hreg.1 _ (hentry e he).1
  · rw [hstore]
    exact (soundTable_listedAll (hsound _ (hentry e he).1).2 _ _).setSchema _ _
  · rw [htables]
    refine List.pairwise_map.mpr (hreg.2.imp fun {t u} hne => ?_)
    rw [hname, hname]
    exact hne

/-- What is given after a step that succeeds. -/
theorem ok_of_discard_bind {α β : Type} {step : Probe α} {x y : β} {σ σ' : Session}
    (h : outcome (discard step >>= fun _ => pure x) σ = (.ok y, σ')) :
    x = y ∧ ∃ a, outcome step σ = (.ok a, σ') := by
  rw [outcome_bind, outcome_discard] at h
  rcases ho : outcome step σ with ⟨e | a, σ₁⟩ <;> rw [ho] at h <;> cases h
  exact ⟨rfl, a, rfl⟩

/-- A successful pull makes a new schema and fills it from one client. -/
theorem fill_of_pull {access : Access} {settings : Settings} {s : SchemaId} {σ σ' : Session}
    (h : outcome (pull access settings) σ = (.ok s, σ')) :
    ∃ given dsn user password options tables σ₁,
      outcome (fill access s given dsn user password options) σ₁ = (.ok tables, σ') ∧
      (∀ c, clientOf access given dsn user password = .ok c → ∃ target, access target = .ok c) ∧
      s.index < σ₁.store.schemas.size ∧ (σ₁.store.schema s).tables = [] := by
  -- the new schema is in a cell that was not in use
  have hnew : ∀ x, σ.store.schemas.size <
      (σ.store.setSchema ⟨σ.store.schemas.size⟩ x).schemas.size := fun x => by
    rw [Store.setSchema, Slots.size_set]
    exact lt_of_lt_of_le (Nat.lt_succ_self _) (le_max_right _ _)
  rw [pull, outcome_bind] at h
  rcases hcheck : settings.check with e | u <;> rw [hcheck] at h
  · cases h
  dsimp only [decided, outcome_pure] at h
  rw [outcome_bind, outcome_edit, Edit.newSchema, Edit.outcome_addSchemaCell] at h
  dsimp only [Except.mapError] at h
  split at h
  · rcases hc : access (.workspace (settings.host.getD "") (settings.token.getD "")) with e | c
    · rw [connect, hc] at h
      cases h
    · rw [outcome_connect_bind hc] at h
      obtain ⟨rfl, tables, hfill⟩ := ok_of_discard_bind h
      refine ⟨_, _, _, _, _, tables, _, hfill, fun c' hc' => ?_, hnew _, ?_⟩
      · cases hc'
        exact ⟨_, hc⟩
      · rw [Store.schema_setSchema_self]
  · obtain ⟨rfl, tables, hfill⟩ := ok_of_discard_bind h
    refine ⟨_, _, _, _, _, tables, _, hfill, fun c hc => ?_, hnew _, ?_⟩
    · rw [clientOf] at hc
      split at hc
      · cases hc
      · exact ⟨_, hc⟩
    · rw [Store.schema_setSchema_self]

/-- So is the schema that is pulled. -/
theorem pull_sound {access : Access} {settings : Settings} {s : SchemaId} {σ' : Session}
    (htexts : ∀ target c, access target = .ok c → GivesTexts c)
    (h : outcome (pull access settings) {} = (.ok s, σ')) : σ'.store.SoundSchema s := by
  obtain ⟨given, dsn, user, password, options, tables, σ₁, hfill, hclient, hs, hempty⟩ :=
    fill_of_pull h
  refine fill_sound hs hempty (fun c hc => ?_) hfill
  obtain ⟨target, htarget⟩ := hclient c hc
  exact htexts target c htarget

end DbSchema.Source
