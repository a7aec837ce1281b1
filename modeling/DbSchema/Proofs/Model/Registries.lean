import DbSchema.Proofs.Model.Consistency

/-!
# Registries of several schemas

A table points to one schema, but nothing keeps a second schema from registering a table that a
first one lists already.  As long as that does not happen, every schema lists its tables under the
names that they have, and every listed table belongs to the schema that lists it.  From then on the
first schema follows neither the renaming of the table nor what the second schema does with it.

## Main definitions

* `Call.Orderly c` — tables get texts for names, and only registries give and take them.
* `Call.Takes st c` — the call registers a table that another schema lists.
* `ReachableBy allowed st` — some history in which every call is allowed leads to `st`.

## Main results

* `Store.Registered.of_call` — every other orderly call keeps all schemas consistent.
* `registries_consistent` — so does every run of them, and a call that takes a table never does.
* `registries_diverge` — what happens to the first schema after a table was taken from it.
-/

namespace DbSchema

open Edit

/-! ### Histories of allowed calls -/

/-- Some history of calls, each of which is allowed in the store in which it is made, and of objects
going away leads to the store. -/
inductive ReachableBy (allowed : Store → Call → Prop) : Store → Prop
  | empty : ReachableBy allowed Store.empty
  | call {st : Store} (h : ReachableBy allowed st) {c : Call} (hc : allowed st c) :
      ReachableBy allowed (c.after st)
  | sweep {st : Store} (h : ReachableBy allowed st) (roots : List Ref) :
      ReachableBy allowed (st.sweep roots)

theorem ReachableBy.reachable {allowed : Store → Call → Prop} {st : Store}
    (h : ReachableBy allowed st) : Reachable st := by
  induction h with
  | empty => exact .empty
  | call _ _ ih => exact ih.call _
  | sweep _ roots ih => exact ih.sweep roots

/-- The call gives tables texts for names, and it gives a table to a schema or takes it away only by
making, registering or dropping it. -/
def Call.Orderly : Call → Prop
  | makeTable params | addTable _ _ params => ∀ p ∈ params, p.1 = "name" → IsText p.2
  | setName _ name => IsText name
  | setOwner .. | detach _ | rekey .. => False
  | _ => True

/-- The call registers a table that another schema lists. -/
def Call.Takes (st : Store) (c : Call) : Prop :=
  ∃ s t, c = .addTable s (.object (.table t)) [] ∧ mayList st s t = .ok () ∧
    ∃ s', s' ≠ s ∧ t ∈ (st.schema s').tables.map (·.2)

/-! ### Making tables -/

namespace Edit

/-- Making a table fills one new cell, whatever comes of it.  The table in it has the name that was
asked for, or none. -/
theorem newTable_fills (spec : TableSpec) (st : Store) :
    ∃ x : Table, (outcome (newTable spec) st).2 = st.setTable ⟨st.tables.size⟩ x ∧
      (x.name = .text "" ∨ x.name = spec.name) ∧
      ∀ t, (outcome (newTable spec) st).1 = .ok t → t = ⟨st.tables.size⟩ := by
  obtain ⟨name, schema⟩ := spec
  -- a schema that is none is refused when the cell is there already
  have hrefused : ∀ v : Value, (∀ s, v ≠ .object (.schema s)) → v ≠ .null →
      ∃ e, outcome (newTable { name, schema := v }) st =
        (.error e, st.setTable ⟨st.tables.size⟩ {}) := by
    intro v hschema hnull
    cases v with
    | null => exact absurd rfl hnull
    | object r =>
      cases r with
      | schema s => exact absurd rfl (hschema s)
      | _ => exact ⟨_, rfl⟩
    | _ => exact ⟨_, rfl⟩
  by_cases hnull : schema = .null
  · subst hnull
    rw [outcome_newTable_alone]
    refine ⟨_, rfl, ?_, fun t ht => (Except.ok.inj ht).symm⟩
    dsimp only
    split
    · exact Or.inr rfl
    · exact Or.inl rfl
  by_cases hschema : ∃ s, schema = .object (.schema s)
  · obtain ⟨s, rfl⟩ := hschema
    have hunnamed : ((givenTable st s).table ⟨st.tables.size⟩).name.truthy = false := by
      simp [givenTable, Value.truthy]
    rw [outcome_newTable_given, outcome_setName_unnamed hunnamed]
    split
    · rcases mayTake (givenTable st s) ⟨st.tables.size⟩ name with e | u
      · exact ⟨_, rfl, Or.inl rfl, fun t ht => by cases ht⟩
      · refine ⟨_, by rw [named, givenTable, Store.setTable_setTable], Or.inr rfl, fun t ht => ?_⟩
        exact (Except.ok.inj ht).symm
    · exact ⟨_, rfl, Or.inl rfl, fun t ht => (Except.ok.inj ht).symm⟩
  · obtain ⟨e, he⟩ := hrefused schema (fun s hs => hschema ⟨s, hs⟩) hnull
    rw [he]
    exact ⟨_, rfl, Or.inl rfl, fun t ht => by cases ht⟩

/-- Parameters whose names are texts describe a table whose name is a text. -/
theorem isText_of_fillParams {params : Params} {spec filled : TableSpec}
    (hparams : ∀ p ∈ params, p.1 = "name" → IsText p.2) (hspec : IsText spec.name)
    (h : fillParams TableSpec.fill spec params = some filled) : IsText filled.name := by
  induction params generalizing spec with
  | nil => cases h; exact hspec
  | cons p r ih =>
    obtain ⟨key, v⟩ := p
    have hrest : ∀ p ∈ r, p.1 = "name" → IsText p.2 := fun p hp =>
      hparams p (List.mem_cons_of_mem _ hp)
    rw [fillParams] at h
    rcases hfill : spec.fill key v with _ | spec' <;> rw [hfill] at h
    · cases h
    · refine ih hrest ?_ h
      unfold TableSpec.fill at hfill
      split at hfill <;> cases hfill
      · exact hparams _ List.mem_cons_self rfl
      · exact hspec

/-- The same for a table that is made from parameters. -/
theorem newTableOf_fills {params : Params} (hparams : ∀ p ∈ params, p.1 = "name" → IsText p.2)
    (st : Store) :
    (∃ e, outcome (newTableOf params) st = (.error e, st)) ∨
    ∃ x : Table, (outcome (newTableOf params) st).2 = st.setTable ⟨st.tables.size⟩ x ∧
      IsText x.name ∧
      ∀ t, (outcome (newTableOf params) st).1 = .ok t → t = ⟨st.tables.size⟩ := by
  rw [newTableOf]
  split
  · next spec hspec =>
    obtain ⟨x, hx, hname, hid⟩ := newTable_fills spec st
    refine Or.inr ⟨x, hx, ?_, hid⟩
    rcases hname with hname | hname
    · exact ⟨"", hname⟩
    · exact hname ▸ isText_of_fillParams hparams ⟨"", rfl⟩ hspec
  · exact Or.inl ⟨_, rfl⟩

end Edit

/-! ### Calls -/

namespace Store

variable {st : Store}

theorem Registered.newTableOf (h : st.Registered) {params : Params}
    (hparams : ∀ p ∈ params, p.1 = "name" → IsText p.2) :
    (outcome (Edit.newTableOf params) st).2.Registered := by
  rcases Edit.newTableOf_fills hparams st with ⟨e, he⟩ | ⟨x, hx, htext, -⟩
  · rw [he]
    exact h
  · rw [hx]
    exact h.newTable htext

/-- Registering a table that no other schema lists, or that the schema may not list. -/
theorem Registered.register (h : st.Registered) {s : SchemaId} {t : TableId}
    (hout : Edit.mayList st s t = .ok () →
      ∀ s', s' ≠ s → t ∉ (st.schema s').tables.map (·.2)) :
    (outcome (Edit.register s t) st).2.Registered := by
  rw [Edit.outcome_register]
  rcases hmay : Edit.mayList st s t with e | u
  · exact h
  · exact h.listed hmay (hout hmay)

theorem Registered.addTable (h : st.Registered) {s : SchemaId} {table : Value} {params : Params}
    (hparams : ∀ p ∈ params, p.1 = "name" → IsText p.2)
    (htake : ¬ (Call.addTable s table params).Takes st) :
    (outcome (Edit.addTable s table params) st).2.Registered := by
  unfold Edit.addTable
  split
  · split
    · exact h
    · -- the table is made by the schema, so no other one can list it
      have hall : ∀ p ∈ ("schema", Value.object (.schema s)) :: params,
          p.1 = "name" → IsText p.2 := by
        intro p hp hname
        rcases List.mem_cons.mp hp with rfl | hp
        · simp at hname
        · exact hparams p hp hname
      rw [outcome_bind]
      rcases ho : outcome (Edit.newTableOf (("schema", .object (.schema s)) :: params)) st
        with ⟨e | t, st'⟩
      · have hmade := h.newTableOf hall
        rw [ho] at hmade
        exact hmade
      · rcases Edit.newTableOf_fills hall st with ⟨e, he⟩ | ⟨x, hx, htext, hid⟩
        · rw [he] at ho
          cases ho
        · rw [ho] at hx hid
          obtain rfl : st' = _ := hx
          obtain rfl : t = _ := hid t rfl
          exact (h.newTable htext).register fun _ s' _ => h.consistent.not_mem_new s'
  · split
    · exact h
    · next hempty =>
      split
      · next t _ =>
        refine h.register fun hmay s' hs ht => htake ?_
        have hnil : params = [] := by simpa using hempty
        exact ⟨s, t, by rw [hnil], hmay, s', hs, ht⟩
      · exact h

/-- **Every orderly call keeps all schemas consistent**, whether it is refused or not, unless it
takes a table from a schema that lists it. -/
theorem Registered.of_call (h : st.Registered) (hst : Reachable st) {c : Call} (hc : c.Orderly)
    (htake : ¬ c.Takes st) : (c.after st).Registered := by
  cases c with
  | makeSchema name database => exact h.newSchema rfl
  | makeTable params =>
    rw [Call.after, Call.run, outcome_discard]
    exact h.newTableOf hc
  | setName t name =>
    rw [Call.after, Call.run, outcome_discard]
    exact h.setName hst t hc
  | addTable s table params =>
    rw [Call.after, Call.run, outcome_discard]
    exact h.addTable hc htake
  | dropTable s name =>
    rw [Call.after, Call.run, outcome_discard, Edit.outcome_dropTable]
    split
    · exact h
    · rcases hl : lookupTable st s name with e | _ | t
      · exact h
      · exact h
      · exact h.dropped hst hl
  | setOwner => exact hc.elim
  | detach => exact hc.elim
  | rekey => exact hc.elim
  | _ => exact h.of_sameRegistries (Call.sameRegistries (by exact trivial) st)

/-- A call that takes a table leaves the schema that listed it with a table of another one. -/
theorem not_consistent_of_takes {c : Call} (h : c.Takes st) : ¬ (c.after st).Consistent := by
  obtain ⟨s, t, rfl, hmay, s', hs, ht⟩ := h
  have hafter : (Call.addTable s (.object (.table t)) []).after st = Edit.listed st s t := by
    rw [Call.after, Call.run, outcome_discard, Edit.outcome_addTable_object,
      Edit.outcome_register, hmay]
  intro hconsistent
  rw [hafter] at hconsistent
  have hstill : t ∈ ((Edit.listed st s t).schema s').tables.map (·.2) := by
    rwa [Edit.listed, schema_setSchema_of_ne _ hs, schema_setTable]
  have howner := hconsistent.owner_of_mem hstill
  rw [Edit.listed, table_setSchema, table_setTable_self] at howner
  exact hs (Option.some.inj howner).symm

/-- Dropping a table from one schema leaves what the others list, and whom it belongs to, alone. -/
theorem Registered.drop_keeps (h : st.Registered) (hst : Reachable st) {s : SchemaId}
    {name : Value} {t : TableId} {st' : Store}
    (hdrop : outcome (Edit.dropTable s name) st = (.ok t, st')) {s' : SchemaId} (hs : s' ≠ s) :
    (st'.schema s').tables = (st.schema s').tables ∧
      ∀ e ∈ (st'.schema s').tables, (st'.table e.2).owner = some s' := by
  have hkept : st'.Registered := by
    have hafter := h.of_call hst (c := .dropTable s name) trivial fun ⟨_, _, he, _⟩ => by cases he
    rwa [Call.after, Call.run, outcome_discard, hdrop] at hafter
  refine ⟨?_, fun e he => (hkept.consistent s' e he).2⟩
  rw [Edit.outcome_dropTable] at hdrop
  split at hdrop
  · cases hdrop
  · rcases hl : lookupTable st s name with e | _ | u <;> rw [hl] at hdrop <;> cases hdrop
    rw [Edit.dropped, schema_setTable, schema_setSchema_of_ne st hs]

end Store

/-! ### Histories -/

/-- In every history of orderly calls that take no table all schemas are consistent. -/
theorem registered_of_reachableBy {st : Store}
    (h : ReachableBy (fun st c => c.Orderly ∧ ¬ c.Takes st) st) : st.Registered := by
  induction h with
  | empty =>
    refine ⟨?_, fun _ => ⟨"", rfl⟩⟩
    intro s e he
    cases he
  | call h hc ih => exact ih.of_call h.reachable hc.1 hc.2
  | sweep _ roots ih => exact ih.sweep roots

/-- **Schemas are consistent with the tables that they list as long as no table is taken.**  After
any orderly calls that take no table from the schema that lists it, every schema lists its tables
under their names and they belong to it, no schema lists two tables with one name, and dropping a
table from one schema does not concern the others.  The first call that takes a table, and no other
one, ends this. -/
theorem registries_consistent {st : Store}
    (h : ReachableBy (fun st c => c.Orderly ∧ ¬ c.Takes st) st) :
    st.Consistent ∧
    (∀ s, ((st.schema s).tables.map fun e => (st.table e.2).name).Nodup) ∧
    (∀ s name t st', outcome (Edit.dropTable s name) st = (.ok t, st') → ∀ s', s' ≠ s →
      (st'.schema s').tables = (st.schema s').tables ∧
        ∀ e ∈ (st'.schema s').tables, (st'.table e.2).owner = some s') ∧
    ∀ c : Call, c.Orderly → ((c.after st).Consistent ↔ ¬ c.Takes st) := by
  have hregistered := registered_of_reachableBy h
  have hnodup : ∀ s, ((st.schema s).tables.map fun e => (st.table e.2).name).Nodup := by
    intro s
    have hnames : ((st.schema s).tables.map fun e => (st.table e.2).name) =
        ((st.roster s).members.map (st.roster s).name).map .text := by
      rw [List.map_map, Store.roster, List.map_map]
      exact List.map_congr_left fun e _ => hregistered.name_eq s e.2
    rw [hnames]
    exact (hregistered.wellFormed h.reachable s).distinct.map fun _ _ => Value.text.inj
  refine ⟨hregistered.consistent, hnodup, ?_, fun c hc => ⟨fun hconsistent htake => ?_, ?_⟩⟩
  · intro s name t st' hdrop s' hs
    exact hregistered.drop_keeps h.reachable hdrop hs
  · exact Store.not_consistent_of_takes htake hconsistent
  · intro htake
    exact (hregistered.of_call h.reachable hc htake).consistent

/-- Only registering a table that is there can take one. -/
theorem not_takes {c : Call} (h : ∀ s t, c ≠ .addTable s (.object (.table t)) []) (st : Store) :
    ¬ c.Takes st := by
  rintro ⟨s, t, rfl, -⟩
  exact h s t rfl

/-- A table is registered in one schema, dropped, registered in another one and renamed there. -/
theorem registries_consistent_of_moved_table :
    let st := history [.makeSchema (.text "a") (.text ""), .makeSchema (.text "b") (.text ""),
      .addTable ⟨0⟩ .null [("name", .text "users")], .dropTable ⟨0⟩ (.text "users"),
      .addTable ⟨1⟩ (.object (.table ⟨0⟩)) [], .setName ⟨0⟩ (.text "people")]
    ReachableBy (fun st c => c.Orderly ∧ ¬ c.Takes st) st ∧ st.Consistent ∧
      ((st.schema ⟨1⟩).tables.map fun e => (e.1.asText?, e.2)) = [(some "people", ⟨0⟩)] ∧
      ¬ ((Call.addTable ⟨0⟩ (.object (.table ⟨0⟩)) []).after st).Consistent := by
  intro st
  have hdropped : ReachableBy (fun st c => c.Orderly ∧ ¬ c.Takes st)
      (history [.makeSchema (.text "a") (.text ""), .makeSchema (.text "b") (.text ""),
        .addTable ⟨0⟩ .null [("name", .text "users")], .dropTable ⟨0⟩ (.text "users")]) :=
    (((ReachableBy.empty.call ⟨trivial, not_takes (by simp) _⟩).call
      ⟨trivial, not_takes (by simp) _⟩).call
      ⟨by simp [Call.Orderly, IsText], not_takes (by simp) _⟩).call
      ⟨trivial, not_takes (by simp) _⟩
  -- the table belongs to no schema now, so none lists it
  have hfree := (registered_of_reachableBy hdropped).consistent.not_mem_of_owner_none
    (t := ⟨0⟩) (by decide +kernel)
  have hst : ReachableBy (fun st c => c.Orderly ∧ ¬ c.Takes st) st := by
    refine (hdropped.call ⟨by simp [Call.Orderly], ?_⟩).call
      ⟨⟨"people", rfl⟩, not_takes (by simp) _⟩
    rintro ⟨s, t, hc, -, s', -, ht⟩
    cases hc
    exact hfree s' ht
  have hmay : Edit.mayList st ⟨0⟩ ⟨0⟩ = .ok () := by
    have hlisted : (Edit.mayList st ⟨0⟩ ⟨0⟩).toOption.isSome := by decide +kernel
    rcases h : Edit.mayList st ⟨0⟩ ⟨0⟩ with e | u
    · rw [h] at hlisted
      cases hlisted
    · rfl
  obtain ⟨hconsistent, -, -, hends⟩ := registries_consistent hst
  refine ⟨hst, hconsistent, by decide +kernel, fun h => (hends _ (by simp [Call.Orderly])).mp h ?_⟩
  exact ⟨⟨0⟩, ⟨0⟩, rfl, hmay, ⟨1⟩, by decide, by decide +kernel⟩

/-- What follows when a table was taken: schema `a` still lists it under its first name, and after
one more call two tables named `people`; and dropping it from there detaches it from `b`, which
lists it as before. -/
theorem registries_diverge :
    (¬ ∀ st, ReachableBy (fun _ c => c.Orderly) st → st.Consistent) ∧
    let st := history [.makeSchema (.text "a") (.text ""), .makeSchema (.text "b") (.text ""),
      .makeTable [("name", .text "users")], .addTable ⟨0⟩ (.object (.table ⟨0⟩)) [],
      .addTable ⟨1⟩ (.object (.table ⟨0⟩)) []];
    let renamed := (Call.addTable ⟨0⟩ .null [("name", .text "people")]).after
      ((Call.setName ⟨0⟩ (.text "people")).after st);
    let dropped := (Call.dropTable ⟨0⟩ (.text "users")).after st;
    ((renamed.schema ⟨0⟩).tables.map fun e => (renamed.table e.2).name.asText?) =
        [some "people", some "people"] ∧
      ((dropped.schema ⟨1⟩).tables.map fun e => (e.1.asText?, e.2)) = [(some "users", ⟨0⟩)] ∧
      (dropped.table ⟨0⟩).owner = none := by
  refine ⟨fun h => ?_, by decide +kernel, by decide +kernel, by decide +kernel⟩
  have hst : ReachableBy (fun _ c => c.Orderly)
      (history [.makeSchema (.text "a") (.text ""), .makeSchema (.text "b") (.text ""),
        .makeTable [("name", .text "users")], .addTable ⟨0⟩ (.object (.table ⟨0⟩)) [],
        .addTable ⟨1⟩ (.object (.table ⟨0⟩)) []]) :=
    ((((ReachableBy.empty.call trivial).call trivial).call
      (by simp [Call.Orderly, IsText])).call (by simp [Call.Orderly])).call (by simp [Call.Orderly])
  have howner := (h _ hst ⟨0⟩ (.text "users", ⟨0⟩) (by exact List.mem_cons_self)).2
  cases howner

end DbSchema
