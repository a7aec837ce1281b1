import DbSchema.Proofs.Model.Atomicity
import DbSchema.Proofs.Model.Aside
import DbSchema.Proofs.Model.Registry

/-!
# Schemas that agree with their tables

A schema keeps a key for every table that it lists, and a table keeps a name and points to one
schema.  A schema is consistent when its keys are the names and the tables point back to it.  Every
operation on registries keeps all schemas consistent, as long as a table is registered only where no
other schema lists it.

## Main definitions

* `Store.ConsistentAt st s` — the schema `s` lists tables under their names, and they belong to it.
* `Store.Registered st` — all schemas are consistent, and tables have texts for names.
* `Store.roster st s` — what the schema `s` lists, as an ordered list of members.

## Main results

* `Store.Registered.setName`, `Store.Registered.listed`, `Store.Registered.dropped` — renaming,
  registering and dropping a table.
* `Store.Registered.sweep` — objects that go away.
-/

namespace DbSchema

open Edit

namespace Store

/-- The schema lists every table under the name that the table has, and the table belongs to it. -/
def ConsistentAt (st : Store) (s : SchemaId) : Prop :=
  ∀ e ∈ (st.schema s).tables, (st.table e.2).name = e.1 ∧ (st.table e.2).owner = some s

/-- Every schema is consistent with the tables that it lists. -/
def Consistent (st : Store) : Prop := ∀ s, st.ConsistentAt s

variable {b st : Store} {s s' : SchemaId} {t : TableId}

/-! ### One schema -/

theorem ConsistentAt.of_sameRegistries (h : b.ConsistentAt s) (hsame : b.SameRegistries st) :
    st.ConsistentAt s := by
  intro e he
  rw [hsame.tables] at he
  rw [hsame.tableName, hsame.owner]
  exact h e he

/-- A table that was not in use can be filled with anything. -/
theorem ConsistentAt.newTable (h : st.ConsistentAt s) (x : Table) :
    (st.setTable ⟨st.tables.size⟩ x).ConsistentAt s := by
  intro e he
  have hlt : e.2.index < st.tables.size := table_lt_of_owner (h e he).2
  have hne : e.2 ≠ ⟨st.tables.size⟩ := fun heq => Nat.ne_of_lt hlt (congrArg TableId.index heq)
  rw [table_setTable_of_ne st hne]
  exact h e he

/-- A table that the schema does not list can be changed in any way. -/
theorem ConsistentAt.setTable_of_not_mem (h : st.ConsistentAt s)
    (ht : t ∉ (st.schema s).tables.map (·.2)) (x : Table) : (st.setTable t x).ConsistentAt s := by
  intro e he
  have hne : e.2 ≠ t := fun heq => ht (heq ▸ List.mem_map_of_mem he)
  rw [table_setTable_of_ne st hne]
  exact h e he

/-- What another schema lists is of no matter. -/
theorem ConsistentAt.setSchema_of_ne (h : st.ConsistentAt s) (hne : s ≠ s') (x : Schema) :
    (st.setSchema s' x).ConsistentAt s := by
  intro e he
  rw [schema_setSchema_of_ne st hne] at he
  exact h e he

/-- Registering a table under its name keeps the schema that registers it consistent. -/
theorem ConsistentAt.listed (h : st.ConsistentAt s) (hmay : mayList st s t = .ok ())
    (hhash : (st.table t).name.hashable) : (listed st s t).ConsistentAt s := by
  have hname : ∀ u, ((Edit.listed st s t).table u).name = (st.table u).name := by
    intro u
    by_cases hu : u = t
    · simp [Edit.listed, hu]
    · simp [Edit.listed, table_setTable_of_ne st hu]
  have howner : ∀ u, u = t ∨ (st.table u).owner = some s →
      ((Edit.listed st s t).table u).owner = some s := by
    intro u hu
    by_cases hut : u = t
    · simp [Edit.listed, hut]
    · simpa [Edit.listed, table_setTable_of_ne st hut] using hu.resolve_left hut
  -- the name is free, or the table stands under it already
  have hmem : ∀ e ∈ ((Edit.listed st s t).schema s).tables,
      e ∈ (st.schema s).tables ∨ e = ((st.table t).name, t) := by
    intro e he
    rw [Edit.listed, schema_setSchema_self] at he
    rw [mayList, if_pos (truthy_of_mayList hmay), lookupTable, if_pos hhash, Schema.find?] at hmay
    rcases hfind : Keyed.find? Value.same (st.table t).name (st.schema s).tables with _ | u
    · rw [Keyed.put_of_find?_eq_none hfind] at he
      simpa using he
    · rw [hfind] at hmay
      have hut : u = t := by
        by_contra hne
        simp [hne] at hmay
      rw [Keyed.put_of_find?_eq_some (hut ▸ hfind)] at he
      exact Or.inl he
  intro e he
  rw [hname]
  rcases hmem e he with hold | rfl
  · exact ⟨(h e hold).1, howner e.2 (Or.inr (h e hold).2)⟩
  · exact ⟨rfl, howner t (Or.inl rfl)⟩

end Store

/-! ### All schemas -/

namespace Store

variable {b st : Store} {s : SchemaId} {t : TableId}

/-- Every schema is consistent, and all names of tables are texts. -/
structure Registered (st : Store) : Prop where
  consistent : st.Consistent
  text : ∀ t, IsText (st.table t).name

/-- What a schema lists belongs to it. -/
theorem Consistent.owner_of_mem (h : st.Consistent) (ht : t ∈ (st.schema s).tables.map (·.2)) :
    (st.table t).owner = some s := by
  obtain ⟨e, he, rfl⟩ := List.mem_map.mp ht
  exact (h s e he).2

/-- A table that belongs to no schema is listed by none. -/
theorem Consistent.not_mem_of_owner_none (h : st.Consistent) (ho : (st.table t).owner = none)
    (s : SchemaId) : t ∉ (st.schema s).tables.map (·.2) := by
  intro ht
  have howner := h.owner_of_mem ht
  rw [ho] at howner
  cases howner

/-- A table is listed by no schema but its own. -/
theorem Consistent.not_mem_of_owner_ne (h : st.Consistent) {s' : SchemaId}
    (ho : (st.table t).owner = some s') (hne : s ≠ s') :
    t ∉ (st.schema s).tables.map (·.2) := by
  intro ht
  have howner := h.owner_of_mem ht
  rw [ho] at howner
  exact hne (Option.some.inj howner).symm

/-- A new table is listed by no schema. -/
theorem Consistent.not_mem_new (h : st.Consistent) (s : SchemaId) :
    (⟨st.tables.size⟩ : TableId) ∉ (st.schema s).tables.map (·.2) := fun ht =>
  Nat.lt_irrefl _ (table_lt_of_owner (h.owner_of_mem ht))

/-- The members of a schema as an ordered list. -/
def roster (st : Store) (s : SchemaId) : Roster where
  members := (st.schema s).tables.map (·.2)
  name t := ((st.table t).name.asText?).getD ""
  attached t := (st.table t).owner == some s
  count := st.tables.size

theorem Registered.name_eq (h : st.Registered) (s : SchemaId) (t : TableId) :
    (st.table t).name = .text ((st.roster s).name t) := by
  obtain ⟨n, hn⟩ := h.text t
  simp [roster, hn, Value.asText?]

theorem Registered.hashable (h : st.Registered) (t : TableId) : (st.table t).name.hashable := by
  obtain ⟨n, hn⟩ := h.text t
  rw [hn]
  rfl

/-- A schema lists what its roster lists. -/
theorem Registered.tables_eq (h : st.Registered) (s : SchemaId) :
    (st.schema s).tables = (st.roster s).entries := by
  have hentries : (st.roster s).entries =
      (st.schema s).tables.map fun e => (.text ((st.roster s).name e.2), e.2) := by
    rw [Roster.entries, roster, List.map_map]
    rfl
  rw [hentries]
  conv_lhs => rw [← List.map_id (st.schema s).tables]
  refine List.map_congr_left fun e he => Prod.ext ?_ rfl
  rw [← h.name_eq s e.2, (h.consistent s e he).1]
  rfl

theorem Registered.wellFormed (h : st.Registered) (hst : Reachable st) (s : SchemaId) :
    (st.roster s).WellFormed where
  distinct := by
    have hkeys := (coherent_of_reachable hst).keys s
    rw [h.tables_eq s, Keyed.Distinct, Roster.entries, List.pairwise_map] at hkeys
    refine List.pairwise_map.mpr (hkeys.imp fun {t u} htu => ?_)
    simpa [Roster.same_text] using htu
  named t ht := by
    obtain ⟨e, he, rfl⟩ := List.mem_map.mp ht
    have htruthy := listsNamed_of_reachable hst s e he
    rw [h.name_eq s] at htruthy
    simpa [Value.truthy] using htruthy
  attached t ht := by simp [roster, h.consistent.owner_of_mem ht]
  known _ ht := table_lt_of_owner (h.consistent.owner_of_mem ht)

/-- A key under which a schema lists a table is the name of that table. -/
theorem Registered.holder_of_lookup (h : st.Registered) {name : Value}
    (hl : lookupTable st s name = .ok (some t)) :
    ∃ n, name = .text n ∧ (st.roster s).holder n = some t := by
  have hfind : Keyed.find? Value.same name (st.schema s).tables = some t := by
    rw [lookupTable] at hl
    split at hl
    · exact Except.ok.inj hl
    · cases hl
  obtain ⟨key, hkey, hsame⟩ := Keyed.mem_of_find? hfind
  rw [h.tables_eq s, Roster.entries] at hkey
  obtain ⟨u, -, hu⟩ := List.mem_map.mp hkey
  cases hu
  -- only a text equals the text that the key is
  obtain ⟨n, rfl⟩ : ∃ n, name = .text n := by
    cases name <;> simp [Value.same, Value.sameNumber, Value.asInt?] at hsame ⊢
  rw [h.tables_eq s, Roster.find?_entries] at hfind
  exact ⟨n, rfl, hfind⟩

/-! ### Operations on registries -/

namespace Registered

theorem of_sameRegistries (h : b.Registered) (hsame : b.SameRegistries st) : st.Registered where
  consistent s := (h.consistent s).of_sameRegistries hsame
  text t := hsame.tableName t ▸ h.text t

/-- The names stay texts when one table gets a text for its name. -/
theorem text_setTable (h : st.Registered) (t : TableId) {x : Table} (hx : IsText x.name)
    (u : TableId) : IsText ((st.setTable t x).table u).name := by
  by_cases hu : u = t
  · rwa [hu, table_setTable_self]
  · rw [table_setTable_of_ne st hu]
    exact h.text u

theorem newTable (h : st.Registered) {x : Table} (hx : IsText x.name) :
    (st.setTable ⟨st.tables.size⟩ x).Registered where
  consistent s := (h.consistent s).newTable x
  text := h.text_setTable _ hx

/-- A table that no schema lists can be changed in any way. -/
theorem setTable (h : st.Registered) (hout : ∀ s, t ∉ (st.schema s).tables.map (·.2)) {x : Table}
    (hx : IsText x.name) : (st.setTable t x).Registered where
  consistent s := (h.consistent s).setTable_of_not_mem (hout s) x
  text := h.text_setTable t hx

/-- Registering a table that no other schema lists. -/
theorem listed (h : st.Registered) (hmay : Edit.mayList st s t = .ok ())
    (hout : ∀ s', s' ≠ s → t ∉ (st.schema s').tables.map (·.2)) :
    (Edit.listed st s t).Registered where
  consistent s' := by
    by_cases hs : s' = s
    · rw [hs]
      exact (h.consistent s).listed hmay (h.hashable t)
    · exact ((h.consistent s').setTable_of_not_mem (hout s' hs) _).setSchema_of_ne hs _
  text := h.text_setTable t (h.text t)

/-- The table that a schema unregisters is in no registry any more. -/
theorem dropped (h : st.Registered) (hst : Reachable st) {name : Value}
    (hl : lookupTable st s name = .ok (some t)) : (Edit.dropped st s name t).Registered := by
  obtain ⟨n, rfl, hholder⟩ := h.holder_of_lookup hl
  have howner := h.consistent.owner_of_mem (Roster.name_of_holder hholder).1
  refine ⟨fun s' => ?_, h.text_setTable t (h.text t)⟩
  by_cases hs : s' = s
  · subst hs
    -- what is left of the roster does not have the table, so the others are as they were
    intro e he
    rw [Edit.dropped, schema_setTable, schema_setSchema_self, h.tables_eq s',
      Roster.remove_entries hholder] at he
    obtain ⟨u, hu, rfl⟩ := List.mem_map.mp he
    have hut : u ≠ t := by
      rintro rfl
      exact (h.wellFormed hst s').nodup.not_mem_erase hu
    rw [Edit.dropped, table_setTable_of_ne _ hut]
    exact ⟨h.name_eq s' u, h.consistent.owner_of_mem (List.mem_of_mem_erase hu)⟩
  · have hout := h.consistent.not_mem_of_owner_ne howner hs
    exact ((h.consistent s').setSchema_of_ne hs _).setTable_of_not_mem
      (by rwa [schema_setSchema_of_ne st hs]) _

/-- A name that a table of a schema may take is free among the members. -/
theorem mayName (h : st.Registered) (hst : Reachable st) (howner : (st.table t).owner = some s)
    {n : String} (hmay : mayTake st t (.text n) = .ok ()) :
    (st.roster s).mayName t n = .ok () := by
  obtain ⟨htruthy, hfree⟩ := mayTake_eq_ok_iff.mp hmay
  have hlookup := hfree s howner
  rw [lookupTable, if_pos (by rfl), Schema.find?, h.tables_eq s, Roster.find?_entries] at hlookup
  refine Roster.mayName_eq_ok_iff.mpr ⟨by simpa [Value.truthy] using htruthy, fun _ => ?_⟩
  rcases hlookup with hnone | hself
  · exact Roster.not_taken_of_holder_eq_none (Except.ok.inj hnone)
  · rw [Roster.taken_iff_of_holder (h.wellFormed hst s) (Except.ok.inj hself)]
    simp

/-- A listed table takes a new name, and its key follows. -/
theorem rekeyed (h : st.Registered) (hst : Reachable st) (howner : (st.table t).owner = some s)
    (hmem : t ∈ (st.roster s).members) {n : String}
    (hmay : mayTake st t (.text n) = .ok ()) :
    ((Edit.named st t (.text n)).setSchema s
      { st.schema s with
        tables := renameKey (.text ((st.roster s).name t)) (.text n)
          (st.roster s).entries }).Registered where
  consistent s' := by
    by_cases hs : s' = s
    · subst hs
      intro e he
      rw [schema_setSchema_self, Roster.renameKey_entries (h.wellFormed hst s') hmem
        (h.mayName hst howner hmay)] at he
      obtain ⟨u, hu, rfl⟩ := List.mem_map.mp he
      rw [table_setSchema, Edit.named]
      by_cases hut : u = t
      · rw [hut, table_setTable_self, Roster.renamed_name_self]
        exact ⟨rfl, howner⟩
      · rw [table_setTable_of_ne st hut, Roster.renamed_name hut]
        exact ⟨h.name_eq s' u, h.consistent.owner_of_mem hu⟩
    · have hout := h.consistent.not_mem_of_owner_ne howner hs
      exact ((h.consistent s').setTable_of_not_mem hout _).setSchema_of_ne hs _
  text := h.text_setTable t ⟨n, rfl⟩

/-- A table takes a new name, and the schema that lists it follows. -/
theorem setName (h : st.Registered) (hst : Reachable st) (t : TableId) {name : Value}
    (hname : IsText name) : (outcome (Edit.setName t name) st).2.Registered := by
  rcases hmay : mayTake st t name with e | u
  · rw [Edit.outcome_setName_of_error st t name hmay]
    exact h
  rw [Edit.outcome_setName_of_ok st t name hmay]
  rcases howner : (st.table t).owner with _ | s
  · exact h.setTable (h.consistent.not_mem_of_owner_none howner) hname
  -- no other schema lists the table, so only its own one may have to follow
  have hout : t ∉ (st.roster s).members → (Edit.named st t name).Registered := by
    intro hmem
    refine h.setTable (fun s' => ?_) hname
    by_cases hs : s' = s
    · rw [hs]
      exact hmem
    · exact h.consistent.not_mem_of_owner_ne howner hs
  dsimp only
  split
  · rw [Edit.outcome_rekey, lookupTable, if_pos (h.hashable t), Schema.find?, Edit.schema_named,
      Edit.name_named, h.tables_eq s, h.name_eq s t, Roster.find?_entries]
    have hholder := Roster.holder_name_eq_iff (t := t) (h.wellFormed hst s)
    obtain ⟨n, rfl⟩ := hname
    dsimp only
    split
    · next hlisted => exact h.rekeyed hst howner (hholder.mp hlisted) hmay
    · next hlisted => exact hout fun hmem => hlisted (hholder.mpr hmem)
  · next hempty =>
    refine hout fun hmem => hempty ?_
    obtain ⟨e, he, rfl⟩ := List.mem_map.mp hmem
    exact listsNamed_of_reachable hst s e he

/-- A new schema lists nothing. -/
theorem newSchema (h : st.Registered) {x : Schema} (hx : x.tables = []) :
    (st.setSchema ⟨st.schemas.size⟩ x).Registered where
  consistent s := by
    by_cases hs : s = ⟨st.schemas.size⟩
    · intro e he
      rw [hs, schema_setSchema_self, hx] at he
      cases he
    · exact (h.consistent s).setSchema_of_ne hs x
  text := h.text

/-- A schema that lives keeps its tables, and they keep it. -/
theorem sweep (h : st.Registered) (roots : List Ref) : (st.sweep roots).Registered where
  consistent s := by
    intro e he
    rw [schema_sweep] at he
    split at he
    · next hs =>
      have halive : Ref.table e.2 ∈ st.aliveFrom roots :=
        closedIn_aliveFrom st roots _ (by simpa using hs) _ (table_mem_holds he)
      obtain ⟨hname, howner⟩ := h.consistent s e he
      rw [table_sweep, if_pos (by simpa using halive)]
      refine ⟨hname, ?_⟩
      rw [howner, Option.filter_some, if_pos (by exact hs)]
    · cases he
  text t := by
    rw [table_sweep]
    split
    · exact h.text t
    · exact ⟨"", rfl⟩

end Registered

end Store

end DbSchema
