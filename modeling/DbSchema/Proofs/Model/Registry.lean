import DbSchema.Proofs.Keys
import DbSchema.Proofs.Model.Atomicity
import DbSchema.Proofs.Model.Roster

/-!
# A registry is an ordered list of members

The registry of a schema holds its tables under keys, while every table holds its own name and
points to its schema.  Making, registering, renaming and dropping tables keeps the two in step:
whatever calls are made and whether they are refused or not, the registry answers like a plain list
of members with distinct names.

## Main definitions

* `RegistryCall.runOn s c` — the call `c` on the tables of the schema `s`.
* `Tracks s r st` — in `st` the schema `s` and all tables are as the list `r` says.
* `registryRun` — calls one after the other.

## Main results

* `Tracks.step` — every call gives what the list gives and leaves what the list is then.
* `registry_simulates_roster` — so does every run, and reading the registry reads the list.
-/

namespace DbSchema

/-- The call on the tables of a schema; the result is the table that it is about. -/
def RegistryCall.runOn (s : SchemaId) : RegistryCall → Edit TableId
  | .make name attached =>
    Edit.newTable { name := .text name, schema := if attached then .object (.schema s) else .null }
  | .register t => Edit.addTable s (.object (.table t)) []
  | .registerNew name => Edit.addTable s .null [("name", .text name)]
  | .drop name => Edit.dropTable s (.text name)
  | .rename t name => (fun _ => t) <$> Edit.setName t (.text name)

/-- What calls give one after the other, and the store that they leave. -/
def registryRun (s : SchemaId) (st : Store) :
    List RegistryCall → List (Except ModelError TableId) × Store
  | [] => ([], st)
  | c :: cs =>
    ((outcome (c.runOn s) st).1 :: (registryRun s (outcome (c.runOn s) st).2 cs).1,
      (registryRun s (outcome (c.runOn s) st).2 cs).2)

/-! ### Keys and members -/

namespace Roster

variable {r : Roster} {t : TableId} {n : String}

/-- The entries of a registry that lists the members. -/
def entries (r : Roster) : List (Value × TableId) := r.members.map fun t => (.text (r.name t), t)

theorem map_snd_entries (r : Roster) : r.entries.map (·.2) = r.members := by
  rw [entries, List.map_map]
  exact List.map_id _

theorem same_text (a b : String) : Value.same (.text a) (.text b) = (a == b) := by
  rw [Value.same]

theorem find?_entries (r : Roster) (n : String) :
    Keyed.find? Value.same (.text n) r.entries = r.holder n := by
  rw [entries, holder]
  induction r.members with
  | nil => rfl
  | cons t l ih =>
    rw [List.map_cons, Keyed.find?, same_text, List.find?_cons, ih]
    cases r.name t == n <;> rfl

theorem distinct_entries (h : r.WellFormed) : Keyed.Distinct Value.same r.entries := by
  rw [Keyed.Distinct, entries, List.pairwise_map]
  refine List.Pairwise.imp ?_ (List.pairwise_map.mp h.distinct)
  intro a b hab
  simpa [same_text] using hab

/-- Storing a table under its name puts it at the end, unless it stands there already. -/
theorem put_entries (h : r.WellFormed) (hfree : ¬ r.Taken t (r.name t)) :
    Keyed.put Value.same (.text (r.name t)) t r.entries = (r.enlisted t).entries := by
  have hentries : (r.enlisted t).entries =
      (if t ∈ r.members then r.members else r.members ++ [t]).map
        fun u => (.text (r.name u), u) := rfl
  rw [hentries]
  by_cases ht : t ∈ r.members
  · have hfind := (find?_entries r (r.name t)).trans ((holder_eq_some_iff h).mpr ⟨ht, rfl⟩)
    rw [if_pos ht]
    exact Keyed.put_of_find?_eq_some hfind
  · have hnone : r.holder (r.name t) = none := by
      rcases hh : r.holder (r.name t) with _ | u
      · rfl
      · obtain ⟨hu, hn⟩ := name_of_holder hh
        exact absurd ⟨u, hu, fun he => ht (he ▸ hu), hn⟩ hfree
    rw [if_neg ht, List.map_append, Keyed.put_of_find?_eq_none ((find?_entries r _).trans hnone)]
    rfl

/-- Removing the key of a member strikes it. -/
theorem remove_entries (h : r.holder n = some t) :
    Keyed.remove Value.same (.text n) r.entries = (r.struck t).entries := by
  -- the induction is on the list alone: a shorter list is no roster
  have hlist : ∀ l : List TableId, l.find? (fun u => r.name u == n) = some t →
      Keyed.remove Value.same (.text n) (l.map fun u => (.text (r.name u), u)) =
        (l.erase t).map fun u => (.text (r.name u), u) := by
    intro l hl
    induction l with
    | nil => cases hl
    | cons u l ih =>
      rw [List.map_cons, Keyed.remove, same_text]
      rw [List.find?_cons] at hl
      by_cases hu : r.name u = n
      · simp only [hu, beq_self_eq_true, if_true] at hl ⊢
        cases hl
        rw [List.erase_cons_head]
      · simp only [beq_eq_false_iff_ne.mpr hu, Bool.false_eq_true, if_false] at hl ⊢
        have hne : u ≠ t := by
          rintro rfl
          exact hu (by simpa using List.find?_some hl)
        rw [ih hl, List.erase_cons_tail (by simpa using hne), List.map_cons]
  exact hlist r.members h

/-- Moving the key of a member to its new name renames it in its place. -/
theorem renameKey_entries (h : r.WellFormed) (ht : t ∈ r.members) (hmay : r.mayName t n = .ok ()) :
    Edit.renameKey (.text (r.name t)) (.text n) r.entries = (r.renamed t n).entries := by
  -- names are distinct, so only the entry of the table changes its key
  have hmap : r.entries.map (fun e => (if Value.same e.1 (.text (r.name t)) then .text n else e.1,
      e.2)) = (r.renamed t n).entries := by
    have hentries : (r.renamed t n).entries =
        r.members.map fun u => (.text ((r.renamed t n).name u), u) := rfl
    rw [hentries, entries, List.map_map]
    refine List.map_congr_left fun u hu => ?_
    dsimp only [Function.comp]
    rw [same_text]
    by_cases hut : u = t
    · rw [hut, renamed_name_self]
      simp
    · have hne : r.name u ≠ r.name t := fun he => hut (h.eq_of_name_eq hu ht he)
      rw [renamed_name hut]
      simp [hne]
  rw [Edit.renameKey, hmap, Keyed.ofList_eq_self (distinct_entries (h.renamed hmay))]

/-- Renaming a table that is no member does not concern the registry. -/
theorem entries_renamed_of_not_mem (ht : t ∉ r.members) (n : String) :
    (r.renamed t n).entries = r.entries :=
  List.map_congr_left fun u hu => by
    have hne : u ≠ t := fun he => ht (he ▸ hu)
    rw [renamed_name hne]

theorem holder_name_eq_iff (h : r.WellFormed) :
    r.holder (r.name t) = some t ↔ t ∈ r.members := by
  simp [holder_eq_some_iff h]

end Roster

/-! ### The tracked store -/

/-- The registry lists the members, and every table has its name and points to its schema. -/
structure Tracks (s : SchemaId) (r : Roster) (st : Store) : Prop where
  tables : (st.schema s).tables = r.entries
  count : st.tables.size = r.count
  name : ∀ t : TableId, t.index < r.count → (st.table t).name = .text (r.name t)
  owner : ∀ t : TableId, t.index < r.count →
    (st.table t).owner = if r.attached t then some s else none

namespace Tracks

variable {s : SchemaId} {r : Roster} {st : Store} {t : TableId} {n : String}

theorem lookupTable_eq (h : Tracks s r st) (n : String) :
    lookupTable st s (.text n) = .ok (r.holder n) := by
  rw [lookupTable, if_pos (by rfl), Schema.find?, h.tables, Roster.find?_entries]

theorem truthy_text (n : String) : (Value.text n).truthy = true ↔ n ≠ "" := by
  simp [Value.truthy]

theorem mayTake_eq (h : Tracks s r st) (hw : r.WellFormed) (ht : t.index < r.count) (n : String) :
    mayTake st t (.text n) = r.mayName t n := by
  rw [mayTake, Roster.mayName, h.owner t ht]
  by_cases hn : n = ""
  · simp [hn, Value.truthy]
  · rw [if_pos ((truthy_text n).mpr hn), if_neg hn]
    by_cases ha : r.attached t
    · simp only [ha, if_true, true_and, h.lookupTable_eq]
      rcases hh : r.holder n with _ | u
      · rw [if_neg (Roster.not_taken_of_holder_eq_none hh)]
      · by_cases hu : u = t <;> simp [Roster.taken_iff_of_holder hw hh, hu]
    · simp [ha]

theorem mayList_eq (h : Tracks s r st) (hw : r.WellFormed) (ht : t.index < r.count) :
    Edit.mayList st s t = r.mayEnlist t := by
  rw [Edit.mayList, Roster.mayEnlist, h.name t ht]
  by_cases hn : r.name t = ""
  · simp [hn, Value.truthy]
  · simp only [(truthy_text _).mpr hn, if_true, hn, if_false, h.lookupTable_eq]
    rcases hh : r.holder (r.name t) with _ | u
    · rw [if_neg (Roster.not_taken_of_holder_eq_none hh)]
    · by_cases hu : u = t <;> simp [Roster.taken_iff_of_holder hw hh, hu]

/-- One more table without a name. -/
theorem grow (h : Tracks s r st) (hw : r.WellFormed) (attached : Bool) :
    Tracks s (r.grow attached)
      (st.setTable ⟨st.tables.size⟩ { owner := if attached then some s else none }) := by
  have hold : ∀ u : TableId, u.index < r.count + 1 → u ≠ ⟨r.count⟩ → u.index < r.count := by
    intro u hu hne
    exact Nat.lt_of_le_of_ne (Nat.le_of_lt_succ hu) fun he => hne (by cases u; exact congrArg _ he)
  rw [h.count]
  refine ⟨?_, ?_, fun u hu => ?_, fun u hu => ?_⟩
  · rw [Store.schema_setTable, h.tables]
    exact List.map_congr_left fun u hu => by
      have hne : u ≠ ⟨r.count⟩ := fun he => hw.not_mem_new (he ▸ hu)
      rw [Roster.grow_name attached hne]
  · rw [Store.setTable, Slots.size_set, h.count]
    simp [Roster.grow]
  · by_cases hu' : u = ⟨r.count⟩
    · rw [hu', Store.table_setTable_self, Roster.grow_name_new]
    · rw [Store.table_setTable_of_ne st hu', Roster.grow_name attached hu']
      exact h.name u (hold u hu hu')
  · by_cases hu' : u = ⟨r.count⟩
    · rw [hu', Store.table_setTable_self, Roster.grow_attached_new]
    · rw [Store.table_setTable_of_ne st hu', Roster.grow_attached attached hu']
      exact h.owner u (hold u hu hu')

/-- A change of a table that there is, and of the registry, as a change of the list. -/
theorem of_setTable (h : Tracks s r st) (ht : t.index < r.count) {r' : Roster} {x : Table}
    {st' : Store} (hst : st'.tables = (st.setTable t x).tables)
    (htables : (st'.schema s).tables = r'.entries) (hcount : r'.count = r.count)
    (hname : x.name = .text (r'.name t))
    (howner : x.owner = if r'.attached t then some s else none)
    (hnames : ∀ u, u ≠ t → r'.name u = r.name u)
    (howners : ∀ u, u ≠ t → r'.attached u = r.attached u) : Tracks s r' st' := by
  have htable : ∀ u, st'.table u = (st.setTable t x).table u := fun u => by
    rw [Store.table, hst]
    rfl
  refine ⟨htables, ?_, fun u hu => ?_, fun u hu => ?_⟩
  · rw [hst, Store.setTable, Slots.size_set, h.count, hcount]
    omega
  · rw [hcount] at hu
    rw [htable]
    by_cases hut : u = t
    · rw [hut, Store.table_setTable_self, hname]
    · rw [Store.table_setTable_of_ne st hut, hnames u hut]
      exact h.name u hu
  · rw [hcount] at hu
    rw [htable]
    by_cases hut : u = t
    · rw [hut, Store.table_setTable_self, howner]
    · rw [Store.table_setTable_of_ne st hut, howners u hut]
      exact h.owner u hu

/-! ### Every call -/

/-- What a call gives and leaves is what the list gives and is then. -/
def Answers (s : SchemaId) (op : Edit TableId) (st : Store)
    (reply : Except ModelError TableId × Roster) : Prop :=
  (outcome op st).1 = reply.1 ∧ Tracks s reply.2 (outcome op st).2

/-- A table with another name that is no member. -/
theorem renamed_of_not_mem (h : Tracks s r st) (ht : t.index < r.count) (hmem : t ∉ r.members)
    (n : String) : Tracks s (r.renamed t n) (Edit.named st t (.text n)) := by
  refine h.of_setTable ht rfl ?_ rfl ?_ (h.owner t ht) (fun u hu => Roster.renamed_name hu)
    fun _ _ => rfl
  · rw [Roster.entries_renamed_of_not_mem hmem]
    exact h.tables
  · rw [Roster.renamed_name_self]

/-- Renaming gives what the list gives. -/
theorem setName (h : Tracks s r st) (hw : r.WellFormed) (ht : t.index < r.count) (n : String) :
    Answers s ((fun _ => t) <$> Edit.setName t (.text n)) st
      (match r.mayName t n with
        | .error e => (.error e, r)
        | .ok () => (.ok t, r.renamed t n)) := by
  have hmay := h.mayTake_eq hw ht n
  rw [Answers, outcome_map]
  rcases hm : r.mayName t n with e | u
  · rw [Edit.outcome_setName_of_error st t _ (hmay.trans hm)]
    exact ⟨rfl, h⟩
  · rw [Edit.outcome_setName_of_ok st t _ (hmay.trans hm)]
    dsimp only
    rw [h.owner t ht, h.name t ht]
    by_cases ha : r.attached t
    · simp only [ha, if_true]
      by_cases hn : r.name t = ""
      · -- a table without a name is no member, so the registry does not follow
        have hmem : t ∉ r.members := fun hmem => hw.named t hmem hn
        simp only [hn, Value.truthy, bne_self_eq_false, Bool.false_eq_true, if_false]
        exact ⟨rfl, h.renamed_of_not_mem ht hmem n⟩
      · have hlookup : lookupTable (Edit.named st t (.text n)) s (.text (r.name t)) =
            .ok (r.holder (r.name t)) := h.lookupTable_eq (r.name t)
        rw [if_pos ((truthy_text _).mpr hn), Edit.outcome_rekey, hlookup]
        dsimp only
        by_cases hmem : t ∈ r.members
        · rw [if_pos ((Roster.holder_name_eq_iff hw).mpr hmem)]
          refine ⟨rfl, h.of_setTable ht rfl ?_ rfl ?_ (h.owner t ht)
            (fun u hu => Roster.renamed_name hu) fun _ _ => rfl⟩
          · rw [Store.schema_setSchema_self, Edit.name_named, Edit.schema_named, h.tables]
            exact Roster.renameKey_entries hw hmem hm
          · rw [Roster.renamed_name_self]
        · rw [if_neg fun hh => hmem ((Roster.holder_name_eq_iff hw).mp hh)]
          exact ⟨rfl, h.renamed_of_not_mem ht hmem n⟩
    · have hmem : t ∉ r.members := fun hmem => ha (hw.attached t hmem)
      rw [if_neg ha]
      exact ⟨rfl, h.renamed_of_not_mem ht hmem n⟩

/-- Registering gives what the list gives. -/
theorem register (h : Tracks s r st) (hw : r.WellFormed) (ht : t.index < r.count) :
    Answers s (Edit.register s t) st (r.register t) := by
  rw [Answers, Edit.outcome_register, h.mayList_eq hw ht, Roster.register]
  rcases hm : r.mayEnlist t with e | u
  · exact ⟨rfl, h⟩
  · refine ⟨rfl, h.of_setTable ht rfl ?_ rfl (h.name t ht) ?_ (fun _ _ => rfl)
      fun u hu => Roster.enlisted_attached hu⟩
    · rw [Edit.listed, Store.schema_setSchema_self, h.tables, h.name t ht]
      exact Roster.put_entries hw (Roster.mayEnlist_eq_ok_iff.mp hm).2
    · rw [Roster.enlisted_attached_self, if_pos rfl]

/-- Dropping gives what the list gives. -/
theorem drop (h : Tracks s r st) (hw : r.WellFormed) (n : String) :
    Answers s (Edit.dropTable s (.text n)) st (r.step (.drop n)) := by
  rw [Answers, Edit.outcome_dropTable, h.lookupTable_eq, Roster.step]
  rcases hh : r.holder n with _ | t
  · dsimp only
    split <;> exact ⟨rfl, h⟩
  · have hmem := (Roster.name_of_holder hh).1
    have hne : ¬ (st.schema s).tables.isEmpty := by
      rw [h.tables, Roster.entries, List.isEmpty_map, List.isEmpty_iff]
      exact List.ne_nil_of_mem hmem
    rw [if_neg hne]
    refine ⟨rfl, h.of_setTable (hw.known t hmem) rfl ?_ rfl (h.name t (hw.known t hmem)) ?_
      (fun _ _ => rfl) fun u hu => Roster.struck_attached hu⟩
    · dsimp only
      rw [Edit.dropped, Store.schema_setTable, Store.schema_setSchema_self, h.tables]
      exact Roster.remove_entries hh
    · rw [Roster.struck_attached_self, if_neg (by simp)]

/-- Making a table gives what the list gives: it is given to the schema first, if at all, and takes
its name then. -/
theorem make (h : Tracks s r st) (hw : r.WellFormed) (n : String) (attached : Bool) :
    Answers s (RegistryCall.runOn s (.make n attached)) st (r.make n attached) := by
  have hgrow := h.grow hw attached
  have hnew : (⟨r.count⟩ : TableId).index < (r.grow attached).count := Nat.lt_succ_self _
  have hname := hgrow.setName (hw.grow attached) hnew n
  rw [h.count] at hname hgrow
  rw [Answers, outcome_map] at hname
  rw [Answers, Roster.make]
  cases attached with
  | false =>
    have hmay : (r.grow false).mayName ⟨r.count⟩ n =
        if n = "" then .error .missingTableName else .ok () := by
      rw [Roster.mayName, Roster.grow_attached_new]
      simp
    have hout : (⟨r.count⟩ : TableId) ∉ (r.grow false).members := hw.not_mem_new
    rw [RegistryCall.runOn, if_neg (by simp), Edit.outcome_newTable_alone, h.count, hmay]
    by_cases hn : n = ""
    · simp only [hn, if_true]
      exact ⟨trivial, hgrow⟩
    · simp only [hn, (truthy_text n).mpr hn, if_true, if_false]
      have hnamed := hgrow.renamed_of_not_mem hnew hout n
      rw [Edit.named, Store.table_setTable_self, Store.setTable_setTable] at hnamed
      exact ⟨trivial, hnamed⟩
  | true =>
    rw [RegistryCall.runOn, if_pos rfl, Edit.outcome_newTable_given, Edit.givenTable, h.count]
    by_cases hn : n = ""
    · simp only [hn, Value.truthy, bne_self_eq_false, Bool.false_eq_true, if_false, if_true]
      exact ⟨trivial, hgrow⟩
    · simp only [(truthy_text n).mpr hn, hn, if_true, if_false]
      exact hname

/-- **Every call gives what the list gives**, and leaves what the list is then. -/
theorem step (h : Tracks s r st) (hw : r.WellFormed) {c : RegistryCall} (hc : c.Refers r.count) :
    Answers s (c.runOn s) st (r.step c) := by
  cases c with
  | make name attached => exact h.make hw name attached
  | register t => exact h.register hw hc
  | registerNew name =>
    -- a table made by the schema is made like any other and registered then
    have hmade : outcome (Edit.newTableOf [("schema", .object (.schema s)), ("name", .text name)])
        st = outcome (RegistryCall.runOn s (.make name true)) st := rfl
    obtain ⟨hreply, htracks⟩ := h.make hw name true
    have hwell := hw.make name true
    have hcount := Roster.count_make (r := r) name true
    rw [Answers, RegistryCall.runOn, Edit.outcome_addTable_null st s (by rfl), hmade, Roster.step]
    rcases ho : outcome (RegistryCall.runOn s (.make name true)) st with ⟨reply, st'⟩
    rcases hm : r.make name true with ⟨reply', r'⟩
    rw [ho, hm] at hreply htracks
    rw [hm] at hwell hcount
    cases hreply
    cases reply with
    | error e => exact ⟨rfl, htracks⟩
    | ok t =>
      have ht : t = ⟨r.count⟩ := Roster.make_reply (by rw [hm])
      exact htracks.register hwell (by rw [ht, hcount]; exact Nat.lt_succ_self _)
  | drop name => exact h.drop hw name
  | rename t name => exact h.setName hw hc name

/-- Every run gives what the list gives, and leaves what the list is then. -/
theorem run (h : Tracks s r st) (hw : r.WellFormed) {cs : List RegistryCall}
    (hcs : RegistryCall.ReferAll r.count cs) :
    (registryRun s st cs).1 = (r.run cs).1 ∧ Tracks s (r.run cs).2 (registryRun s st cs).2 ∧
      (r.run cs).2.WellFormed := by
  induction cs generalizing r st with
  | nil => exact ⟨rfl, h, hw⟩
  | cons c cs ih =>
    obtain ⟨hc, hrest⟩ := hcs
    obtain ⟨hreply, htracks⟩ := h.step hw hc
    rw [← Roster.count_step] at hrest
    obtain ⟨hreplies, hlast⟩ := ih htracks (hw.step hc) hrest
    exact ⟨by rw [registryRun, Roster.run, hreply, hreplies], hlast⟩

end Tracks

/-! ### Reading the registry -/

/-- The list of a schema that has no tables yet, among tables of which none was given to it. -/
def Roster.start (st : Store) : Roster where
  members := []
  name t := ((st.table t).name.asText?).getD ""
  attached _ := false
  count := st.tables.size

theorem Roster.wellFormed_start (st : Store) : (Roster.start st).WellFormed where
  distinct := List.nodup_nil
  named := by simp [start]
  attached := by simp [start]
  known := by simp [start]

/-- A schema without tables, among tables with texts for names that are on their own. -/
structure Unlisted (st : Store) (s : SchemaId) : Prop where
  tables : (st.schema s).tables = []
  alone : ∀ t : TableId, t.index < st.tables.size →
    (st.table t).owner = none ∧ ∃ n, (st.table t).name = .text n

theorem Unlisted.tracks {st : Store} {s : SchemaId} (h : Unlisted st s) :
    Tracks s (.start st) st where
  tables := h.tables
  count := rfl
  name t ht := by
    obtain ⟨-, n, hn⟩ := h.alone t ht
    simp [Roster.start, hn, Value.asText?]
  owner t ht := (h.alone t ht).1

/-- **The registry of a schema is an ordered list of members with distinct names.**  Whatever calls
are made, each gives what it gives on the list; afterwards members have distinct names that are not
empty, every member has the name that the list gives it and points to the schema, a name leads to
the member that has it and to nothing else, and going through the tables or their names goes through
the list. -/
theorem registry_simulates_roster {st : Store} {s : SchemaId} (h : Unlisted st s)
    {cs : List RegistryCall} (hcs : RegistryCall.ReferAll st.tables.size cs) :
    let st' := (registryRun s st cs).2
    let r := ((Roster.start st).run cs).2
    (registryRun s st cs).1 = ((Roster.start st).run cs).1 ∧
    r.members.Nodup ∧ (r.members.map r.name).Nodup ∧
    (∀ t ∈ r.members, r.name t ≠ "" ∧ (st'.table t).name = .text (r.name t) ∧
      (st'.table t).owner = some s) ∧
    (∀ n t, lookupTable st' s (.text n) = .ok (some t) ↔ t ∈ r.members ∧ r.name t = n) ∧
    (∀ n, lookupTable st' s (.text n) = .ok none ↔ ∀ t ∈ r.members, r.name t ≠ n) ∧
    tableNames st' s = r.members.map (fun t => .text (r.name t)) ∧
    tablesOf st' s = if r.members = [] then .error (.empty .tables) else .ok r.members := by
  intro st' r
  obtain ⟨hreplies, htracks, hw⟩ := h.tracks.run (Roster.wellFormed_start st) hcs
  refine ⟨hreplies, hw.nodup, hw.distinct, fun t ht => ⟨hw.named t ht, ?_, ?_⟩, fun n t => ?_,
    fun n => ?_, ?_, ?_⟩
  · exact htracks.name t (hw.known t ht)
  · exact (htracks.owner t (hw.known t ht)).trans (if_pos (hw.attached t ht))
  · rw [htracks.lookupTable_eq, Except.ok.injEq, Roster.holder_eq_some_iff hw]
  · rw [htracks.lookupTable_eq, Except.ok.injEq, Roster.holder, List.find?_eq_none]
    simp [r]
  · rw [tableNames, htracks.tables, Roster.entries, List.map_map]
    rfl
  · rw [tablesOf, htracks.tables]
    split
    · next hnil =>
      rw [if_pos (List.map_eq_nil_iff.mp hnil)]
    · next hcons =>
      rw [Roster.map_snd_entries, if_neg fun hm => hcons (List.map_eq_nil_iff.mpr hm)]

/-- One table is registered and renamed, another one is made with the old name and registered, a
third may not take that name, and the first is dropped. -/
theorem registry_simulates_roster_of_reused_name :
    let st := history [.makeSchema (.text "shop") (.text ""), .makeTable [("name", .text "users")]]
    let cs : List RegistryCall := [.register ⟨0⟩, .rename ⟨0⟩ "people", .registerNew "users",
      .make "users" true, .drop "people"]
    Unlisted st ⟨0⟩ ∧ RegistryCall.ReferAll st.tables.size cs ∧
      tableNames (registryRun ⟨0⟩ st cs).2 ⟨0⟩ = [.text "users"] ∧
      lookupTable (registryRun ⟨0⟩ st cs).2 ⟨0⟩ (.text "people") = .ok none := by
  intro st cs
  have hstart : Unlisted st ⟨0⟩ := by
    refine ⟨rfl, fun t ht => ?_⟩
    obtain ⟨i⟩ := t
    obtain rfl : i = 0 := Nat.lt_one_iff.mp ht
    exact ⟨rfl, "users", rfl⟩
  have hcs : RegistryCall.ReferAll st.tables.size cs :=
    ⟨Nat.zero_lt_one, Nat.zero_lt_one, trivial, trivial, trivial, trivial⟩
  obtain ⟨-, -, -, -, -, hnone, hnames, -⟩ := registry_simulates_roster hstart hcs
  have hmembers : ((Roster.start st).run cs).2.members = [⟨1⟩] := by decide
  have hname : ((Roster.start st).run cs).2.name ⟨1⟩ = "users" := by decide
  refine ⟨hstart, hcs, ?_, (hnone "people").mpr ?_⟩
  · rw [hnames, hmembers, List.map_singleton, hname]
  · rw [hmembers]
    intro t ht
    rw [List.mem_singleton.mp ht, hname]
    decide

end DbSchema
