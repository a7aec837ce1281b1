import DbSchema.Proofs.Model.Atomicity
import DbSchema.Proofs.Model.FieldOrder
import DbSchema.Proofs.Model.Ownership
import DbSchema.Proofs.Model.Registries

/-!
# Children that a table lists once

A table refuses a field whose name it has, and so it never lists a field twice.  Nothing looks at
the indices and constraints that it has: one that it owns passes the look for an owner and is listed
once more.  Every other call gives a table one child at most, which no table listed before.

## Main definitions

* `Store.ListsOnce st` — what is read of the children of tables has no object at two positions.
* `Call.Readds st c` — the call adds an index or a constraint to the table that lists it.

## Main results

* `Call.children_cases` — a call leaves what tables list, or one table gets a child that is listed
  nowhere, or a child is added to its own table.
* `Store.listsOnce_after_iff` — only a call that adds a child to its own table lists a child twice.
* `children_listed_once` — **what this means for single calls and for whole histories.**
-/

namespace DbSchema

/-- What a table lists, as the children that are in it. -/
def Table.listed (x : Table) : List Child :=
  x.fields.map (fun e => .field e.2) ++ x.indices.map .index ++ x.constraints.map .constraint

theorem readsChildren_listed : ReadsChildren Table.listed := by
  intro x y hf hi hc
  rw [Table.listed, Table.listed, hf, hi, hc]

namespace Store

variable {st : Store} {t u : TableId} {d : Child}

theorem children_eq (st : Store) (t : TableId) : st.children t = (st.table t).listed := rfl

/-! ### Lists without repetition -/

/-- The lists that are read of a table have no object at two positions. -/
structure ReadsOnce (st : Store) (t : TableId) : Prop where
  fields : ∀ l, fieldsOf st t = .ok l → l.Nodup
  indices : ∀ l, indicesOf st t = .ok l → l.Nodup
  constraints : ∀ l, constraintsOf st t = .ok l → l.Nodup

/-- No table lists a child at two positions. -/
def ListsOnce (st : Store) : Prop := ∀ t, st.ReadsOnce t

/-- The children of a table are different when those of each kind are. -/
theorem nodup_children_iff :
    (st.children t).Nodup ↔ ((st.table t).fields.map (·.2)).Nodup ∧
      (st.table t).indices.Nodup ∧ (st.table t).constraints.Nodup := by
  have hfields : ((st.table t).fields.map fun e => Child.field e.2).Nodup ↔
      ((st.table t).fields.map (·.2)).Nodup := by
    rw [← List.nodup_map_iff (f := Child.field) fun _ _ h => Child.field.inj h, List.map_map]
    rfl
  have hindices : ((st.table t).indices.map Child.index).Nodup ↔ (st.table t).indices.Nodup :=
    List.nodup_map_iff fun _ _ h => Child.index.inj h
  have hconstraints : ((st.table t).constraints.map Child.constraint).Nodup ↔
      (st.table t).constraints.Nodup := List.nodup_map_iff fun _ _ h => Child.constraint.inj h
  rw [children, List.nodup_append, List.nodup_append, hfields, hindices, hconstraints]
  constructor
  · rintro ⟨⟨hf, hi, -⟩, hc, -⟩
    exact ⟨hf, hi, hc⟩
  · rintro ⟨hf, hi, hc⟩
    -- children of different kinds are different
    refine ⟨⟨hf, hi, ?_⟩, hc, ?_⟩
    · intro a ha b hb hab
      obtain ⟨e, -, rfl⟩ := List.mem_map.mp ha
      obtain ⟨i, -, rfl⟩ := List.mem_map.mp hb
      cases hab
    · intro a ha b hb hab
      obtain ⟨c, -, rfl⟩ := List.mem_map.mp hb
      subst hab
      simp at ha

/-- No field is listed under two names, since the names are different. -/
theorem Coherent.nodup_fields (h : st.Coherent) (t : TableId) :
    ((st.table t).fields.map (·.2)).Nodup := by
  obtain ⟨texts, htexts, hdistinct, -⟩ := h.fieldTexts t
  have hkeys : ((st.table t).fields.map (·.2)).map (fun f => (st.field f).name) =
      (st.table t).fields.map (·.1) := by
    rw [List.map_map]
    exact List.map_congr_left fun e he => ((h.table t).field e he).2.1
  have hnames : (((st.table t).fields.map (·.2)).map fun f => (st.field f).name).Nodup := by
    rw [hkeys, ← htexts]
    exact hdistinct.map fun _ _ => Value.text.inj
  exact hnames.of_map _

/-- What is read of a table has no repetition exactly when its children are different. -/
theorem Coherent.readsOnce_iff (h : st.Coherent) : st.ReadsOnce t ↔ (st.children t).Nodup := by
  rw [nodup_children_iff]
  constructor
  · intro hreads
    refine ⟨h.nodup_fields t, ?_, ?_⟩
    · by_cases hi : (st.table t).indices = []
      · simp [hi]
      · exact hreads.indices _ (by rw [indicesOf, if_neg (by simpa using hi)])
    · by_cases hc : (st.table t).constraints = []
      · simp [hc]
      · exact hreads.constraints _ (by rw [constraintsOf, if_neg (by simpa using hc)])
  · rintro ⟨hf, hi, hc⟩
    refine ⟨fun l hl => ?_, fun l hl => ?_, fun l hl => ?_⟩
    · by_cases hne : (st.table t).fields = []
      · rw [fieldsOf, if_pos (by simpa using hne)] at hl
        cases hl
      · rw [(h.table t).fieldsOf hne] at hl
        cases hl
        exact hf
    · rw [indicesOf] at hl
      split at hl <;> cases hl
      exact hi
    · rw [constraintsOf] at hl
      split at hl <;> cases hl
      exact hc

/-! ### One child more -/

/-- A table that gets a child lists it beside the others. -/
theorem children_withChild_self (st : Store) (t : TableId) (d : Child) :
    ((Edit.withChild st t d).children t).Perm (st.children t ++ [d]) := by
  cases d with
  | field f =>
    simp only [Edit.withChild, Edit.withField, children, table_setTable_self, List.map_append,
      List.map_singleton, List.append_assoc]
    refine List.Perm.append_left _ (List.perm_append_comm.trans ?_)
    rw [List.append_assoc]
  | index i =>
    simp only [Edit.withChild, Edit.withIndex, children, table_setTable_self, List.map_append,
      List.map_singleton, List.append_assoc]
    refine List.Perm.append_left _ (List.Perm.append_left _ ?_)
    exact List.perm_append_comm
  | constraint c =>
    simp [Edit.withChild, Edit.withConstraint, children]

theorem children_withChild_of_ne (hu : u ≠ t) (st : Store) (d : Child) :
    (Edit.withChild st t d).children u = st.children u := by
  rw [children_eq, children_eq, Edit.table_withChild_of_ne hu]

/-- A table that gets a child has different children exactly when the others are different and it is
none of them. -/
theorem nodup_withChild_iff :
    ((Edit.withChild st t d).children t).Nodup ↔ (st.children t).Nodup ∧ d ∉ st.children t := by
  rw [(children_withChild_self st t d).nodup_iff, List.nodup_append']
  simp

end Store

/-! ### Calls that add children -/

/-- The call adds an index or a constraint to the table that lists it. -/
def Call.Readds (st : Store) (c : Call) : Prop :=
  ∃ t d, c = Child.addTo t d ∧ d.kind ≠ .field ∧ d ∈ st.children t

namespace Edit

variable {st st' : Store} {t : TableId} {child : Value} {params : Params}

/-- The child to add was made from the parameters, or there are none and it is the one that was
given. -/
theorem resolveChild_ok {ι : Type} {kind : ChildKind} {make : Params → Edit ι}
    {find? : Value → Option ι} {name : Store → ι → Value} {owner : Store → ι → Option Ref} {i : ι}
    (h : outcome (resolveChild kind make find? name owner t child params) st = (.ok i, st')) :
    outcome (make params) st = (.ok i, st') ∨
      params = [] ∧ find? child = some i ∧ st' = st ∧
        (owner st i = none ∨ owner st i = some (.table t)) := by
  unfold resolveChild at h
  split at h
  · exact Or.inl h
  · by_cases hp : params.isEmpty
    · simp only [hp, Bool.not_true, Bool.false_eq_true, if_false] at h
      rcases hf : find? child with _ | j <;> rw [hf] at h
      · cases h
      · dsimp only at h
        rw [outcome_bind, outcome_ask] at h
        rcases hc : checkOwner st t kind (name st j) (owner st j) with e | v <;> rw [hc] at h <;>
          cases h
        exact Or.inr ⟨by simpa using hp, rfl, rfl, checkOwner_eq_ok_iff.mp hc⟩
    · simp [hp] at h

/-- A call gives a table one child.  Nobody owned the child, or the call adds it to its own
table. -/
structure Gives (st : Store) (c : Call) (t : TableId) (d : Child) (st' : Store) : Prop where
  before : ∀ u, st'.children u = st.children u
  after : c.after st = withChild st' t d
  owner : st.ownerOf d = none ∨ c = d.addTo t ∧ d.kind ≠ .field ∧ st.ownerOf d = some (.table t)

/-- A field that is listed already is refused, so the one that a table gets belonged to nobody. -/
theorem gives_addField (hst : Reachable st) (t : TableId) (child : Value) (params : Params) :
    (∀ u, ((Call.addField t child params).after st).children u = st.children u) ∨
      ∃ d st', Gives st (.addField t child params) t d st' := by
  have hkept := keepsLists_resolveField (p := Table.listed) t child params st
  rw [Call.after, Call.run, outcome_discard, outcome_addField]
  rcases ho : outcome (resolveField t child params) st with ⟨e | f, st'⟩ <;> rw [ho] at hkept
  · exact Or.inl hkept
  dsimp only
  rcases hmay : mayAddField st' t f with e | v
  · exact Or.inl hkept
  refine Or.inr ⟨.field f, st', hkept, ?_, Or.inl ?_⟩
  · rw [Call.after, Call.run, outcome_discard, outcome_addField, ho]
    simp only [hmay]
    rfl
  rw [resolveField_eq] at ho
  rcases resolveChild_ok ho with hnew | ⟨-, -, rfl, hown⟩
  · rw [outcome_newField] at hnew
    rcases hspec : FieldSpec.ofParams params with e | spec <;> rw [hspec] at hnew <;> cases hnew
    exact st.ownerOf_new.1
  · rcases hown with hnone | hown
    · exact hnone
    · -- the table would list the field, and then it has no place for it
      obtain ⟨u, hu, hlisted⟩ := owned_of_reachable hst (.field f) _ hown
      obtain ⟨e, he, hf⟩ := Store.field_mem_children.mp hlisted
      exact absurd hf
        ((coherent_of_reachable hst).not_listed_of_mayAddField (Or.inr hown) hmay u e he)

/-- An index that a table gets belonged to nobody, or the table lists it already. -/
theorem gives_addIndex (st : Store) (t : TableId) (child : Value) (params : Params) :
    (∀ u, ((Call.addIndex t child params).after st).children u = st.children u) ∨
      ∃ d st', Gives st (.addIndex t child params) t d st' := by
  have hkept := keepsLists_resolveIndex (p := Table.listed) t child params st
  rw [Call.after, Call.run, outcome_discard, outcome_addIndex]
  rcases ho : outcome (resolveIndex t child params) st with ⟨e | i, st'⟩ <;> rw [ho] at hkept
  · exact Or.inl hkept
  refine Or.inr ⟨.index i, st', hkept, ?_, ?_⟩
  · rw [Call.after, Call.run, outcome_discard, outcome_addIndex, ho]
    rfl
  rw [resolveIndex_eq] at ho
  rcases resolveChild_ok ho with hnew | ⟨rfl, hchild, rfl, hown⟩
  · rw [outcome_newIndex] at hnew
    rcases hspec : IndexSpec.ofParams params with e | spec <;> rw [hspec] at hnew <;> cases hnew
    exact Or.inl st.ownerOf_new.2.1
  · refine hown.imp id fun hown => ⟨?_, by simp [Child.kind], hown⟩
    unfold indexOf? at hchild
    split at hchild <;> cases hchild
    rfl

/-- The same holds of a constraint. -/
theorem gives_addConstraint (st : Store) (t : TableId) (child : Value) (params : Params) :
    (∀ u, ((Call.addConstraint t child params).after st).children u = st.children u) ∨
      ∃ d st', Gives st (.addConstraint t child params) t d st' := by
  have hkept := keepsLists_resolveConstraint (p := Table.listed) t child params st
  rw [Call.after, Call.run, outcome_discard, outcome_addConstraint]
  rcases ho : outcome (resolveConstraint t child params) st with ⟨e | c, st'⟩ <;> rw [ho] at hkept
  · exact Or.inl hkept
  refine Or.inr ⟨.constraint c, st', hkept, ?_, ?_⟩
  · rw [Call.after, Call.run, outcome_discard, outcome_addConstraint, ho]
    rfl
  rw [resolveConstraint_eq] at ho
  rcases resolveChild_ok ho with hnew | ⟨rfl, hchild, rfl, hown⟩
  · rw [outcome_newConstraint] at hnew
    rcases hspec : ConstraintSpec.ofParams params with e | spec <;> rw [hspec] at hnew <;>
      cases hnew
    exact Or.inl st.ownerOf_new.2.2
  · refine hown.imp id fun hown => ⟨?_, by simp [Child.kind], hown⟩
    unfold constraintOf? at hchild
    split at hchild <;> cases hchild
    rfl

/-- Names are appended to the keys that a table lists, and only where there is none it gets a new
one. -/
theorem gives_primaryKey (hst : Reachable st) (t : TableId) (values : List Value) :
    (∀ u, ((Call.primaryKey t values).after st).children u = st.children u) ∨
      ∃ d st', Gives st (.primaryKey t values) t d st' := by
  have hafter : (Call.primaryKey t values).after st = (outcome (primaryKey t values) st).2 := by
    rw [Call.after, Call.run, outcome_discard]
  rw [outcome_primaryKey t (coherent_of_reachable hst).extendable] at hafter
  split at hafter
  · exact Or.inl fun u => by rw [hafter]
  · split at hafter
    · exact Or.inl fun u => by rw [hafter]
    · split at hafter
      · exact Or.inl fun u => by rw [hafter]
      · dsimp only at hafter
        split at hafter
        · refine Or.inl fun u => ?_
          rw [hafter, Store.children_eq, table_withKeyNames, Store.children_eq]
        · exact Or.inr ⟨.constraint ⟨st.constraints.size⟩,
            st.setConstraint _ { toConstraintSpec := keySpec _ }, fun u => rfl, hafter,
            Or.inl st.ownerOf_new.2.2⟩

end Edit

/-! ### Every call -/

variable {st : Store}

/-- **A call leaves what all tables list, or it gives one table one child.**  Nobody owned the child
before, or it is an index or a constraint that the call adds to its own table. -/
theorem Call.children_cases (hst : Reachable st) (c : Call) :
    (∀ u, (c.after st).children u = st.children u) ∨ ∃ t d st', Edit.Gives st c t d st' := by
  cases c with
  | addField t child params => exact (Edit.gives_addField hst t child params).imp id fun h => ⟨t, h⟩
  | addIndex t child params => exact (Edit.gives_addIndex st t child params).imp id fun h => ⟨t, h⟩
  | addConstraint t child params =>
    exact (Edit.gives_addConstraint st t child params).imp id fun h => ⟨t, h⟩
  | primaryKey t values => exact (Edit.gives_primaryKey hst t values).imp id fun h => ⟨t, h⟩
  | _ =>
    refine Or.inl (Call.keepsLists readsChildren_listed ?_ st)
    exact fun h => h

namespace Store

/-- A call that adds no child to its own table lists none twice. -/
theorem ListsOnce.of_call (h : st.ListsOnce) (hst : Reachable st) {c : Call}
    (hc : ¬ c.Readds st) : (c.after st).ListsOnce := by
  have hcoherent := coherent_of_reachable hst
  have hnodup : ∀ u, (st.children u).Nodup := fun u => hcoherent.readsOnce_iff.mp (h u)
  intro u
  refine (coherent_of_reachable (hst.call c)).readsOnce_iff.mpr ?_
  rcases c.children_cases hst with hsame | ⟨t, d, st', hgives⟩
  · rw [hsame]
    exact hnodup u
  rw [hgives.after]
  by_cases hu : u = t
  · subst hu
    refine nodup_withChild_iff.mpr ?_
    rw [hgives.before]
    refine ⟨hnodup u, fun hd => ?_⟩
    have howner := hcoherent.ownerOf_of_mem hd
    rcases hgives.owner with hnone | ⟨hadd, hkind, -⟩
    · rw [hnone] at howner
      cases howner
    · exact hc ⟨u, d, hadd, hkind, hd⟩
  · rw [children_withChild_of_ne hu, hgives.before]
    exact hnodup u

/-- A call that adds a child to its own table lists it twice. -/
theorem not_listsOnce_of_readds (hst : Reachable st) {c : Call} (hc : c.Readds st) :
    ¬ (c.after st).ListsOnce := by
  obtain ⟨t, d, rfl, hkind, hd⟩ := hc
  have howner := (coherent_of_reachable hst).ownerOf_of_mem hd
  have hplace : Edit.mayPlace st t d = .ok () := by
    cases d with
    | field f => exact absurd rfl hkind
    | _ => rfl
  have hafter : (Child.addTo t d).after st = Edit.withChild st t d := by
    rw [Call.after, Edit.outcome_addTo, howner, checkOwner, if_pos rfl]
    simp only [hplace]
  intro hlists
  have hnodup := (coherent_of_reachable (hst.call (Child.addTo t d))).readsOnce_iff.mp (hlists t)
  rw [hafter] at hnodup
  exact (nodup_withChild_iff.mp hnodup).2 hd

/-- **Only a call that adds a child to its own table lists a child twice.** -/
theorem listsOnce_after_iff (h : st.ListsOnce) (hst : Reachable st) (c : Call) :
    (c.after st).ListsOnce ↔ ¬ c.Readds st :=
  ⟨fun hlists hc => not_listsOnce_of_readds hst hc hlists, h.of_call hst⟩

/-- A table that lives lists what it listed, and any other table lists nothing. -/
theorem ListsOnce.sweep (h : st.ListsOnce) (hst : Reachable st) (roots : List Ref) :
    (st.sweep roots).ListsOnce := by
  intro t
  refine (coherent_of_reachable (hst.sweep roots)).readsOnce_iff.mpr ?_
  rw [children_sweep]
  split
  · exact (coherent_of_reachable hst).readsOnce_iff.mp (h t)
  · exact List.nodup_nil

theorem listsOnce_empty : Store.empty.ListsOnce := fun _ =>
  (coherent_of_reachable .empty).readsOnce_iff.mpr List.nodup_nil

end Store

/-! ### Histories -/

/-- In every history in which no child is added to its own table, children are listed once. -/
theorem listsOnce_of_reachableBy (h : ReachableBy (fun st c => ¬ c.Readds st) st) :
    st.ListsOnce := by
  induction h with
  | empty => exact Store.listsOnce_empty
  | call h hc ih => exact ih.of_call h.reachable hc
  | sweep h roots ih => exact ih.sweep h.reachable roots

/-- A table refuses a field that it lists. -/
theorem Store.Coherent.outcome_addTo_listed_field (h : st.Coherent) {t : TableId} {f : FieldId}
    (hf : .field f ∈ st.children t) :
    outcome ((Child.field f).addTo t).run st =
      (.error (.duplicateField (st.field f).name), st) := by
  obtain ⟨e, he, rfl⟩ := Store.field_mem_children.mp hf
  obtain ⟨-, hname, htruthy⟩ := (h.table t).field e he
  obtain ⟨n, hn, -⟩ := (h.fieldTidy e.2).name
  have hfound : (st.table t).field? (st.field e.2).name = some e.2 := by
    rw [hname]
    refine Keyed.find?_of_mem (h.table t).distinct he ?_
    rw [← hname, hn]
    exact (Value.text_same_iff n _).mpr rfl
  have hmay : Edit.mayPlace st t (.field e.2) = .error (.duplicateField (st.field e.2).name) := by
    rw [← hname] at htruthy
    have hkey : (st.field e.2).name.hashable := by
      rw [hn]
      rfl
    simp [Edit.mayPlace, Edit.mayAddField, htruthy, hkey, hfound]
  rw [Edit.outcome_addTo, h.ownerOf_of_mem hf, checkOwner, if_pos rfl]
  simp only [hmay]

/-- **A table lists each of its children once, until one is added to it again.**  In every history
the fields that are read of a table are different, as it refuses a field that it lists.  Its indices
and constraints are different, too, as long as no call adds one of them to it again; the first call
that does so, and no other one, ends this. -/
theorem children_listed_once {st : Store} (h : Reachable st) :
    (∀ t l, fieldsOf st t = .ok l → l.Nodup) ∧
    (∀ t f, .field f ∈ st.children t →
      outcome ((Child.field f).addTo t).run st = (.error (.duplicateField (st.field f).name), st)) ∧
    (ReachableBy (fun st c => ¬ c.Readds st) st → st.ListsOnce) ∧
    (st.ListsOnce → ∀ c : Call, (c.after st).ListsOnce ↔ ¬ c.Readds st) := by
  have hcoherent := coherent_of_reachable h
  refine ⟨fun t l hl => ?_, fun t f hf => ?_, listsOnce_of_reachableBy,
    fun hlists => Store.listsOnce_after_iff hlists h⟩
  · have hempty : (st.table t).fields ≠ [] := by
      intro hnone
      rw [fieldsOf, hnone, List.isEmpty_nil, if_pos rfl] at hl
      cases hl
    rw [(hcoherent.table t).fieldsOf hempty] at hl
    cases hl
    exact hcoherent.nodup_fields t
  · exact hcoherent.outcome_addTo_listed_field hf

/-- Only adding a child that is there can add it again. -/
theorem not_readds {c : Call} (h : ∀ t d, c ≠ Child.addTo t d) (st : Store) : ¬ c.Readds st := by
  rintro ⟨t, d, hadd, -⟩
  exact h t d hadd

/-- A table that got a field, an index and a key in both ways lists each of them once, and another
index may be added to it. -/
theorem children_listed_once_of_users :
    let st := history [.makeTable [("name", .text "users")],
      .addField ⟨0⟩ .null [("name", .text "id"), ("data_type", .text "integer")],
      .makeIndex [("name", .text "by_id"), ("fields", .text "id")],
      .addIndex ⟨0⟩ (.object (.index ⟨0⟩)) [], .primaryKey ⟨0⟩ [.text "id"]]
    Reachable st ∧ st.children ⟨0⟩ = [.field ⟨0⟩, .index ⟨0⟩, .constraint ⟨0⟩] ∧
      st.ListsOnce ∧ ((Call.makeTable []).after st).ListsOnce ∧
      ¬ ((Call.addIndex ⟨0⟩ (.object (.index ⟨0⟩)) []).after st).ListsOnce := by
  intro st
  have hst : Reachable st := reachable_history _
  obtain ⟨-, -, hruns, hcalls⟩ := children_listed_once hst
  have hmade : ReachableBy (fun st c => ¬ c.Readds st)
      (history [.makeTable [("name", .text "users")],
        .addField ⟨0⟩ .null [("name", .text "id"), ("data_type", .text "integer")],
        .makeIndex [("name", .text "by_id"), ("fields", .text "id")]]) := by
    refine ((ReachableBy.empty.call (not_readds ?_ _)).call (not_readds ?_ _)).call
      (not_readds ?_ _) <;>
    · intro t d
      cases d <;> simp [Child.addTo]
  have hby : ReachableBy (fun st c => ¬ c.Readds st) st := by
    refine (hmade.call ?_).call (not_readds (fun t d => by cases d <;> simp [Child.addTo]) _)
    -- the index belongs to no table yet
    rintro ⟨t, d, hadd, -, hd⟩
    cases d <;> cases hadd
    revert hd
    decide
  have hlists := hruns hby
  have hchildren : st.children ⟨0⟩ = [.field ⟨0⟩, .index ⟨0⟩, .constraint ⟨0⟩] := by decide +kernel
  refine ⟨hst, hchildren, hlists, ?_, ?_⟩
  · exact (hcalls hlists _).mpr (not_readds (fun t d => by cases d <;> simp [Child.addTo]) _)
  · exact fun hagain => (hcalls hlists _).mp hagain
      ⟨⟨0⟩, .index ⟨0⟩, rfl, by decide, by rw [hchildren]; decide⟩

/-- An index that is added to its table once more is read twice, and a key that is listed twice gets
the names of one call twice. -/
theorem not_listed_once_of_added_again :
    let st := history [.makeTable [("name", .text "users")],
      .addIndex ⟨0⟩ .null [("name", .text "by_id"), ("fields", .text "id")],
      .addIndex ⟨0⟩ (.object (.index ⟨0⟩)) []]
    let st' := history [.makeTable [("name", .text "users")],
      .addField ⟨0⟩ .null [("name", .text "id")], .addField ⟨0⟩ .null [("name", .text "org")],
      .primaryKey ⟨0⟩ [.text "id"], .addConstraint ⟨0⟩ (.object (.constraint ⟨0⟩)) [],
      .primaryKey ⟨0⟩ [.text "org"]]
    Reachable st ∧ indicesOf st ⟨0⟩ = .ok [⟨0⟩, ⟨0⟩] ∧ ¬ st.ListsOnce ∧
      Reachable st' ∧ constraintsOf st' ⟨0⟩ = .ok [⟨0⟩, ⟨0⟩] ∧
      (st'.constraint ⟨0⟩).fields.same (.ofTexts ["id", "org", "org"]) := by
  intro st st'
  have hindices : (st.table ⟨0⟩).indices = [⟨0⟩, ⟨0⟩] := by decide
  have hconstraints : (st'.table ⟨0⟩).constraints = [⟨0⟩, ⟨0⟩] := by decide +kernel
  have htwice : indicesOf st ⟨0⟩ = .ok [⟨0⟩, ⟨0⟩] := by
    rw [indicesOf, hindices]
    rfl
  refine ⟨reachable_history _, htwice, ?_, reachable_history _, ?_, ?_⟩
  · intro hlists
    have hnodup := (hlists ⟨0⟩).indices _ htwice
    simp at hnodup
  · rw [constraintsOf, hconstraints]
    rfl
  · decide +kernel

end DbSchema
