import DbSchema.Proofs.Model.Coherence

/-!
# The numbers of fields

A table numbers its fields as it gets them.  A number is written on the field itself and is written
again when another table takes the field over, which it can only do when the first table is gone.
So the numbers in a table are always those from one on, without a gap.

## Main definitions

* `Store.NumberedAt st t` — the fields of the table are numbered from one on.

## Main results

* `Store.numbered_of_change` — every change keeps the numbers, or numbers the field that it adds.
* `numbered_of_reachable` — in every history, fields are numbered from one on.
-/

namespace DbSchema

namespace Store

variable {st st' : Store} {t : TableId}

/-! ### Numbers -/

/-- The fields of a table have the numbers from one on, and the next number is the one after
those. -/
structure NumberedAt (st : Store) (t : TableId) : Prop where
  orders : (st.table t).fields.map (fun e => (st.field e.2).order) =
    (List.range' 1 (st.table t).fields.length).map fun n : Nat => .int n
  next : (st.table t).nextOrder = (st.table t).fields.length + 1

/-- What a change keeps of the fields of a table, so that they are still numbered from one on. -/
structure KeepsNumbers (st st' : Store) (t : TableId) : Prop where
  fields : (st'.table t).fields = (st.table t).fields
  nextOrder : (st'.table t).nextOrder = (st.table t).nextOrder
  order : ∀ e ∈ (st.table t).fields, (st'.field e.2).order = (st.field e.2).order

theorem NumberedAt.of_keeps (h : st.NumberedAt t) (hk : KeepsNumbers st st' t) :
    st'.NumberedAt t := by
  have horders : (st.table t).fields.map (fun e => (st'.field e.2).order) =
      (st.table t).fields.map (fun e => (st.field e.2).order) :=
    List.map_congr_left hk.order
  refine ⟨?_, ?_⟩
  · rw [hk.fields, horders, h.orders]
  · rw [hk.fields, hk.nextOrder, h.next]

theorem numberedAt_of_fieldless (hf : (st.table t).fields = [])
    (hn : (st.table t).nextOrder = 1) : st.NumberedAt t := by
  refine ⟨?_, ?_⟩ <;> simp [hf, hn]

theorem KeepsTable.numbers (h : KeepsTable st st' t) : KeepsNumbers st st' t :=
  ⟨h.fields, h.nextOrder, fun e he => (h.field e he).2.2⟩

/-- A change of a table that leaves its fields alone leaves those of every table alone. -/
theorem keepsNumbers_setTable (st : Store) (u : TableId) (x : Table)
    (hf : x.fields = (st.table u).fields) (hn : x.nextOrder = (st.table u).nextOrder)
    (t : TableId) : KeepsNumbers st (st.setTable u x) t := by
  by_cases ht : t = u
  · subst ht
    refine ⟨?_, ?_, fun e _ => rfl⟩ <;> rw [table_setTable_self]
    · exact hf
    · exact hn
  · exact (keepsTable_setTable_of_ne ht x).numbers

/-- A table that gets one more field gives it the next number. -/
theorem NumberedAt.withField (h : st.NumberedAt t) {f : FieldId}
    (hout : ∀ e ∈ (st.table t).fields, e.2 ≠ f) : (Edit.withField st t f).NumberedAt t := by
  have hold : (st.table t).fields.map (fun e => ((Edit.withField st t f).field e.2).order) =
      (st.table t).fields.map fun e => (st.field e.2).order :=
    List.map_congr_left fun e he => by
      rw [Edit.withField, field_setTable, field_setField_of_ne st (hout e he)]
  have hnew : ((Edit.withField st t f).field f).order = .int (st.table t).nextOrder := by
    simp [Edit.withField]
  have hfields : ((Edit.withField st t f).table t).fields =
      (st.table t).fields ++ [((st.field f).name, f)] := by
    simp [Edit.withField]
  refine ⟨?_, ?_⟩
  · rw [hfields, List.map_append, hold, h.orders, List.length_append, List.length_singleton,
      List.range'_concat, List.map_append]
    simp [hnew, h.next, Nat.add_comm]
  · rw [hfields, Edit.withField, table_setTable_self, h.next]
    simp

/-- **Every change keeps the numbers of all fields, or numbers the one that it adds.** -/
theorem numbered_of_change (hc : Change st st') (hst : st.Coherent)
    (h : ∀ t, st.NumberedAt t) (t : TableId) : st'.NumberedAt t := by
  refine (?_ : KeepsNumbers st st' t ∨ st'.NumberedAt t).elim (h t).of_keeps id
  -- a table that is made is in a cell that was not in use
  have hnone : st.table ⟨st.tables.size⟩ = default := st.table_of_size_le le_rfl
  cases hc with
  | @addField u f hown hmay =>
    have hout := hst.not_listed_of_mayAddField hown hmay
    by_cases ht : t = u
    · subst ht
      exact Or.inr ((h t).withField (hout t))
    · -- the field that is added is in no other table
      have hfield : KeepsNumbers st (Edit.withField st u f) t := by
        refine ⟨?_, ?_, fun e he => ?_⟩
        · rw [Edit.withField, table_setTable_of_ne _ ht, table_setField]
        · rw [Edit.withField, table_setTable_of_ne _ ht, table_setField]
        · rw [Edit.withField, field_setTable, field_setField_of_ne st (hout t e he)]
      exact Or.inl hfield
  | newTable =>
    exact Or.inl (keepsNumbers_setTable st _ _ (by rw [hnone]; rfl) (by rw [hnone]; rfl) t)
  | newField hspec => exact Or.inl ((hst.table t).keeps_newField _).numbers
  | @addIndex u i hown =>
    have hk := keepsNumbers_setTable (st.setIndex i { st.index i with owner := some (.table u) }) u
      { st.table u with indices := (st.table u).indices ++ [i] } rfl rfl t
    exact Or.inl ⟨hk.fields, hk.nextOrder, fun e _ => rfl⟩
  | @addConstraint u c hown =>
    have hk := keepsNumbers_setTable
      (st.setConstraint c { st.constraint c with owner := some (.table u) }) u
      { st.table u with constraints := (st.table u).constraints ++ [c] } rfl rfl t
    exact Or.inl ⟨hk.fields, hk.nextOrder, fun e _ => rfl⟩
  | name u hname => refine Or.inl (keepsNumbers_setTable st u _ ?_ ?_ t) <;> rfl
  | attach u owner => refine Or.inl (keepsNumbers_setTable st u _ ?_ ?_ t) <;> rfl
  | addOptions u hn => refine Or.inl (keepsNumbers_setTable st u _ ?_ ?_ t) <;> rfl
  | note name v r =>
    cases r with
    | table u => refine Or.inl (keepsNumbers_setTable st u _ ?_ ?_ t) <;> rfl
    | field f =>
      exact Or.inl (KeepsTable.numbers (keepsTable_setField fun e _ _ => ⟨rfl, rfl, rfl⟩))
    | _ => exact Or.inl ⟨rfl, rfl, fun e _ => rfl⟩
  | _ => exact Or.inl ⟨rfl, rfl, fun e _ => rfl⟩

end Store

/-- **In every history, the fields of each table are numbered from one on.** -/
theorem numbered_of_reachable {st : Store} (h : Reachable st) (t : TableId) : st.NumberedAt t := by
  have hboth : st.Coherent ∧ ∀ t, st.NumberedAt t := by
    refine Reachable.of_changes (P := fun st => st.Coherent ∧ ∀ t, st.NumberedAt t) ?_ ?_ ?_ h
    · exact ⟨Store.Coherent.empty, fun t => Store.numberedAt_of_fieldless rfl rfl⟩
    · exact fun hc hst => ⟨hst.1.of_change hc, Store.numbered_of_change hc hst.1 hst.2⟩
    · refine fun {st} roots hst => ⟨hst.1.sweep roots, fun t => ?_⟩
      by_cases ht : (st.aliveFrom roots).contains (.table t)
      · exact (hst.2 t).of_keeps ((hst.1.table t).keepsTable_sweep (by simpa using ht)).numbers
      · have htable : (st.sweep roots).table t = default :=
          (Store.table_sweep st roots t).trans (if_neg ht)
        refine Store.numberedAt_of_fieldless ?_ ?_ <;> rw [htable] <;> rfl
  exact hboth.2 t

end DbSchema
