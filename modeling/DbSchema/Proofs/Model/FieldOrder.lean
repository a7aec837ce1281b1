import DbSchema.Proofs.Model.Numbering
import DbSchema.Proofs.Model.Outline
import DbSchema.Proofs.Model.Untouched
import DbSchema.Proofs.Values
import Mathlib.Data.Set.List

/-!
# Fields in the order of the calls that added them

A table lists its fields by the numbers that are written on them.  A record that is kept beside the
store, of the fields that accepted calls gave for each table, has the same fields in the same order:
calls that were refused, other calls, and calls on other tables leave no trace, and a field that
was taken over from a table that is gone comes where it was taken over.

## Main definitions

* `Call.added c st t` — the fields that the call adds to the table: one, or none.
* `Recorded st log` — a history leads to the store, with the accepted additions to each table.

## Main results

* `Call.fields_after` — a call appends what it adds to the fields of a table.
* `exists_recorded` — every history can be recorded.
* `Recorded.fields_eq` — a table lists the fields that were added to it, in the order of the calls.
* `fields_in_call_order` — what is read of the fields of a table.
-/

namespace DbSchema

/-! ### What calls add -/

/-- The fields that a call adds to a table: the one that it gives when it is an accepted call to add
a field to this table, and none otherwise. -/
def Call.added (st : Store) (t : TableId) : Call → List FieldId
  | .addField u child params =>
    if u = t then (outcome (Edit.addField u child params) st).1.toOption.toList else []
  | _ => []

/-- **A call appends what it adds to the fields of a table.** -/
theorem Call.fields_after (c : Call) (st : Store) (t : TableId) :
    ((c.after st).table t).fields.map (·.2) =
      (st.table t).fields.map (·.2) ++ c.added st t := by
  -- only the call for a field adds to the fields of a table
  have hleaves : Edit.KeepsLists Table.fields c.run → c.added st t = [] →
      ((c.after st).table t).fields.map (·.2) =
        (st.table t).fields.map (·.2) ++ c.added st t := fun h hnone => by
    rw [hnone, List.append_nil, Call.after, h st t]
  cases c with
  | addField u child params =>
    have hchild := Edit.keepsLists_resolveField (p := Table.fields) u child params st t
    rw [Call.after, Call.run, outcome_discard, added, Edit.outcome_addField]
    rcases ho : outcome (Edit.resolveField u child params) st with ⟨e | f, st'⟩ <;>
      rw [ho] at hchild <;> dsimp only at hchild ⊢
    · simp [hchild, Except.toOption]
    · rcases Edit.mayAddField st' u f with e | _ <;> dsimp only
      · simp [hchild, Except.toOption]
      · by_cases ht : u = t
        · simp [ht, Edit.withField, hchild, Except.toOption]
        · have hother : ((Edit.withField st' u f).table t).fields = (st'.table t).fields := by
            rw [Edit.withField, Store.table_setTable_of_ne _ (Ne.symm ht), Store.table_setField]
          rw [if_neg ht, hother, hchild, List.append_nil]
  | addIndex u child params =>
    exact hleaves (Edit.keepsLists_addIndex (fun _ _ => rfl) u child params).discard rfl
  | addConstraint u child params =>
    exact hleaves (Edit.keepsLists_addConstraint (fun _ _ => rfl) u child params).discard rfl
  | primaryKey u values =>
    exact hleaves (Edit.keepsLists_primaryKey (fun _ _ => rfl) u values).discard rfl
  | _ => exact hleaves (Call.keepsLists readsChildren_fields fun h => h) rfl

/-! ### Records -/

/-- A history leads to the store, and the log has the fields that accepted calls added to each
table, in the order of the calls.  What went away has nothing on record. -/
inductive Recorded : Store → (TableId → List FieldId) → Prop
  | empty : Recorded Store.empty fun _ => []
  | call {st : Store} {log : TableId → List FieldId} (h : Recorded st log) (c : Call) :
      Recorded (c.after st) fun t => log t ++ c.added st t
  | sweep {st : Store} {log : TableId → List FieldId} (h : Recorded st log) (roots : List Ref) :
      Recorded (st.sweep roots) fun t =>
        if (st.aliveFrom roots).contains (.table t) then log t else []

namespace Recorded

variable {st : Store} {log : TableId → List FieldId}

theorem reachable (h : Recorded st log) : Reachable st := by
  induction h with
  | empty => exact .empty
  | call _ c ih => exact .call ih c
  | sweep _ roots ih => exact .sweep ih roots

/-- **A table lists the fields that were added to it, in the order of the calls.** -/
theorem fields_eq (h : Recorded st log) (t : TableId) :
    (st.table t).fields.map (·.2) = log t := by
  induction h with
  | empty => rfl
  | call _ c ih => rw [Call.fields_after, ih]
  | @sweep st _ _ roots ih =>
    rw [Store.table_sweep]
    by_cases hlive : (st.aliveFrom roots).contains (.table t)
    · simp only [hlive, if_true, ih]
    · simp only [hlive, Bool.false_eq_true, if_false]
      rfl

end Recorded

/-- Every history can be recorded. -/
theorem exists_recorded {st : Store} (h : Reachable st) : ∃ log, Recorded st log := by
  induction h with
  | empty => exact ⟨_, .empty⟩
  | call _ c ih => exact ih.elim fun _ h => ⟨_, h.call c⟩
  | sweep _ roots ih => exact ih.elim fun _ h => ⟨_, h.sweep roots⟩

/-! ### What is read of fields -/

namespace Store

variable {st : Store} {t : TableId}

/-- The names of the fields of a table are different texts, none of them empty. -/
theorem Coherent.fieldTexts (h : st.Coherent) (t : TableId) :
    ∃ texts : List String, texts.map .text = (st.table t).fields.map (·.1) ∧
      texts.Nodup ∧ "" ∉ texts := by
  have htext : ∀ v ∈ (st.table t).fields.map (·.1), v ∈ Set.range Value.text := by
    intro v hv
    obtain ⟨e, he, rfl⟩ := List.mem_map.mp hv
    obtain ⟨-, hname, -⟩ := (h.table t).field e he
    obtain ⟨s, hs, -⟩ := (h.fieldTidy e.2).name
    exact ⟨s, hs.symm.trans hname⟩
  obtain ⟨texts, htexts⟩ := (Set.ext_iff.mp (Set.range_list_map Value.text) _).mpr htext
  refine ⟨texts, htexts, ?_, fun hmem => ?_⟩
  · have hkeys := Keyed.distinct_iff_keys.mp (h.table t).distinct
    rw [← htexts, List.pairwise_map] at hkeys
    refine hkeys.imp fun {a b} hne heq => ?_
    rw [(Value.text_same_iff a (.text b)).mpr (congrArg _ heq.symm)] at hne
    cases hne
  · have hkey : Value.text "" ∈ (st.table t).fields.map (·.1) :=
      htexts ▸ List.mem_map_of_mem hmem
    obtain ⟨e, he, hname⟩ := List.mem_map.mp hkey
    obtain ⟨-, -, htruthy⟩ := (h.table t).field e he
    rw [hname] at htruthy
    cases htruthy

/-- A table lists its fields under their names. -/
theorem Coherent.entries_eq (h : st.Coherent) (t : TableId) :
    (st.table t).fields = ((st.table t).fields.map (·.2)).map fun f => ((st.field f).name, f) := by
  rw [List.map_map]
  refine List.map_id' _ |>.symm.trans (List.map_congr_left fun e he => ?_)
  rw [Function.comp_apply, ((h.table t).field e he).2.1]

/-- A field is found under its name. -/
theorem Coherent.fieldNamed_of_mem (h : st.Coherent) {e : Value × FieldId}
    (he : e ∈ (st.table t).fields) : fieldNamed st t (st.field e.2).name = .ok e.2 := by
  obtain ⟨-, hname, htruthy⟩ := (h.table t).field e he
  obtain ⟨s, hs, -⟩ := (h.fieldTidy e.2).name
  have hkey : e.1 = .text s := hname.symm.trans hs
  have hfind : (st.table t).field? e.1 = some e.2 :=
    Keyed.find?_of_mem (h.table t).distinct he (hkey ▸ (Value.text_same_iff s _).mpr rfl)
  have hhash : e.1.hashable := by
    rw [hkey]
    rfl
  rw [hname, fieldNamed, htruthy, hhash, hfind]
  rfl

/-- A name that no field of the table has finds none. -/
theorem Coherent.fieldNamed_of_not_mem (h : st.Coherent) {x : Value} (htruthy : x.truthy)
    (hhash : x.hashable) (hnone : ∀ e ∈ (st.table t).fields, (st.field e.2).name ≠ x) :
    fieldNamed st t x = .error (.fieldNotFound x) := by
  have hfind : (st.table t).field? x = none := by
    refine Keyed.find?_eq_none.mpr fun e he => ?_
    obtain ⟨-, hname, -⟩ := (h.table t).field e he
    obtain ⟨s, hs, -⟩ := (h.fieldTidy e.2).name
    rw [← hname, hs, Bool.eq_false_iff, ne_eq, Value.text_same_iff]
    exact fun hx => hnone e he (hs.trans hx.symm)
  rw [fieldNamed, htruthy, hhash, hfind]
  rfl

end Store

/-- **Fields are listed in the order in which they were added.**  Whatever calls were made on any
number of tables, accepted or refused, and whatever went away: the fields on record for a table are
numbered from one on; the table holds each of them under its own name, and the names are different
texts; its fields and their names are read in the order of the record; and a name gives the field
that was added under it, or the refusal that there is none. -/
theorem fields_in_call_order {st : Store} {log : TableId → List FieldId} (h : Recorded st log)
    (t : TableId) :
    ((log t).map fun f => (st.field f).order) =
      ((List.range' 1 (log t).length).map fun n : Nat => Value.int n) ∧
    (st.table t).fields = ((log t).map fun f => ((st.field f).name, f)) ∧
    (∃ texts : List String, texts.map .text = ((log t).map fun f => (st.field f).name) ∧
      texts.Nodup ∧ "" ∉ texts) ∧
    fieldsOf st t = (if log t = [] then .error .noFields else .ok (log t)) ∧
    fieldNames st t = .ok ((log t).map fun f => (st.field f).name) ∧
    (∀ f ∈ log t, fieldNamed st t (st.field f).name = .ok f) ∧
    ∀ x : Value, x.truthy → x.hashable → (∀ f ∈ log t, (st.field f).name ≠ x) →
      fieldNamed st t x = .error (.fieldNotFound x) := by
  have hcoherent := coherent_of_reachable h.reachable
  have hordered := (hcoherent.table t).orderedFields
  have hentries := hcoherent.entries_eq t
  rw [h.fields_eq t] at hordered hentries
  have hmem : ∀ f ∈ log t, ((st.field f).name, f) ∈ (st.table t).fields := fun f hf =>
    hentries ▸ List.mem_map_of_mem hf
  refine ⟨?_, hentries, ?_, ?_, ?_, ?_, ?_⟩
  · have hnumbers := (numbered_of_reachable h.reachable t).orders
    rwa [hentries, List.map_map, List.length_map] at hnumbers
  · obtain ⟨texts, htexts, hdistinct⟩ := hcoherent.fieldTexts t
    rw [hentries, List.map_map] at htexts
    exact ⟨texts, htexts, hdistinct⟩
  · rw [fieldsOf, hordered, hentries]
    rcases log t with _ | ⟨f, r⟩ <;> rfl
  · rw [fieldNames, hordered]
    rfl
  · exact fun f hf => hcoherent.fieldNamed_of_mem (hmem f hf)
  · refine fun x htruthy hhash hnone => hcoherent.fieldNamed_of_not_mem htruthy hhash ?_
    intro e he
    rw [hentries] at he
    obtain ⟨f, hf, rfl⟩ := List.mem_map.mp he
    exact hnone f hf

/-- A field whose table has gone away comes after those of the table that takes it over, and a call
that was refused leaves nothing. -/
theorem fields_in_call_order_of_moved_field :
    ∃ st log, Recorded st log ∧ log ⟨1⟩ = [⟨2⟩, ⟨0⟩] ∧ fieldsOf st ⟨1⟩ = .ok [⟨2⟩, ⟨0⟩] ∧
      fieldNames st ⟨1⟩ = .ok [.text "email", .text "id"] ∧
      fieldNamed st ⟨1⟩ (.text "ID") = .error (.fieldNotFound (.text "ID")) := by
  have hmade := (Recorded.empty.call (.makeTable [("name", .text "users")])).call
    (.makeTable [("name", .text "people")])
  -- the second field of the first table is refused, as it has the name of the first one
  have hadded := ((hmade.call (.addField ⟨0⟩ .null [("name", .text "id")])).call
    (.addField ⟨0⟩ .null [("name", .text "id")])).call
    (.addField ⟨1⟩ .null [("name", .text "email")])
  have hmoved := (hadded.sweep [.table ⟨1⟩, .field ⟨0⟩]).call
    (.addField ⟨1⟩ (.object (.field ⟨0⟩)) [])
  obtain ⟨-, -, -, hfields, hnames, -, hnone⟩ := fields_in_call_order hmoved ⟨1⟩
  refine ⟨_, _, hmoved, ?_⟩
  generalize hst : Call.after _ _ = st at hfields hnames hnone ⊢
  generalize hlog : _ ++ Call.added _ _ _ = log at hfields hnames hnone ⊢
  have hrecord : log = [⟨2⟩, ⟨0⟩] := hlog ▸ by decide +kernel
  have hemail : (st.field ⟨2⟩).name = .text "email" :=
    (Value.text_same_iff _ _).mp (hst ▸ by decide +kernel)
  have hid : (st.field ⟨0⟩).name = .text "id" :=
    (Value.text_same_iff _ _).mp (hst ▸ by decide +kernel)
  subst hrecord
  refine ⟨rfl, hfields, by simpa [hemail, hid] using hnames, hnone _ rfl rfl ?_⟩
  simp [hemail, hid]

end DbSchema
