import DbSchema.Cli.Run
import DbSchema.Proofs.Document.Marks
import DbSchema.Proofs.Model.Verdicts

/-!
# Valid schemas stay valid

A valid schema of sound tables is written, and what is written is read again, possibly with other
marks.  Then constraints may have lost the blanks around their names, and values of any shape may
have other marks; but all that the checks demand is there again, so the schema that was read is
valid.  It is told in the same words, too.

## Main definitions

* `SameDemand x x'` — two constraints are alike in all that the checks demand of them.
* `Akin st s st' s' e e'` — entries of two registries whose tables are alike in this way.

## Main results

* `checkSchema_ok_of_akin` — a schema is valid if its tables are akin to those of a valid one.
* `Akin.tableLine` — tables that are akin are told in the same words.
* `exists_valid_reread` — a valid schema is written and read again as a valid one.
-/

namespace DbSchema

variable {st st' : Store} {s s' : SchemaId} {t t' : TableId} {e e' : Value × TableId}

/-! ### Checks that are passed -/

theorem checkAll_eq_ok_iff {α : Type} {check : α → Except ModelError Unit} {l : List α} :
    checkAll check l = .ok () ↔ ∀ a ∈ l, check a = .ok () := by
  induction l with
  | nil => simp [checkAll]
  | cons a r ih =>
    rw [checkAll, List.forall_mem_cons, ← ih]
    rcases check a with x | ⟨⟩ <;> simp

/-- Checks that are passed item by item are passed by all items. -/
theorem checkAll_ok_of_forall₂ {α β : Type} {check : α → Except ModelError Unit}
    {check' : β → Except ModelError Unit} {l : List α} {l' : List β}
    (h : List.Forall₂ (fun a b => check a = .ok () → check' b = .ok ()) l l')
    (hl : checkAll check l = .ok ()) : checkAll check' l' = .ok () := by
  rw [checkAll_eq_ok_iff] at hl ⊢
  intro b hb
  obtain ⟨a, ha, hab⟩ := exists_of_forall₂ h.flip hb
  exact hab (hl a ha)

/-- A check that is given up under a condition. -/
theorem ite_error_eq_ok_iff {p : Prop} [Decidable p] {x : ModelError}
    {check : Except ModelError Unit} :
    (if p then .error x else check) = .ok () ↔ ¬ p ∧ check = .ok () := by
  split <;> simp [*]

theorem checkIndex_ok_iff {i : IndexId} (h : (st.index i).owner = some (.table t)) :
    checkIndex st i = .ok () ↔
      (st.index i).fields.truthy ∧ checkFieldsExist st (.table t) (st.index i).fields = .ok () := by
  rw [checkIndex, h]
  dsimp only
  by_cases hsome : (st.index i).fields.truthy <;> simp [hsome, broken]

/-- A foreign key names a table, and if the schema lists a table under the name, only fields of
it. -/
structure Store.ReferencePasses (st : Store) (s : SchemaId) (x : ConstraintSpec) : Prop where
  given : x.referenceTable.truthy
  hashable : x.referenceTable.hashable
  known : ∀ u, (st.schema s).find? x.referenceTable = some u →
    checkFieldsExist st (.table u) x.referenceFields = .ok ()

theorem checkReference_ok_iff {x : Constraint} {label : String}
    (howner : (st.table t).owner = some s) :
    checkReference st x label (.table t) = .ok () ↔ st.ReferencePasses s x.toConstraintSpec := by
  rw [checkReference]
  simp only [howner, lookupTable]
  constructor
  · intro h
    by_cases htruthy : x.referenceTable.truthy
    · by_cases hhash : x.referenceTable.hashable
      · refine ⟨htruthy, hhash, fun u hu => ?_⟩
        simpa [htruthy, hhash, hu] using h
      · simp [htruthy, hhash] at h
    · simp [htruthy, broken] at h
  · rintro ⟨htruthy, hhash, hknown⟩
    simp only [htruthy, hhash, Bool.not_true, Bool.false_eq_true, if_false, if_true]
    rcases hfind : (st.schema s).find? x.referenceTable with _ | u
    · rfl
    · exact hknown u hfind

/-- A constraint has a kind and what this needs. -/
structure Store.ConstraintPasses (st : Store) (s : SchemaId) (t : TableId) (x : Constraint) :
    Prop where
  kind : x.kind.truthy
  expression : x.isOfKind .check → x.expression.truthy
  some : ¬ x.isOfKind .check → x.fields.truthy
  known : checkFieldsExist st (.table t) x.fields = .ok ()
  reference : x.isOfKind .foreignKey → st.ReferencePasses s x.toConstraintSpec

theorem checkConstraint_ok_iff {c : ConstraintId} (howner : (st.table t).owner = some s)
    (hin : (st.constraint c).owner = some (.table t))
    (hkind : (st.constraint c).kind = .null ∨ ∃ k, (st.constraint c).kind = .constraintKind k) :
    checkConstraint st c = .ok () ↔ st.ConstraintPasses s t (st.constraint c) := by
  -- whatever the constraint is called, that matters in errors only
  obtain ⟨label, hlabel⟩ : ∃ label, constraintLabel st (st.constraint c) = .ok label := by
    rw [constraintLabel]
    rcases hkind with hnull | ⟨k, hk⟩
    · rw [hnull]
      split <;> exact ⟨_, rfl⟩
    · rw [hk]
      split <;> exact ⟨_, rfl⟩
  have hgiven := Value.same_null_of_kind hkind
  have hreference : checkReference st (st.constraint c) label (.table t) = .ok () ↔
      st.ReferencePasses s (st.constraint c).toConstraintSpec := checkReference_ok_iff howner
  rw [checkConstraint, hlabel]
  simp only [hin, hgiven, broken, ite_error_eq_ok_iff]
  constructor
  · rintro ⟨hkind, hexpression, hsome, hrest⟩
    rcases hknown : checkFieldsExist st (.table t) (st.constraint c).fields with x | ⟨⟩ <;>
      rw [hknown] at hrest
    · cases hrest
    · refine ⟨by simpa using hkind, fun hcheck => by simpa [hcheck] using hexpression,
        fun hcheck => by simpa [hcheck] using hsome, hknown, fun hkey => ?_⟩
      rw [if_pos hkey] at hrest
      exact hreference.mp hrest
  · intro h
    refine ⟨by simp [h.kind], ?_, ?_, ?_⟩
    · by_cases hcheck : (st.constraint c).isOfKind .check <;> simp [hcheck, h.expression]
    · by_cases hcheck : (st.constraint c).isOfKind .check <;> simp [hcheck, h.some]
    · rw [h.known]
      dsimp only
      split
      · next hkey => exact hreference.mpr (h.reference hkey)
      · rfl

/-- A table has a name and fields, and its children pass their checks. -/
structure Store.TablePasses (st : Store) (t : TableId) : Prop where
  named : (st.table t).name.truthy
  some : (st.table t).fields ≠ []
  fields : checkAll (checkField st) ((st.table t).fields.map (·.2)) = .ok ()
  indices : checkAll (checkIndex st) (st.table t).indices = .ok ()
  constraints : checkAll (checkConstraint st) (st.table t).constraints = .ok ()

theorem checkTable_ok_iff (h : st.TableCoherent t) :
    checkTable st t = .ok () ↔ st.TablePasses t := by
  rw [checkTable]
  simp only [ite_error_eq_ok_iff]
  constructor
  · rintro ⟨hname, hrest⟩
    by_cases hsome : (st.table t).fields = []
    · simp [fieldsOf, hsome] at hrest
    · rw [h.fieldsOf hsome] at hrest
      dsimp only at hrest
      rcases hfields : checkAll (checkField st) ((st.table t).fields.map (·.2)) with x | ⟨⟩ <;>
        rw [hfields] at hrest
      · cases hrest
      rcases hindices : checkAll (checkIndex st) (st.table t).indices with x | ⟨⟩ <;>
        rw [hindices] at hrest
      · cases hrest
      · exact ⟨by simpa using hname, hsome, hfields, hindices, hrest⟩
  · intro hpass
    refine ⟨by simp [hpass.named], ?_⟩
    rw [h.fieldsOf hpass.some]
    dsimp only
    rw [hpass.fields]
    dsimp only
    rw [hpass.indices]
    exact hpass.constraints

theorem checkSchema_ok_iff :
    checkSchema st s = .ok () ↔
      (st.schema s).tables ≠ [] ∧ ∀ e ∈ (st.schema s).tables, checkTable st e.2 = .ok () := by
  by_cases hsome : (st.schema s).tables = []
  · simp [checkSchema, tablesOf, hsome]
  · rw [checkSchema, tablesOf_eq hsome]
    dsimp only
    rw [checkAll_eq_ok_iff, List.forall_mem_map]
    exact (and_iff_right hsome).symm

/-! ### Tables that are akin -/

/-- Two constraints are alike in all that the checks demand of them: in everything but their names
and their actions, and apart from marks. -/
structure SameDemand (x x' : ConstraintSpec) : Prop where
  kind : x.kind = x'.kind
  fields : x.fields = x'.fields
  referenceFields : x.referenceFields = x'.referenceFields
  given : x.referenceTable.truthy = x'.referenceTable.truthy
  reference : x.referenceTable.truthy → x.referenceTable.bare = x'.referenceTable.bare
  expression : x.expression.truthy = x'.expression.truthy

/-- Entries of two registries under one name whose tables are alike in all that the checks
demand. -/
structure Akin (st : Store) (s : SchemaId) (st' : Store) (s' : SchemaId)
    (e e' : Value × TableId) : Prop where
  key : e.1 = e'.1
  isText : IsText e.1
  name : (st.table e.2).name = e.1
  name' : (st'.table e'.2).name = e'.1
  owner : (st.table e.2).owner = some s
  owner' : (st'.table e'.2).owner = some s'
  sound : st.SoundTable e.2
  sound' : st'.SoundTable e'.2
  fields : (st.outline e.2).fields.map (fun x => (x.name, x.dataType)) =
    (st'.outline e'.2).fields.map fun x => (x.name, x.dataType)
  indices : (st.outline e.2).indices.map (·.fields) = (st'.outline e'.2).indices.map (·.fields)
  constraints : List.Forall₂ SameDemand (st.outline e.2).constraints (st'.outline e'.2).constraints

namespace Akin

variable (h : Akin st s st' s' e e')
include h

/-- The tables list their fields under the same names. -/
theorem keys : (st.table e.2).fields.map (·.1) = (st'.table e'.2).fields.map (·.1) := by
  have hnames := congrArg (List.map Prod.fst) h.fields
  rw [List.map_map, List.map_map] at hnames
  rw [h.sound.coherent.keys, h.sound'.coherent.keys]
  exact hnames

/-- Constraints in the same place are alike. -/
theorem forall₂_constraints : List.Forall₂ (fun c c' =>
    (c ∈ (st.table e.2).constraints ∧ c' ∈ (st'.table e'.2).constraints) ∧
      SameDemand (st.constraint c).toConstraintSpec (st'.constraint c').toConstraintSpec)
    (st.table e.2).constraints (st'.table e'.2).constraints := by
  have hall : List.Forall₂ (fun c c' =>
      SameDemand (st.constraint c).toConstraintSpec (st'.constraint c').toConstraintSpec)
      (st.table e.2).constraints (st'.table e'.2).constraints :=
    List.forall₂_map_left_iff.mp (List.forall₂_map_right_iff.mp h.constraints)
  have hleft := (List.forall₂_and_left _ _).mpr ⟨fun c hc => hc, hall⟩
  have hright := (List.forall₂_and_left _ _).mpr ⟨fun c hc => hc, hleft.flip⟩
  exact hright.flip.imp fun c c' hc => ⟨⟨hc.2.1, hc.1⟩, hc.2.2⟩

theorem checkFields_ok
    (hok : checkAll (checkField st) ((st.table e.2).fields.map (·.2)) = .ok ()) :
    checkAll (checkField st') ((st'.table e'.2).fields.map (·.2)) = .ok () := by
  have hfields := h.fields
  rw [Store.outline, Store.outline, List.map_map, List.map_map] at hfields
  refine checkAll_ok_of_forall₂ (List.forall₂_map_left_iff.mpr (List.forall₂_map_right_iff.mpr
    ((forall₂_of_map_eq hfields).imp fun d d' hd => ?_))) hok
  obtain ⟨hmem, hmem', hsame⟩ := hd
  obtain ⟨-, htype⟩ := Prod.ext_iff.mp hsame
  dsimp only [Function.comp_apply] at htype
  rw [checkField_listed h.sound.coherent hmem (h.sound.field d hmem).name.isText,
    checkField_listed h.sound'.coherent hmem' (h.sound'.field d' hmem').name.isText, ← htype]
  split
  · exact fun hfalse => by cases hfalse
  · exact fun _ => rfl

theorem checkIndices_ok (hok : checkAll (checkIndex st) (st.table e.2).indices = .ok ()) :
    checkAll (checkIndex st') (st'.table e'.2).indices = .ok () := by
  have hindices := h.indices
  rw [Store.outline, Store.outline, List.map_map, List.map_map] at hindices
  refine checkAll_ok_of_forall₂ ((forall₂_of_map_eq hindices).imp fun i i' hi => ?_) hok
  obtain ⟨hmem, hmem', hsame⟩ := hi
  have hfields : (st'.index i').fields = (st.index i).fields := hsame.symm
  rw [checkIndex_ok_iff (h.sound.coherent.index i hmem),
    checkIndex_ok_iff (h.sound'.coherent.index i' hmem'), hfields, checkFieldsExist_congr h.keys]
  exact id

end Akin

/-- Under texts, a value is found whatever its marks are. -/
theorem find?_bare {α : Type} {entries : List (Value × α)} (h : ∀ e ∈ entries, IsText e.1)
    (v : Value) : Keyed.find? Value.same v.bare entries = Keyed.find? Value.same v entries := by
  induction entries with
  | nil => rfl
  | cons e r ih =>
    rw [Keyed.find?, Keyed.find?, Value.same_bare_of_isText (h e List.mem_cons_self),
      ih fun d hd => h d (List.mem_cons_of_mem e hd)]

section

variable (hall : List.Forall₂ (Akin st s st' s') (st.schema s).tables (st'.schema s').tables)
include hall

/-- A table that the second schema lists under a name is akin to one that the first schema lists
there. -/
theorem exists_find?_of_akin {v v' : Value} (hv : v.bare = v'.bare) {u' : TableId}
    (hu : (st'.schema s').find? v' = some u') :
    ∃ u, (st.schema s).find? v = some u ∧
      (st.table u).fields.map (·.1) = (st'.table u').fields.map (·.1) := by
  have htext : ∀ d ∈ (st.schema s).tables, IsText d.1 := fun d hd =>
    have ⟨_, _, hd'⟩ := exists_of_forall₂ hall hd
    hd'.isText
  have htext' : ∀ d' ∈ (st'.schema s').tables, IsText d'.1 := fun d' hd' =>
    have ⟨_, _, hd⟩ := exists_of_forall₂ hall.flip hd'
    Akin.key hd ▸ Akin.isText hd
  have hrel : Option.Rel
      (fun u u' => (st.table u).fields.map (·.1) = (st'.table u').fields.map (·.1))
      ((st.schema s).find? v) ((st'.schema s').find? v') := by
    rw [Schema.find?, Schema.find?, ← find?_bare htext, ← find?_bare htext', hv]
    exact Keyed.find?_rel (hall.imp fun d d' hd => ⟨hd.key, hd.keys⟩) _
  rw [hu] at hrel
  generalize (st.schema s).find? v = found at hrel ⊢
  cases hrel with
  | some hkeys => exact ⟨_, rfl, hkeys⟩

theorem referencePasses_of_akin {x x' : ConstraintSpec} (h : SameDemand x x')
    (hx : st.ReferencePasses s x) : st'.ReferencePasses s' x' where
  given := h.given ▸ hx.given
  hashable := by
    rw [← Value.hashable_bare, ← h.reference hx.given, Value.hashable_bare]
    exact hx.hashable
  known u' hu' := by
    obtain ⟨u, hu, hkeys⟩ := exists_find?_of_akin hall (h.reference hx.given) hu'
    rw [← h.referenceFields, ← checkFieldsExist_congr hkeys]
    exact hx.known u hu

theorem Akin.checkConstraints_ok (h : Akin st s st' s' e e')
    (hok : checkAll (checkConstraint st) (st.table e.2).constraints = .ok ()) :
    checkAll (checkConstraint st') (st'.table e'.2).constraints = .ok () := by
  refine checkAll_ok_of_forall₂ (h.forall₂_constraints.imp fun c c' hc => ?_) hok
  obtain ⟨⟨hmem, hmem'⟩, hsame⟩ := hc
  have hkind : ∀ k, (st'.constraint c').isOfKind k = (st.constraint c).isOfKind k := fun k => by
    rw [Constraint.isOfKind, Constraint.isOfKind, hsame.kind]
  rw [checkConstraint_ok_iff h.owner (h.sound.coherent.constraint c hmem)
      (h.sound.constraint c hmem).kind,
    checkConstraint_ok_iff h.owner' (h.sound'.coherent.constraint c' hmem')
      (h.sound'.constraint c' hmem').kind]
  intro hpass
  refine ⟨hsame.kind ▸ hpass.kind, fun hcheck => ?_, fun hcheck => ?_, ?_, fun hkey => ?_⟩
  · exact hsame.expression ▸ hpass.expression (hkind _ ▸ hcheck)
  · exact hsame.fields ▸ hpass.some (hkind _ ▸ hcheck)
  · rw [← hsame.fields, ← checkFieldsExist_congr h.keys]
    exact hpass.known
  · exact referencePasses_of_akin hall hsame (hpass.reference (hkind _ ▸ hkey))

theorem Akin.checkTable_ok (h : Akin st s st' s' e e') (hok : checkTable st e.2 = .ok ()) :
    checkTable st' e'.2 = .ok () := by
  rw [checkTable_ok_iff h.sound.coherent] at hok
  rw [checkTable_ok_iff h.sound'.coherent]
  refine ⟨?_, fun hnone => hok.some ?_, h.checkFields_ok hok.fields, h.checkIndices_ok hok.indices,
    h.checkConstraints_ok hall hok.constraints⟩
  · rw [h.name', ← h.key, ← h.name]
    exact hok.named
  · rw [← List.map_eq_nil_iff (f := Prod.fst), h.keys, hnone, List.map_nil]

/-- **A schema is valid** if its tables are akin to those of a valid one. -/
theorem checkSchema_ok_of_akin (hok : checkSchema st s = .ok ()) :
    checkSchema st' s' = .ok () := by
  rw [checkSchema_ok_iff] at hok ⊢
  refine ⟨fun hnone => hok.1 ?_, fun e' he' => ?_⟩
  · rwa [hnone, List.forall₂_nil_right_iff] at hall
  · obtain ⟨e, he, hakin⟩ := exists_of_forall₂ hall.flip he'
    exact Akin.checkTable_ok hall hakin (hok.2 e he)

end

/-- A valid schema of sound tables stays valid when anything but its tables is changed. -/
theorem checkSchema_ok_setSchema (h : st.SoundSchema s) (hok : checkSchema st s = .ok ())
    {x : Schema} (hx : x.tables = (st.schema s).tables) :
    checkSchema (st.setSchema s x) s = .ok () := by
  have h' := h.setSchema hx
  have htables : ((st.setSchema s x).schema s).tables = (st.schema s).tables := by
    rw [Store.schema_setSchema_self, hx]
  refine checkSchema_ok_of_akin ?_ hok
  rw [htables]
  refine List.forall₂_same.mpr fun e he => ?_
  have he' : e ∈ ((st.setSchema s x).schema s).tables := htables ▸ he
  exact ⟨rfl, h.key e he ▸ h.name e he, (h.key e he).symm, (h'.key e he').symm, h.owner e he,
    h'.owner e he', h.sound e he, h'.sound e he', rfl, rfl,
    List.forall₂_same.mpr fun y _ => ⟨rfl, rfl, rfl, rfl, fun _ => rfl, rfl⟩⟩

/-! ### Tables in a few words -/

/-- What is found first in lists that match is found in the same place. -/
theorem rel_find? {α β : Type} {R : α → β → Prop} {p : α → Bool} {q : β → Bool} {l : List α}
    {l' : List β} (h : List.Forall₂ (fun a b => p a = q b ∧ R a b) l l') :
    Option.Rel R (l.find? p) (l'.find? q) := by
  induction h with
  | nil => exact .none
  | @cons a b l l' hab _ ih =>
    obtain ⟨hpq, hR⟩ := hab
    rw [List.find?_cons, List.find?_cons, hpq]
    cases q b
    · exact ih
    · exact .some hR

namespace Akin

variable (h : Akin st s st' s' e e')
include h

/-- The first primary keys list the same fields, if there are any. -/
theorem firstPrimaryKey :
    Option.Rel (fun c c' => (st.constraint c).fields = (st'.constraint c').fields)
    (firstPrimaryKey? st (st.table e.2).constraints)
    (firstPrimaryKey? st' (st'.table e'.2).constraints) :=
  rel_find? (h.forall₂_constraints.imp fun c c' hc =>
    ⟨by rw [Constraint.isOfKind, Constraint.isOfKind, hc.2.kind], hc.2.fields⟩)

theorem describeKey_eq : Cli.describeKey st e.2 = Cli.describeKey st' e'.2 := by
  have hkey := h.firstPrimaryKey
  rw [Cli.describeKey, Cli.describeKey, primaryKeyOf, primaryKeyOf]
  generalize firstPrimaryKey? st (st.table e.2).constraints = found at hkey ⊢
  generalize firstPrimaryKey? st' (st'.table e'.2).constraints = found' at hkey ⊢
  cases hkey with
  | none => rfl
  | some hfields => simp only [hfields]

/-- **Tables that are akin are told in the same words.** -/
theorem tableLine_eq : Cli.tableLine st e.2 = Cli.tableLine st' e'.2 := by
  have hfields : (st.table e.2).fields.length = (st'.table e'.2).fields.length := by
    rw [← List.length_map (f := Prod.fst), h.keys, List.length_map]
  have hindices : (st.table e.2).indices.length = (st'.table e'.2).indices.length := by
    have hlength := congrArg List.length h.indices
    simpa [Store.outline] using hlength
  have hconstraints : (st.table e.2).constraints.length = (st'.table e'.2).constraints.length :=
    h.forall₂_constraints.length_eq
  rw [Cli.tableLine, Cli.tableLine, Cli.describe, Cli.describe, h.describeKey_eq, h.name, h.name',
    ← h.key, h.isText.plain_eq st st', hfields, hindices, hconstraints]

end Akin

/-! ### Schemas that are read again -/

/-- What is the same when it is settled, but for a trimmed name and other marks, is alike. -/
theorem sameDemand_of_bare {x x' : ConstraintSpec} {owner : Ref} (hx : x.NearlyTidy)
    (hx' : x'.NearlyTidy) (h : (x.settle owner).trimmed.bare = x'.bare) : SameDemand x x' := by
  have hkind : ∀ {y : ConstraintSpec}, y.NearlyTidy → y.kind.bare = y.kind := fun {y} hy => by
    rcases hy.kind with hnull | ⟨k, hk⟩
    · rw [hnull]
      rfl
    · rw [hk]
      rfl
  have htable : (settledText owner "reference_table" x.referenceTable).bare =
      x'.referenceTable.bare := congrArg ConstraintSpec.referenceTable h
  have hexpression : (settledText owner "expression" x.expression).bare = x'.expression.bare :=
    congrArg ConstraintSpec.expression h
  refine ⟨?_, ?_, ?_, ?_, fun hgiven => ?_, ?_⟩
  · rw [← hkind hx, ← hkind hx']
    exact congrArg ConstraintSpec.kind h
  · rw [← hx.fields.bare_eq, ← hx'.fields.bare_eq]
    exact congrArg ConstraintSpec.fields h
  · rw [← hx.referenceFields.bare_eq, ← hx'.referenceFields.bare_eq]
    exact congrArg ConstraintSpec.referenceFields h
  · rw [← truthy_settledText owner "reference_table", ← Value.truthy_bare, htable,
      Value.truthy_bare]
  · rw [← htable, settledText, if_pos hgiven, bare_slotValue]
  · rw [← truthy_settledText owner "expression", ← Value.truthy_bare, hexpression,
      Value.truthy_bare]

/-- A table that is read with the settled outline, but for trimmed names of constraints and other
marks, is akin. -/
theorem akin_of_bare {o : TableOutline} (hs : st.SoundSchema s) (he : e ∈ (st.schema s).tables)
    (he' : ListedAs st' s' e' o) (ht : o.Tidy)
    (hbare : (settledOutline st e.2).trimmed.bare = o.bare) : Akin st s st' s' e e' := by
  have hsound := hs.sound e he
  have hsound' := he'.sound ht
  have hname : (st.table e.2).name.bare = o.name.bare := congrArg TableOutline.name hbare
  rw [(hs.name e he).bare_eq, ht.name.bare_eq, ← hs.key e he, ← he'.key] at hname
  refine ⟨hname, ?_, (hs.key e he).symm, ?_, hs.owner e he, he'.owner, hsound, hsound', ?_, ?_, ?_⟩
  · rw [hs.key e he]
    exact hs.name e he
  · rw [he'.key]
    exact congrArg TableOutline.name he'.outline
  · rw [he'.outline]
    -- the names and types of fields are texts, so the marks that are lost do not matter
    have hfields : ((st.table e.2).fields.map fun d =>
        (st.field d.2).toFieldSpec.settle (.field d.2)).map (fun x => (x.name, x.dataType)) =
        o.fields.map fun x => (x.name, x.dataType) := by
      refine map_eq_of_bare_eq (fun x hx => ?_) (fun x hx => ?_)
        (congrArg TableOutline.fields hbare)
      · exact congrArg₂ Prod.mk (ht.field x hx).name.isText.bare_eq
          (ht.field x hx).dataType.isText.bare_eq
      · obtain ⟨d, hd, rfl⟩ := List.mem_map.mp hx
        exact congrArg₂ Prod.mk (hsound.field d hd).name.isText.bare_eq
          (hsound.field d hd).dataType.isText.bare_eq
    rw [← hfields, Store.outline, List.map_map, List.map_map]
    rfl
  · rw [he'.outline]
    refine map_eq_of_bare_eq (fun x hx => (ht.index x hx).fields.bare_eq) (fun x hx => ?_)
      (congrArg TableOutline.indices hbare)
    obtain ⟨i, hi, rfl⟩ := List.mem_map.mp hx
    exact (hsound.index i hi).fields.bare_eq
  · rw [he'.outline]
    -- constraints may also have values of other shapes, and agree in what is demanded
    have hconstraints : ((st.table e.2).constraints.map fun c =>
        ((st.constraint c).toConstraintSpec.settle (.constraint c)).trimmed.bare) =
        o.constraints.map ConstraintSpec.bare := by
      have hread := congrArg TableOutline.constraints hbare
      simp only [TableOutline.trimmed, TableOutline.bare, settledOutline, List.map_map] at hread
      exact hread
    refine List.forall₂_map_left_iff.mpr ((forall₂_of_map_eq hconstraints).imp fun c x hc => ?_)
    exact sameDemand_of_bare (hsound.constraint c hc.1) (ht.constraint x hc.2.1).nearly hc.2.2

/-- A valid schema of sound tables has tables, and these have fields. -/
theorem Store.SoundSchema.legible (h : st.SoundSchema s) (hok : checkSchema st s = .ok ()) :
    st.Legible s := by
  rw [checkSchema_ok_iff] at hok
  refine ⟨hok.1, fun e he => ?_, h.distinct⟩
  have hsound := h.sound e he
  exact
    { hsound with
      name := h.name e he
      named := h.named e he
      fields := ((checkTable_ok_iff hsound.coherent).mp (hok.2 e he)).some }

/-- **A valid schema of sound tables is written, and read again as a valid schema**, whatever marks
there are when it is read; table by table, the two are akin. -/
theorem exists_valid_reread (h : st.SoundSchema s) (hok : checkSchema st s = .ok ())
    {v w : Value} (hv : encodeSchema st s = .ok v) (hw : w.bare = v.bare) (path : String)
    (st₀ : Store) :
    ∃ s' st', outcome (decodeDocument path w) st₀ = (.ok s', st') ∧
      checkSchema st' s' = .ok () ∧
      List.Forall₂ (Akin st s st' s') (st.schema s).tables (st'.schema s').tables := by
  have hlegible := h.legible hok
  obtain ⟨_, hv', hdescribe⟩ := hlegible.describes
  cases hv.symm.trans hv'
  obtain ⟨o, hdescribe', hbare⟩ := hdescribe.of_bare hw
  have hbuild : o.Buildable :=
    hlegible.buildable.of_bare hdescribe.tidy hdescribe'.tidy hbare
  obtain ⟨s', st', hread, -, hload⟩ :=
    (ensures_decodeDocument hdescribe' hbuild path st₀).exists_ok rfl
  -- the tables match entry by entry, for their outlines do
  have hmap : (st.schema s).tables.map (fun e => (settledOutline st e.2).trimmed.bare) =
      (st'.schema s').tables.map fun e' => (st'.outline e'.2).bare := by
    have htables := congrArg SchemaOutline.tables (hload.schemaOutline_eq ▸ hbare)
    simp only [SchemaOutline.bare, SchemaOutline.trimmed, settledSchema, Store.schemaOutline,
      List.map_map] at htables
    exact htables.symm
  have hall : List.Forall₂ (Akin st s st' s') (st.schema s).tables (st'.schema s').tables := by
    refine (forall₂_of_map_eq hmap).imp fun e e' he => ?_
    obtain ⟨o', ho', hlisted⟩ := exists_of_forall₂ hload.lists he.2.1
    have hlisted : ListedAs st' s' e' o' := hlisted
    exact akin_of_bare h he.1 hlisted (hdescribe'.tidy o' ho') (hlisted.outline ▸ he.2.2)
  exact ⟨s', st', hread, checkSchema_ok_of_akin hall hok, hall⟩

end DbSchema
