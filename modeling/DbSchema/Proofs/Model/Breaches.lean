import DbSchema.Proofs.Model.Verdicts

/-!
# Checking decides the rules

The rules that a schema and everything in it must keep can be said without any order of checks, and
the breaches of them can be listed in the order in which a reader goes through the schema.  Checking
a schema finds no fault exactly when it keeps the rules, and reports the first breach otherwise.

## Main definitions

* `Store.ValidSchema st s`, `Store.ValidTable st t` and their like — the rules.
* `Store.schemaBreaches st s`, `Store.tableBreaches st t` and their like — what is broken, in order.
* `verdict breaches` — the first breach, if there is one.

## Main results

* `Store.schemaBreaches_eq_nil` — the rules are kept when nothing is broken.
* `checkSchema_eq_verdict` — checking a schema gives the first breach.
* `checkSchema_decides` — checking decides the rules, in every history.
-/

namespace DbSchema

/-- The names in a list of names. -/
def Value.listedNames : Value → List String
  | .list items _ => items.filterMap Value.asText?
  | _ => []

theorem isOfKind_iff {x : Constraint} {k : ConstraintKind} :
    x.isOfKind k ↔ x.kind = .constraintKind k := by
  rw [Constraint.isOfKind]
  split
  · next l hl => simp [hl]
  · next hl => simpa using hl k

namespace Store

variable (st : Store)

/-- The names of the fields of a table. -/
def columns (t : TableId) : List String :=
  (st.table t).fields.filterMap fun e => (st.field e.2).name.asText?

/-- The table that the schema of a table lists under a name. -/
def referred? (t : TableId) (name : Value) : Option TableId :=
  (st.table t).owner.bind fun s => (st.schema s).find? name

/-! ### The rules -/

/-- An index lists at least one field, and only fields of its table. -/
structure ValidIndex (t : TableId) (i : IndexId) : Prop where
  some : (st.index i).fields.listedNames ≠ []
  known : ∀ n ∈ (st.index i).fields.listedNames, n ∈ st.columns t

/-- A foreign key names a table, and if the schema of its own table lists that one, only fields of
it. -/
structure ValidReference (t : TableId) (c : ConstraintId) : Prop where
  given : (st.constraint c).referenceTable.truthy
  known : ∀ u, st.referred? t (st.constraint c).referenceTable = some u →
    ∀ n ∈ (st.constraint c).referenceFields.listedNames, n ∈ st.columns u

/-- A constraint has a kind; a check has an expression and every other constraint at least one
field; it lists only fields of its table, and a foreign key has a valid reference. -/
structure ValidConstraint (t : TableId) (c : ConstraintId) : Prop where
  kind : (st.constraint c).kind.truthy
  expression : (st.constraint c).isOfKind .check → (st.constraint c).expression.truthy
  some : ¬ (st.constraint c).isOfKind .check → (st.constraint c).fields.listedNames ≠ []
  known : ∀ n ∈ (st.constraint c).fields.listedNames, n ∈ st.columns t
  reference : (st.constraint c).isOfKind .foreignKey → st.ValidReference t c

/-- A table has a name and at least one field, and its children keep their rules. -/
structure ValidTable (t : TableId) : Prop where
  name : (st.table t).name.truthy
  some : (st.table t).fields ≠ []
  field : ∀ e ∈ (st.table t).fields, (st.field e.2).dataType.truthy
  index : ∀ i ∈ (st.table t).indices, st.ValidIndex t i
  constraint : ∀ c ∈ (st.table t).constraints, st.ValidConstraint t c

/-- A schema has a table, and its tables keep their rules. -/
structure ValidSchema (s : SchemaId) : Prop where
  some : (st.schema s).tables ≠ []
  table : ∀ e ∈ (st.schema s).tables, st.ValidTable e.2

end Store

/-! ### Breaches -/

/-- A rule as a list of its breaches. -/
def breach (rule : Prop) [Decidable rule] (e : ModelError) : List ModelError :=
  if rule then [] else [e]

/-- The first breach, if there is one. -/
def verdict : List ModelError → Except ModelError Unit
  | [] => .ok ()
  | e :: _ => .error e

namespace Store

variable (st : Store)

/-- The names of a list that are no fields of a table, in order. -/
def unknownNames (t : TableId) (names : List String) : List ModelError :=
  (names.filter (· ∉ st.columns t)).map fun n => .unknownField (.text n)

def fieldBreaches (f : FieldId) : List ModelError :=
  breach (st.field f).dataType.truthy (.childInvalid (.noDataType (st.plain (st.field f).name)))

def indexBreaches (t : TableId) (i : IndexId) : List ModelError :=
  let names := (st.index i).fields.listedNames
  breach (names ≠ []) (.childInvalid (.noFields .index (indexLabel st (st.index i)))) ++
    st.unknownNames t names

/-- What a constraint is called: its name, else its kind. -/
def constraintName (x : Constraint) : String :=
  if x.name.truthy then st.plain x.name
  else
    match x.kind with
    | .constraintKind k => k.label
    | _ => unnamed

def referenceBreaches (t : TableId) (c : ConstraintId) : List ModelError :=
  let x := st.constraint c
  breach x.referenceTable.truthy (.childInvalid (.noReference (st.constraintName x))) ++
    ((st.referred? t x.referenceTable).toList.flatMap fun u =>
      st.unknownNames u x.referenceFields.listedNames)

def constraintBreaches (t : TableId) (c : ConstraintId) : List ModelError :=
  let x := st.constraint c
  let label := st.constraintName x
  breach x.kind.truthy (.childInvalid (.noKind label)) ++
    (if x.isOfKind .check then
        breach x.expression.truthy (.childInvalid (.noExpression label))
      else breach (x.fields.listedNames ≠ []) (.childInvalid (.noFields .constraint label))) ++
    st.unknownNames t x.fields.listedNames ++
    if x.isOfKind .foreignKey then st.referenceBreaches t c else []

/-- The breaches in a table: its name, its number of fields, then its fields, its indices and its
constraints in the order in which it lists them. -/
def tableBreaches (t : TableId) : List ModelError :=
  let x := st.table t
  breach x.name.truthy .missingTableName ++ breach (x.fields ≠ []) .noFields ++
    (x.fields.flatMap fun e => st.fieldBreaches e.2) ++ x.indices.flatMap (st.indexBreaches t) ++
    x.constraints.flatMap (st.constraintBreaches t)

/-- The breaches of the rules that a constraint keeps whatever it refers to. -/
def ownBreaches (t : TableId) (c : ConstraintId) : List ModelError :=
  let x := st.constraint c
  let label := st.constraintName x
  breach x.kind.truthy (.childInvalid (.noKind label)) ++
    (if x.isOfKind .check then
        breach x.expression.truthy (.childInvalid (.noExpression label))
      else breach (x.fields.listedNames ≠ []) (.childInvalid (.noFields .constraint label))) ++
    st.unknownNames t x.fields.listedNames

theorem constraintBreaches_eq (t : TableId) (c : ConstraintId) :
    st.constraintBreaches t c = st.ownBreaches t c ++
      if (st.constraint c).isOfKind .foreignKey then st.referenceBreaches t c else [] := rfl

/-- The breaches in a table that are found before its constraints are looked at. -/
def headBreaches (t : TableId) : List ModelError :=
  let x := st.table t
  breach x.name.truthy .missingTableName ++ breach (x.fields ≠ []) .noFields ++
    (x.fields.flatMap fun e => st.fieldBreaches e.2) ++ x.indices.flatMap (st.indexBreaches t)

theorem tableBreaches_eq (t : TableId) :
    st.tableBreaches t =
      st.headBreaches t ++ (st.table t).constraints.flatMap (st.constraintBreaches t) := rfl

/-- The breaches in a schema: its number of tables, then its tables in order of registration. -/
def schemaBreaches (s : SchemaId) : List ModelError :=
  breach ((st.schema s).tables ≠ []) (.empty .tables) ++
    (st.schema s).tables.flatMap fun e => st.tableBreaches e.2

end Store

theorem breach_eq_nil {rule : Prop} [Decidable rule] {e : ModelError} :
    breach rule e = [] ↔ rule := by
  rw [breach]
  split <;> simp [*]

namespace Store

variable {st : Store} {s : SchemaId} {t : TableId}

theorem unknownNames_eq_nil {names : List String} :
    st.unknownNames t names = [] ↔ ∀ n ∈ names, n ∈ st.columns t := by
  simp [unknownNames]

theorem indexBreaches_eq_nil {i : IndexId} :
    st.indexBreaches t i = [] ↔ st.ValidIndex t i := by
  rw [indexBreaches, List.append_eq_nil_iff, breach_eq_nil, unknownNames_eq_nil]
  exact ⟨fun h => ⟨h.1, h.2⟩, fun h => ⟨h.some, h.known⟩⟩

theorem referenceBreaches_eq_nil {c : ConstraintId} :
    st.referenceBreaches t c = [] ↔ st.ValidReference t c := by
  rw [referenceBreaches, List.append_eq_nil_iff, breach_eq_nil, List.flatMap_eq_nil_iff]
  simp only [Option.mem_toList, unknownNames_eq_nil]
  exact ⟨fun h => ⟨h.1, h.2⟩, fun h => ⟨h.given, h.known⟩⟩

theorem constraintBreaches_eq_nil {c : ConstraintId} :
    st.constraintBreaches t c = [] ↔ st.ValidConstraint t c := by
  simp only [constraintBreaches, List.append_eq_nil_iff, breach_eq_nil, unknownNames_eq_nil]
  constructor
  · rintro ⟨⟨⟨hkind, hsome⟩, hknown⟩, hreference⟩
    refine ⟨hkind, fun hcheck => ?_, fun hcheck => ?_, hknown, fun hkey => ?_⟩
    · rwa [if_pos hcheck, breach_eq_nil] at hsome
    · rwa [if_neg hcheck, breach_eq_nil] at hsome
    · rwa [if_pos hkey, referenceBreaches_eq_nil] at hreference
  · intro h
    refine ⟨⟨⟨h.kind, ?_⟩, h.known⟩, ?_⟩
    · split
      · next hcheck => exact breach_eq_nil.mpr (h.expression hcheck)
      · next hcheck => exact breach_eq_nil.mpr (h.some hcheck)
    · split
      · next hkey => exact referenceBreaches_eq_nil.mpr (h.reference hkey)
      · rfl

theorem tableBreaches_eq_nil : st.tableBreaches t = [] ↔ st.ValidTable t := by
  simp only [tableBreaches, List.append_eq_nil_iff, breach_eq_nil, List.flatMap_eq_nil_iff,
    fieldBreaches, indexBreaches_eq_nil, constraintBreaches_eq_nil]
  constructor
  · rintro ⟨⟨⟨⟨hname, hsome⟩, hfield⟩, hindex⟩, hconstraint⟩
    exact ⟨hname, hsome, hfield, hindex, hconstraint⟩
  · intro h
    exact ⟨⟨⟨⟨h.name, h.some⟩, h.field⟩, h.index⟩, h.constraint⟩

/-- **A schema keeps the rules when nothing is broken.** -/
theorem schemaBreaches_eq_nil : st.schemaBreaches s = [] ↔ st.ValidSchema s := by
  simp only [schemaBreaches, List.append_eq_nil_iff, breach_eq_nil, List.flatMap_eq_nil_iff,
    tableBreaches_eq_nil]
  exact ⟨fun h => ⟨h.1, h.2⟩, fun h => ⟨h.some, h.table⟩⟩

end Store

/-! ### The first breach -/

theorem verdict_eq_ok_iff {breaches : List ModelError} :
    verdict breaches = .ok () ↔ breaches = [] := by
  cases breaches <;> simp [verdict]

theorem verdict_eq_error_iff {breaches : List ModelError} {e : ModelError} :
    verdict breaches = .error e ↔ breaches.head? = some e := by
  cases breaches <;> simp [verdict]

/-- Rules checked one after the other. -/
theorem verdict_append (l l' : List ModelError) :
    verdict (l ++ l') =
      match verdict l with
      | .error e => .error e
      | .ok () => verdict l' := by
  cases l <;> rfl

theorem verdict_append_append (l l' l'' : List ModelError) :
    verdict (l ++ (l' ++ l'')) =
      match verdict l with
      | .error e => .error e
      | .ok () =>
        match verdict l' with
        | .error e => .error e
        | .ok () => verdict l'' := by
  cases l with
  | nil => exact verdict_append l' l''
  | cons e r => rfl

/-- One rule checked before others. -/
theorem verdict_breach_append (rule : Prop) [Decidable rule] (e : ModelError)
    (l : List ModelError) :
    verdict (breach rule e ++ l) = if rule then verdict l else .error e := by
  rw [breach]
  split <;> rfl

theorem verdict_breach (rule : Prop) [Decidable rule] (e : ModelError) :
    verdict (breach rule e) = if rule then .ok () else .error e := by
  rw [breach]
  split <;> rfl

/-- Checking every member of a list gives the first breach of all of them. -/
theorem checkAll_eq_verdict {α : Type} {check : α → Except ModelError Unit}
    {breaches : α → List ModelError} {l : List α} (h : ∀ a ∈ l, check a = verdict (breaches a)) :
    checkAll check l = verdict (l.flatMap breaches) := by
  induction l with
  | nil => rfl
  | cons a r ih =>
    rw [checkAll, h a List.mem_cons_self, ih fun b hb => h b (List.mem_cons_of_mem a hb),
      List.flatMap_cons, verdict_append]
    rcases verdict (breaches a) with e | u <;> rfl

variable {st : Store} {s : SchemaId} {t : TableId}

/-! ### Names of fields -/

/-- A table finds a field under a text when one of its fields has that name. -/
theorem Store.Coherent.field?_isSome_iff (h : st.Coherent) {n : String} :
    ((st.table t).field? (.text n)).isSome ↔ n ∈ st.columns t := by
  have hkey : ∀ e ∈ (st.table t).fields,
      ∃ m, e.1 = .text m ∧ (st.field e.2).name.asText? = some m := by
    intro e he
    obtain ⟨-, hname, -⟩ := (h.table t).field e he
    obtain ⟨m, hm, -⟩ := (h.fieldTidy e.2).name
    exact ⟨m, by rw [← hname, hm], by rw [hm]; rfl⟩
  rw [Option.isSome_iff_ne_none, Table.field?, Ne, Keyed.find?_eq_none, Store.columns,
    List.mem_filterMap]
  constructor
  · intro hsome
    push Not at hsome
    obtain ⟨e, he, hsame⟩ := hsome
    obtain ⟨m, hm, htext⟩ := hkey e he
    refine ⟨e, he, ?_⟩
    rw [hm, Value.same] at hsame
    rw [htext]
    simpa using hsame
  · rintro ⟨e, he, htext⟩ hnone
    obtain ⟨m, hm, htext'⟩ := hkey e he
    have hdiffer := hnone e he
    rw [hm, Value.same] at hdiffer
    rw [htext'] at htext
    simp [Option.some.inj htext] at hdiffer

theorem Store.unknownNames_cons (n : String) (r : List String) :
    st.unknownNames t (n :: r) =
      breach (n ∈ st.columns t) (.unknownField (.text n)) ++ st.unknownNames t r := by
  by_cases hn : n ∈ st.columns t <;> simp [Store.unknownNames, breach, hn]

/-- Looking for every name of a list finds the first one that is no field of the table. -/
theorem Store.Coherent.checkNames_eq_verdict (h : st.Coherent) {names : List String}
    (hn : Normalised names) :
    checkNames st t (names.map .text) = verdict (st.unknownNames t names) := by
  induction names with
  | nil => rfl
  | cons n r ih =>
    have hrest : Normalised r := fun m hm => hn m (List.mem_cons_of_mem n hm)
    have htruthy : (Value.text n).truthy := by
      simpa [Value.truthy] using (hn n List.mem_cons_self).2
    have hfound := h.field?_isSome_iff (t := t) (n := n)
    rw [List.map_cons, checkNames, fieldNamed, ih hrest, Store.unknownNames_cons,
      verdict_breach_append]
    simp only [htruthy, Value.hashable, Bool.not_true, Bool.false_eq_true, if_false]
    rcases hf : (st.table t).field? (.text n) with _ | f <;> rw [hf] at hfound
    · have hout : n ∉ st.columns t := fun hmem => by simpa using hfound.mpr hmem
      rw [if_neg hout]
    · rw [if_pos (hfound.mp rfl)]

theorem listedNames_ofTexts (names : List String) : (Value.ofTexts names).listedNames = names := by
  rw [Value.ofTexts, Value.ofList, Value.listedNames]
  induction names with
  | nil => rfl
  | cons n r ih => rw [List.map_cons, List.filterMap_cons, ih]; rfl

theorem IsNameList.listedNames {v : Value} (h : IsNameList v) :
    v = .ofTexts v.listedNames ∧ Normalised v.listedNames := by
  obtain ⟨names, rfl, hn⟩ := h
  rw [listedNames_ofTexts]
  exact ⟨rfl, hn⟩

theorem IsNameList.truthy_iff {v : Value} (h : IsNameList v) :
    v.truthy ↔ v.listedNames ≠ [] := by
  rw [h.listedNames.1, listedNames_ofTexts]
  simp [Value.ofTexts, Value.ofList, Value.truthy]

/-- The same for the names in an attribute. -/
theorem Store.Coherent.checkFieldsExist_eq_verdict (h : st.Coherent) {v : Value}
    (hv : IsNameList v) :
    checkFieldsExist st (.table t) v = verdict (st.unknownNames t v.listedNames) := by
  obtain ⟨hlist, hnorm⟩ := hv.listedNames
  have hitems : v.items = .ok (v.listedNames.map .text) := by
    rw [hlist, listedNames_ofTexts]
    rfl
  rw [← h.checkNames_eq_verdict hnorm]
  unfold checkFieldsExist
  rw [hitems]
  rcases v.listedNames with _ | ⟨n, r⟩ <;> rfl

/-! ### Children -/

namespace Store.Coherent

variable (h : st.Coherent)
include h

theorem checkField_eq_verdict {e : Value × FieldId} (he : e ∈ (st.table t).fields) :
    checkField st e.2 = verdict (st.fieldBreaches e.2) := by
  rw [checkField_listed (h.table t) he (h.fieldTidy e.2).name.isText, fieldBreaches,
    verdict_breach]
  cases (st.field e.2).dataType.truthy <;> rfl

theorem checkIndex_eq_verdict {i : IndexId} (hi : i ∈ (st.table t).indices) :
    checkIndex st i = verdict (st.indexBreaches t i) := by
  have hlist := (h.indexTidy i).fields
  rw [checkIndex, indexBreaches, verdict_breach_append]
  simp only [(h.table t).index i hi, h.checkFieldsExist_eq_verdict hlist]
  by_cases hsome : (st.index i).fields.listedNames = []
  · have hempty : (st.index i).fields.truthy = false := by
      rw [← Bool.not_eq_true, hlist.truthy_iff]
      exact fun hne => hne hsome
    simp [hempty, hsome, broken]
  · simp [hlist.truthy_iff.mpr hsome, hsome]

/-- The label of a constraint is its name. -/
theorem constraintLabel_eq (c : ConstraintId) :
    constraintLabel st (st.constraint c) = .ok (st.constraintName (st.constraint c)) := by
  rw [constraintLabel, constraintName]
  split
  · rfl
  · rcases (h.constraintTidy c).kind with hnull | ⟨k, hk⟩
    · rw [hnull]
      rfl
    · rw [hk]
      rfl

/-- What a foreign key refers to is checked when the schema of its table lists it. -/
theorem checkReference_eq_verdict {c : ConstraintId}
    (hfit : (st.table t).owner ≠ none → (st.constraint c).referenceTable.truthy →
      (st.constraint c).referenceTable.hashable) :
    checkReference st (st.constraint c) (st.constraintName (st.constraint c)) (.table t) =
      verdict (st.referenceBreaches t c) := by
  rw [checkReference, referenceBreaches, verdict_breach_append]
  by_cases hgiven : (st.constraint c).referenceTable.truthy
  · simp only [hgiven, Bool.not_true, Bool.false_eq_true, if_false, if_true, referred?]
    rcases howner : (st.table t).owner with _ | s
    · rfl
    · have hhash := hfit (by simp [howner]) hgiven
      simp only [lookupTable, hhash, if_true, Option.bind_some]
      rcases (st.schema s).find? (st.constraint c).referenceTable with _ | u
      · rfl
      · simp only [h.checkFieldsExist_eq_verdict (h.constraintTidy c).referenceFields,
          Option.toList_some, List.flatMap_singleton]
  · simp [hgiven, broken]

/-- What a constraint is on its own is checked before what it refers to. -/
theorem checkConstraint_eq {c : ConstraintId} (hc : c ∈ (st.table t).constraints) :
    checkConstraint st c =
      match verdict (st.ownBreaches t c) with
      | .error e => .error e
      | .ok () =>
        if (st.constraint c).isOfKind .foreignKey then
          checkReference st (st.constraint c) (st.constraintName (st.constraint c)) (.table t)
        else .ok () := by
  have hlist := (h.constraintTidy c).fields
  have hkind := Value.same_null_of_kind (h.constraintTidy c).kind
  rw [checkConstraint, h.constraintLabel_eq, ownBreaches, List.append_assoc, verdict_breach_append]
  simp only [(h.table t).constraint c hc, hkind, h.checkFieldsExist_eq_verdict hlist]
  by_cases hgiven : (st.constraint c).kind.truthy
  · by_cases hcheck : (st.constraint c).isOfKind .check
    · by_cases hexpression : (st.constraint c).expression.truthy
      · rcases hnames : verdict (st.unknownNames t (st.constraint c).fields.listedNames)
        all_goals simp [hgiven, hcheck, hexpression, verdict_breach_append, hnames]
      · simp [hgiven, hcheck, hexpression, broken, verdict_breach_append]
    · by_cases hsome : (st.constraint c).fields.truthy
      · have hne := hlist.truthy_iff.mp hsome
        rcases hnames : verdict (st.unknownNames t (st.constraint c).fields.listedNames)
        all_goals simp [hgiven, hcheck, hsome, hne, verdict_breach_append, hnames]
      · have hempty : (st.constraint c).fields.listedNames = [] := by
          by_contra hne
          exact hsome (hlist.truthy_iff.mpr hne)
        simp [hgiven, hcheck, hsome, hempty, broken, verdict_breach_append]
  · simp [hgiven, broken]

theorem checkConstraint_eq_verdict {c : ConstraintId} (hc : c ∈ (st.table t).constraints)
    (hfit : (st.constraint c).isOfKind .foreignKey → (st.table t).owner ≠ none →
      (st.constraint c).referenceTable.truthy → (st.constraint c).referenceTable.hashable) :
    checkConstraint st c = verdict (st.constraintBreaches t c) := by
  rw [h.checkConstraint_eq hc, constraintBreaches_eq, verdict_append]
  by_cases hkey : (st.constraint c).isOfKind .foreignKey
  · rw [if_pos hkey, if_pos hkey, h.checkReference_eq_verdict (hfit hkey)]
  · rw [if_neg hkey, if_neg hkey]
    rfl

end Store.Coherent

/-! ### Tables and schemas -/

/-- The reference tables of the constraints in a schema are texts. -/
def Store.ReferencesTexts (st : Store) (s : SchemaId) : Prop :=
  ∀ e ∈ (st.schema s).tables, ∀ c ∈ (st.table e.2).constraints,
    IsText (st.constraint c).referenceTable

/-- A table is checked before its constraints, whatever these come to. -/
theorem Store.Coherent.checkTable_eq (h : st.Coherent) {obstacles : ConstraintId → List ModelError}
    (hconstraint : ∀ c ∈ (st.table t).constraints, checkConstraint st c = verdict (obstacles c)) :
    checkTable st t =
      verdict (st.headBreaches t ++ (st.table t).constraints.flatMap obstacles) := by
  have hfield : ∀ f ∈ (st.table t).fields.map (·.2),
      checkField st f = verdict (st.fieldBreaches f) := by
    intro f hf
    obtain ⟨e, he, rfl⟩ := List.mem_map.mp hf
    exact h.checkField_eq_verdict he
  have hfields : checkAll (checkField st) ((st.table t).fields.map (·.2)) =
      verdict ((st.table t).fields.flatMap fun e => st.fieldBreaches e.2) := by
    rw [checkAll_eq_verdict hfield, List.flatMap_map]
  have hindices : checkAll (checkIndex st) (st.table t).indices =
      verdict ((st.table t).indices.flatMap (st.indexBreaches t)) :=
    checkAll_eq_verdict fun i hi => h.checkIndex_eq_verdict hi
  -- the children are checked kind by kind, as what is found of them is listed
  have hchildren : verdict (((st.table t).fields.flatMap fun e => st.fieldBreaches e.2) ++
        ((st.table t).indices.flatMap (st.indexBreaches t) ++
          (st.table t).constraints.flatMap obstacles)) =
      match checkAll (checkField st) ((st.table t).fields.map (·.2)) with
      | .error e => .error e
      | .ok () =>
        match checkAll (checkIndex st) (st.table t).indices with
        | .error e => .error e
        | .ok () => checkAll (checkConstraint st) (st.table t).constraints := by
    rw [hfields, hindices, checkAll_eq_verdict hconstraint]
    exact verdict_append_append _ _ _
  simp only [headBreaches, List.append_assoc]
  rw [checkTable, verdict_breach_append]
  by_cases hname : (st.table t).name.truthy
  · rw [verdict_breach_append]
    by_cases hsome : (st.table t).fields = []
    · simp [hname, hsome, fieldsOf]
    · simp only [hname, hsome, (h.table t).fieldsOf hsome, Bool.not_true, Bool.false_eq_true,
        if_false, if_true, ne_eq, not_false_eq_true]
      exact hchildren.symm
  · simp [hname]

theorem Store.Coherent.checkTable_eq_verdict (h : st.Coherent)
    (htexts : ∀ c ∈ (st.table t).constraints, IsText (st.constraint c).referenceTable) :
    checkTable st t = verdict (st.tableBreaches t) := by
  rw [tableBreaches_eq]
  refine h.checkTable_eq fun c hc => h.checkConstraint_eq_verdict hc fun _ _ _ => ?_
  obtain ⟨n, hn⟩ := htexts c hc
  rw [hn]
  rfl

/-- A schema is checked table by table, whatever these come to. -/
theorem checkSchema_eq {obstacles : TableId → List ModelError}
    (htable : ∀ e ∈ (st.schema s).tables, checkTable st e.2 = verdict (obstacles e.2)) :
    checkSchema st s = verdict (breach ((st.schema s).tables ≠ []) (.empty .tables) ++
      (st.schema s).tables.flatMap fun e => obstacles e.2) := by
  have htables : checkAll (checkTable st) ((st.schema s).tables.map (·.2)) =
      verdict ((st.schema s).tables.flatMap fun e => obstacles e.2) := by
    rw [checkAll_eq_verdict (List.forall_mem_map.mpr htable), List.flatMap_map]
  rw [checkSchema, verdict_breach_append, tablesOf, ← htables]
  rcases (st.schema s).tables with _ | ⟨e, r⟩
  · rfl
  · simp

/-- **Checking a schema gives the first breach.** -/
theorem Store.Coherent.checkSchema_eq_verdict (h : st.Coherent) (htexts : st.ReferencesTexts s) :
    checkSchema st s = verdict (st.schemaBreaches s) :=
  checkSchema_eq fun e he => h.checkTable_eq_verdict (htexts e he)

/-- **Checking decides the rules.**  In every history, a schema passes the check exactly when it
keeps the rules; otherwise the check reports the first breach, where tables come in order of
registration, and in a table its name, its number of fields, its fields by their order numbers, its
indices and its constraints. -/
theorem checkSchema_decides (h : Reachable st) (htexts : st.ReferencesTexts s) :
    (checkSchema st s = .ok () ↔ st.ValidSchema s) ∧
    (∀ e, checkSchema st s = .error e ↔ (st.schemaBreaches s).head? = some e) ∧
    ∀ t, ∃ numbers : List Nat, numbers.Pairwise (· < ·) ∧
      (st.table t).fields.map (fun e => (st.field e.2).order) = numbers.map fun n => .int n := by
  have hcoherent := coherent_of_reachable h
  rw [hcoherent.checkSchema_eq_verdict htexts]
  refine ⟨?_, fun e => verdict_eq_error_iff, fun t => ?_⟩
  · rw [verdict_eq_ok_iff, Store.schemaBreaches_eq_nil]
  · obtain ⟨numbers, horders, hincreasing, -⟩ := (hcoherent.table t).orders
    exact ⟨numbers, hincreasing, horders⟩

/-- A table with a field that has no type and a foreign key to a field that is not there: the field
comes first. -/
theorem checkSchema_decides_of_untyped_field :
    let st := history [.makeSchema (.text "shop") (.text ""),
      .addTable ⟨0⟩ .null [("name", .text "users")],
      .addField ⟨0⟩ .null [("name", .text "id"), ("data_type", .text "integer")],
      .addTable ⟨0⟩ .null [("name", .text "orders")],
      .addConstraint ⟨1⟩ .null [("type", .text "foreign key"), ("fields", .text "owner"),
        ("reference_table", .text "users"), ("reference_fields", .text "uid")],
      .addField ⟨1⟩ .null [("name", .text "owner")]]
    Reachable st ∧ st.ReferencesTexts ⟨0⟩ ∧
      checkSchema st ⟨0⟩ = .error (.childInvalid (.noDataType "owner")) ∧
      ¬ st.ValidSchema ⟨0⟩ := by
  intro st
  have hst : Reachable st := reachable_history _
  have htexts : st.ReferencesTexts ⟨0⟩ := by
    unfold Store.ReferencesTexts
    decide +kernel
  obtain ⟨hvalid, hfirst, -⟩ := checkSchema_decides hst htexts
  have hhead : (st.schemaBreaches ⟨0⟩).head? = some (.childInvalid (.noDataType "owner")) := by
    with_unfolding_all rfl
  have hcheck := (hfirst _).mpr hhead
  refine ⟨hst, htexts, hcheck, fun h => ?_⟩
  rw [hvalid.mpr h] at hcheck
  cases hcheck

end DbSchema
