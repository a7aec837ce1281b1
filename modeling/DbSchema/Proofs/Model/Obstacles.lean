import DbSchema.Proofs.Model.Breaches

/-!
# What a check comes to in every store

The reference table of a foreign key can be any value.  When it is to be looked up but can be no
key, no rule is broken, and yet the check stops without a verdict.  Written down in its place among
the breaches, this gives a list of obstacles for every schema, and checking the schema comes to the
first of them.

## Main definitions

* `Store.Unfindable st t c` — a foreign key whose reference table is to be looked up but can be no
  key.
* `Store.schemaObstacles st s`, `Store.tableObstacles st t`, `Store.constraintObstacles st t c` —
  what a check runs into, in order.
* `Store.ClearSchema st s`, `Store.ClearTable st t`, `Store.ClearConstraint st t c` — nothing stands
  in the way: the rules are kept, and every reference table that is looked up can be a key.
* `Judged st s` — asking whether a schema is valid comes to a verdict.
* `Store.StopsAt st s f` — the check of a schema stops at a fault before that.

## Main results

* `Store.Coherent.checkSchema_eq_obstacle` — checking a schema gives the first obstacle.
* `Store.Coherent.checkSchema_ok_iff_clear` — it passes the check when there is none.
* `Store.fault?_of_mem_schemaObstacles` — an obstacle is a breach or the fault of a look-up.
* `Store.Coherent.judged_iff` — asking comes to a verdict unless the check stops at a fault.
-/

namespace DbSchema

namespace Store

variable (st : Store)

/-- A foreign key of a table in a schema gives a reference table that can be no key. -/
structure Unfindable (t : TableId) (c : ConstraintId) : Prop where
  foreign : (st.constraint c).isOfKind .foreignKey
  attached : (st.table t).owner ≠ none
  given : (st.constraint c).referenceTable.truthy
  unhashable : ¬ (st.constraint c).referenceTable.hashable

instance (t : TableId) (c : ConstraintId) : Decidable (st.Unfindable t c) :=
  decidable_of_iff ((st.constraint c).isOfKind .foreignKey ∧ (st.table t).owner ≠ none ∧
      (st.constraint c).referenceTable.truthy ∧ ¬ (st.constraint c).referenceTable.hashable)
    ⟨fun h => ⟨h.1, h.2.1, h.2.2.1, h.2.2.2⟩,
      fun h => ⟨h.foreign, h.attached, h.given, h.unhashable⟩⟩

/-- The fault of looking up what a foreign key refers to. -/
def lookupFault (c : ConstraintId) : ModelError :=
  .fault (.unhashable (st.constraint c).referenceTable)

/-- What a check of a constraint runs into: its breaches, or those of its own and then the fault of
a look-up. -/
def constraintObstacles (t : TableId) (c : ConstraintId) : List ModelError :=
  if st.Unfindable t c then st.ownBreaches t c ++ [st.lookupFault c] else st.constraintBreaches t c

def tableObstacles (t : TableId) : List ModelError :=
  st.headBreaches t ++ (st.table t).constraints.flatMap (st.constraintObstacles t)

def schemaObstacles (s : SchemaId) : List ModelError :=
  breach ((st.schema s).tables ≠ []) (.empty .tables) ++
    (st.schema s).tables.flatMap fun e => st.tableObstacles e.2

/-- Nothing stands in the way of a constraint: it keeps its rules, and it gives no reference table
that is to be looked up but can be no key. -/
structure ClearConstraint (t : TableId) (c : ConstraintId) : Prop where
  valid : st.ValidConstraint t c
  findable : ¬ st.Unfindable t c

/-- Nothing stands in the way of a table. -/
structure ClearTable (t : TableId) : Prop where
  name : (st.table t).name.truthy
  some : (st.table t).fields ≠ []
  field : ∀ e ∈ (st.table t).fields, (st.field e.2).dataType.truthy
  index : ∀ i ∈ (st.table t).indices, st.ValidIndex t i
  constraint : ∀ c ∈ (st.table t).constraints, st.ClearConstraint t c

/-- Nothing stands in the way of a schema. -/
structure ClearSchema (s : SchemaId) : Prop where
  some : (st.schema s).tables ≠ []
  table : ∀ e ∈ (st.schema s).tables, st.ClearTable e.2

variable {st : Store} {s : SchemaId} {t : TableId} {c : ConstraintId}

/-! ### The first obstacle -/

theorem Unfindable.checkReference_eq (h : st.Unfindable t c) (label : String) :
    checkReference st (st.constraint c) label (.table t) = .error (st.lookupFault c) := by
  obtain ⟨s, howner⟩ := Option.ne_none_iff_exists'.mp h.attached
  rw [checkReference]
  simp [h.given, howner, lookupTable, h.unhashable, lookupFault]

theorem Coherent.checkConstraint_eq_obstacle (h : st.Coherent)
    (hc : c ∈ (st.table t).constraints) :
    checkConstraint st c = verdict (st.constraintObstacles t c) := by
  rw [constraintObstacles]
  split
  · next hun =>
    rw [h.checkConstraint_eq hc, verdict_append, if_pos hun.foreign, hun.checkReference_eq]
    rfl
  · next hfit =>
    exact h.checkConstraint_eq_verdict hc fun hkey howner hgiven =>
      by_contra fun hhash => hfit ⟨hkey, howner, hgiven, hhash⟩

/-- **Checking a schema gives the first obstacle**, whatever its foreign keys refer to. -/
theorem Coherent.checkSchema_eq_obstacle (h : st.Coherent) (s : SchemaId) :
    checkSchema st s = verdict (st.schemaObstacles s) :=
  checkSchema_eq fun _ _ => h.checkTable_eq fun _ hc => h.checkConstraint_eq_obstacle hc

/-! ### No obstacles -/

theorem constraintObstacles_eq_nil :
    st.constraintObstacles t c = [] ↔ st.ClearConstraint t c := by
  rw [constraintObstacles]
  split
  · next hun => simpa using fun h : st.ClearConstraint t c => h.findable hun
  · next hfit =>
    rw [constraintBreaches_eq_nil]
    exact ⟨fun h => ⟨h, hfit⟩, fun h => h.valid⟩

theorem tableObstacles_eq_nil : st.tableObstacles t = [] ↔ st.ClearTable t := by
  simp only [tableObstacles, headBreaches, List.append_eq_nil_iff, breach_eq_nil,
    List.flatMap_eq_nil_iff, fieldBreaches, indexBreaches_eq_nil, constraintObstacles_eq_nil]
  constructor
  · rintro ⟨⟨⟨⟨hname, hsome⟩, hfield⟩, hindex⟩, hconstraint⟩
    exact ⟨hname, hsome, hfield, hindex, hconstraint⟩
  · intro h
    exact ⟨⟨⟨⟨h.name, h.some⟩, h.field⟩, h.index⟩, h.constraint⟩

theorem schemaObstacles_eq_nil : st.schemaObstacles s = [] ↔ st.ClearSchema s := by
  simp only [schemaObstacles, List.append_eq_nil_iff, breach_eq_nil, List.flatMap_eq_nil_iff,
    tableObstacles_eq_nil]
  exact ⟨fun h => ⟨h.1, h.2⟩, fun h => ⟨h.some, h.table⟩⟩

/-- **A schema passes the check when nothing stands in its way.** -/
theorem Coherent.checkSchema_ok_iff_clear (h : st.Coherent) :
    checkSchema st s = .ok () ↔ st.ClearSchema s := by
  rw [h.checkSchema_eq_obstacle, verdict_eq_ok_iff, schemaObstacles_eq_nil]

/-- A schema that has nothing in its way keeps the rules. -/
theorem ClearSchema.valid (h : st.ClearSchema s) : st.ValidSchema s where
  some := h.some
  table e he :=
    have ht := h.table e he
    ⟨ht.name, ht.some, ht.field, ht.index, fun c hc => (ht.constraint c hc).valid⟩

/-! ### Kinds of obstacles -/

variable {e : ModelError}

theorem fault?_of_mem_unknownNames {names : List String} (he : e ∈ st.unknownNames t names) :
    e.fault? = none := by
  obtain ⟨n, -, rfl⟩ := List.mem_map.mp he
  rfl

/-- What a breach reports is no fault if its error is none. -/
theorem fault?_of_mem_breach {rule : Prop} [Decidable rule] {x : ModelError}
    (he : e ∈ breach rule x) (hx : x.fault? = none) : e.fault? = none := by
  rw [breach] at he
  split at he
  · cases he
  · rwa [List.mem_singleton.mp he]

theorem fault?_of_mem_ownBreaches (he : e ∈ st.ownBreaches t c) : e.fault? = none := by
  simp only [ownBreaches, List.mem_append] at he
  rcases he with (he | he) | he
  · exact fault?_of_mem_breach he rfl
  · split at he <;> exact fault?_of_mem_breach he rfl
  · exact fault?_of_mem_unknownNames he

theorem fault?_of_mem_constraintBreaches (he : e ∈ st.constraintBreaches t c) :
    e.fault? = none := by
  rw [constraintBreaches_eq, List.mem_append] at he
  rcases he with he | he
  · exact fault?_of_mem_ownBreaches he
  · split at he
    · rw [referenceBreaches, List.mem_append, List.mem_flatMap] at he
      obtain he | ⟨u, -, he⟩ := he
      · exact fault?_of_mem_breach he rfl
      · exact fault?_of_mem_unknownNames he
    · cases he

theorem fault?_of_mem_headBreaches (he : e ∈ st.headBreaches t) : e.fault? = none := by
  simp only [headBreaches, List.mem_append, List.mem_flatMap] at he
  obtain ((he | he) | ⟨f, -, he⟩) | ⟨i, -, he⟩ := he
  · exact fault?_of_mem_breach he rfl
  · exact fault?_of_mem_breach he rfl
  · exact fault?_of_mem_breach he rfl
  · rw [indexBreaches, List.mem_append] at he
    rcases he with he | he
    · exact fault?_of_mem_breach he rfl
    · exact fault?_of_mem_unknownNames he

/-- **An obstacle is a breach, which can be reported, or the fault of a look-up.** -/
theorem fault?_of_mem_schemaObstacles (he : e ∈ st.schemaObstacles s) :
    e.fault? = none ∨ ∃ x ∈ (st.schema s).tables, ∃ c ∈ (st.table x.2).constraints,
      st.Unfindable x.2 c ∧ e = st.lookupFault c := by
  rw [schemaObstacles, List.mem_append, List.mem_flatMap] at he
  obtain he | ⟨x, hx, he⟩ := he
  · exact .inl (fault?_of_mem_breach he rfl)
  rw [tableObstacles, List.mem_append, List.mem_flatMap] at he
  obtain he | ⟨c, hc, he⟩ := he
  · exact .inl (fault?_of_mem_headBreaches he)
  rw [constraintObstacles] at he
  split at he
  · next hun =>
    rcases List.mem_append.mp he with he | he
    · exact .inl (fault?_of_mem_ownBreaches he)
    · exact .inr ⟨x, hx, c, hc, hun, List.mem_singleton.mp he⟩
  · exact .inl (fault?_of_mem_constraintBreaches he)

end Store

/-! ### Verdicts -/

section

variable (st : Store) (s : SchemaId)

/-- Asking whether a schema is valid comes to a verdict: it keeps the rules and nothing is left as
the reason, or a rule is broken, and the reason that is left is the text of what is reported. -/
inductive Judged : Prop
  | valid (hcheck : checkSchema st s = .ok ()) (hvalid : st.ValidSchema s)
      (hask : outcome (Edit.isValid (.schema s)) st =
        (.ok true, withNote st errorNote (.text "") (.schema s)))
  | invalid {e : ModelError} {report : Report} (hcheck : checkSchema st s = .error e)
      (hfault : e.fault? = none) (hreport : e.report? st.shown = some report)
      (hask : outcome (Edit.isValid (.schema s)) st =
        (.ok false, withNote st errorNote (.text report.message) (.schema s)))

/-- The check of a schema stops at a fault before it comes to a verdict. -/
def Store.StopsAt (f : Fault) : Prop := (st.schemaObstacles s).head? = some (.fault f)

end

/-- An error that is no fault, and shows no value without a text, is reported with its wording. -/
theorem report_of_fault? {e : ModelError} (h : e.fault? = none) (shown : Ref → String) :
    ∃ report, e.report? shown = some report ∧ report.message = e.message shown := by
  cases e with
  | fault f => cases h
  | _ => exact ⟨_, rfl, rfl⟩

theorem outcome_isValid (st : Store) (s : SchemaId) :
    outcome (Edit.isValid (.schema s)) st =
      match checkSchema st s with
      | .ok () => (.ok true, withNote st errorNote (.text "") (.schema s))
      | .error e =>
        match e.fault? with
        | some f => (.error (.fault f), st)
        | none => (.ok false, withNote st errorNote (.text (st.message e)) (.schema s)) := by
  rw [Edit.isValid, outcome_get_bind, checkObject]
  rcases checkSchema st s with e | ⟨⟩
  · dsimp only
    rcases e.fault? with _ | f <;> rfl
  · rfl

namespace Store

variable {st : Store} {s : SchemaId} {f : Fault}

/-- A check that stops at a fault gives it, and so does asking, which leaves everything as it is. -/
theorem StopsAt.outcome (hst : st.Coherent) (h : st.StopsAt s f) :
    checkSchema st s = .error (.fault f) ∧
      DbSchema.outcome (Edit.isValid (.schema s)) st = (.error (.fault f), st) := by
  have hcheck : checkSchema st s = .error (.fault f) := by
    rw [hst.checkSchema_eq_obstacle]
    exact verdict_eq_error_iff.mpr h
  refine ⟨hcheck, ?_⟩
  rw [outcome_isValid, hcheck]
  rfl

/-- The fault is that of a foreign key whose reference table can be no key. -/
theorem StopsAt.exists_unfindable (h : st.StopsAt s f) :
    ∃ x ∈ (st.schema s).tables, ∃ c ∈ (st.table x.2).constraints,
      st.Unfindable x.2 c ∧ f = .unhashable (st.constraint c).referenceTable := by
  rcases fault?_of_mem_schemaObstacles (List.mem_of_head? h) with hnone | ⟨x, hx, c, hc, hun, hf⟩
  · cases hnone
  · exact ⟨x, hx, c, hc, hun, ModelError.fault.inj hf⟩

/-- **Asking comes to a verdict unless the check stops at a fault.** -/
theorem Coherent.judged_iff (h : st.Coherent) : Judged st s ↔ ∀ f, ¬ st.StopsAt s f := by
  constructor
  · intro hjudged f hstop
    obtain ⟨hcheck, -⟩ := hstop.outcome h
    cases hjudged with
    | valid hcheck' => cases hcheck.symm.trans hcheck'
    | invalid hcheck' hfault =>
      cases hcheck.symm.trans hcheck'
      cases hfault
  · -- the check gives the first obstacle, and asking reports it if it is no fault
    intro hgoes
    have hcheck := h.checkSchema_eq_obstacle s
    rcases hobstacles : st.schemaObstacles s with _ | ⟨e, r⟩
    · rw [hobstacles] at hcheck
      have hvalid := (schemaObstacles_eq_nil.mp hobstacles).valid
      refine .valid hcheck hvalid ?_
      rw [outcome_isValid, hcheck]
      rfl
    · rw [hobstacles] at hcheck
      have hmem : e ∈ st.schemaObstacles s := hobstacles ▸ List.mem_cons_self
      have hfault : e.fault? = none := by
        rcases fault?_of_mem_schemaObstacles hmem with hnone | ⟨_, _, c, _, _, rfl⟩
        · exact hnone
        · exact absurd (by rw [StopsAt, hobstacles]; rfl) (hgoes _)
      obtain ⟨report, hreport, hmessage⟩ := report_of_fault? hfault st.shown
      refine .invalid hcheck hfault hreport ?_
      rw [outcome_isValid, hcheck]
      simp only [verdict, hfault, hmessage]
      rfl

end Store

end DbSchema
