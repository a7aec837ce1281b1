import DbSchema.Proofs.Model.Atomicity
import DbSchema.Proofs.Model.FieldOrder
import DbSchema.Proofs.Model.Ownership

/-!
# Primary keys that accumulate names

Asking for the primary key of a table with names appends the names to every primary key that the
table lists, or makes one over them when there is none.  Nothing else changes, and a call that is
refused changes nothing at all.  So call after call, the names that were accepted stand one after
the other in the fields of the key.

## Main definitions

* `Store.HasField st t name` — the table has a field of this name.
* `Store.accepted st t values` — the names of a call that only names fields of the table.
* `Accumulates st t names st'` — between two stores the names were added to the keys of a table, and
  nothing else was done.

## Main results

* `checkNames_eq_ok_iff`, `checkNames_error` — the first name that no field has is refused.
* `accumulates_call` — one call adds the names that it accepts.
* `Accumulates.trans` — names that are added one after the other are added in one list.
* `primaryKey_accumulates` — **what a call gives and leaves, and what a run of calls leaves.**
-/

namespace DbSchema

/-! ### Names of fields -/

/-- A field of the table is listed under the name. -/
def Store.HasField (st : Store) (t : TableId) (name : String) : Prop :=
  ∃ f, (st.table t).field? (.text name) = some f

namespace Store

variable {st : Store} {t : TableId} {name : String}

instance (st : Store) (t : TableId) (name : String) : Decidable (st.HasField t name) :=
  decidable_of_iff ((st.table t).field? (.text name)).isSome Option.isSome_iff_exists

/-- A name that is not empty is the name of a field, or it is the one that is not found. -/
theorem fieldNamed_text (st : Store) (t : TableId) (hne : name ≠ "") :
    (∃ f, st.HasField t name ∧ fieldNamed st t (.text name) = .ok f) ∨
      ¬ st.HasField t name ∧
        fieldNamed st t (.text name) = .error (.fieldNotFound (.text name)) := by
  have htruthy : (Value.text name).truthy = true := by simpa [Value.truthy] using hne
  have hkey : (Value.text name).hashable = true := rfl
  rw [fieldNamed, htruthy, hkey, HasField]
  rcases hf : (st.table t).field? (.text name) with _ | f
  · exact Or.inr ⟨by simp, rfl⟩
  · exact Or.inl ⟨f, ⟨f, rfl⟩, rfl⟩

end Store

section

variable {st : Store} {t : TableId}

/-- Names are accepted when fields have all of them. -/
theorem checkNames_eq_ok_iff {names : List String} (hnames : Normalised names) :
    checkNames st t (names.map .text) = .ok () ↔ ∀ n ∈ names, st.HasField t n := by
  induction names with
  | nil => simp [checkNames]
  | cons n r ih =>
    have hr := ih fun m hm => hnames m (List.mem_cons_of_mem n hm)
    rw [List.map_cons, checkNames, List.forall_mem_cons]
    rcases Store.fieldNamed_text st t (hnames n List.mem_cons_self).2 with
      ⟨f, hfound, hf⟩ | ⟨hnone, hf⟩
    · rw [hf]
      exact hr.trans (by simp [hfound])
    · rw [hf]
      simp [hnone]

/-- The first name that no field has is the one that is refused. -/
theorem checkNames_error {pre post : List String} {name : String}
    (hnames : Normalised (pre ++ name :: post)) (hpre : ∀ n ∈ pre, st.HasField t n)
    (hnone : ¬ st.HasField t name) :
    checkNames st t ((pre ++ name :: post).map .text) = .error (.unknownField (.text name)) := by
  induction pre with
  | nil =>
    rw [List.nil_append, List.map_cons, checkNames]
    rcases Store.fieldNamed_text st t (hnames name (by simp)).2 with
      ⟨f, hfound, -⟩ | ⟨-, hf⟩
    · exact absurd hfound hnone
    · rw [hf]
  | cons n r ih =>
    rw [List.cons_append, List.map_cons, checkNames]
    rcases Store.fieldNamed_text st t (hnames n (by simp)).2 with
      ⟨f, -, hf⟩ | ⟨habsent, -⟩
    · rw [hf]
      exact ih (fun m hm => hnames m (List.mem_cons_of_mem n hm))
        fun m hm => hpre m (List.mem_cons_of_mem n hm)
    · exact absurd (hpre n List.mem_cons_self) habsent

end

/-- The names of a call that names fields of the table only; a call that does not adds none. -/
def Store.accepted (st : Store) (t : TableId) (values : List Value) : List String :=
  match splitNames values with
  | .ok names => if ∀ n ∈ names, st.HasField t n then names else []
  | .error _ => []

/-! ### Keys with more names -/

namespace Edit

variable {st : Store} {names : List String} {cs : List ConstraintId}

/-- Only the cells of constraints change. -/
theorem withKeyNames_eq (names : List String) (st : Store) (cs : List ConstraintId) :
    ∃ cells, withKeyNames names st cs = { st with constraints := cells } := by
  induction cs generalizing st with
  | nil => exact ⟨st.constraints, rfl⟩
  | cons c r ih =>
    rw [withKeyNames, List.foldl_cons]
    split
    · obtain ⟨cells, hcells⟩ := ih (withNames st names c)
      exact ⟨cells, hcells⟩
    · exact ih st

/-- Every key of a list without repetition gets the names once. -/
theorem constraint_withKeyNames (hnodup : cs.Nodup) (c : ConstraintId) :
    (withKeyNames names st cs).constraint c =
      if c ∈ cs ∧ isKey st c then
        { st.constraint c with fields := appendNames names (st.constraint c).fields }
      else st.constraint c := by
  induction cs generalizing st with
  | nil => simp [withKeyNames]
  | cons d r ih =>
    obtain ⟨hd, hr⟩ := List.nodup_cons.mp hnodup
    rw [withKeyNames, List.foldl_cons]
    change (withKeyNames names _ r).constraint c = _
    rw [ih hr]
    by_cases hkey : isKey st d
    · rw [if_pos hkey, isKey_withNames, constraint_withNames]
      by_cases hc : c = d
      · subst hc
        simp [hd, hkey]
      · simp [hc]
    · rw [if_neg hkey]
      by_cases hc : c = d
      · subst hc
        simp [hd, hkey]
      · simp [hc]

end Edit

/-! ### Accumulation -/

/-- Nothing changes but constraints, and the tables other than the given one stay as they are. -/
structure Store.ConstraintsOnly (st st' : Store) (t : TableId) : Prop where
  schema : ∀ s, st'.schema s = st.schema s
  field : ∀ f, st'.field f = st.field f
  index : ∀ i, st'.index i = st.index i
  table : ∀ u, u ≠ t → st'.table u = st.table u

theorem Store.ConstraintsOnly.trans {a b c : Store} {t : TableId} (h : a.ConstraintsOnly b t)
    (h' : b.ConstraintsOnly c t) : a.ConstraintsOnly c t where
  schema s := (h'.schema s).trans (h.schema s)
  field f := (h'.field f).trans (h.field f)
  index i := (h'.index i).trans (h.index i)
  table u hu := (h'.table u hu).trans (h.table u hu)

/-- Between two stores the names were added to the keys of a table, and nothing else was done: every
key has them after those that it had, or the first key was made over them. -/
inductive Accumulates (st : Store) (t : TableId) : List String → Store → Prop
  | nothing : Accumulates st t [] st
  | extended {names : List String} {st' : Store}
      (some : ∃ c ∈ (st.table t).constraints, Edit.isKey st c)
      (frame : st.ConstraintsOnly st' t) (table : st'.table t = st.table t)
      (keys : ∀ c ∈ (st.table t).constraints, Edit.isKey st c → ∃ old,
        (st.constraint c).fields = .ofTexts old ∧
          st'.constraint c = { st.constraint c with fields := .ofTexts (old ++ names) })
      (others : ∀ c, ¬ (c ∈ (st.table t).constraints ∧ Edit.isKey st c) →
        st'.constraint c = st.constraint c) : Accumulates st t names st'
  | made {names : List String} {st' : Store} {c : ConstraintId}
      (none : ∀ d ∈ (st.table t).constraints, ¬ Edit.isKey st d)
      (new : st.constraints.size ≤ c.index) (frame : st.ConstraintsOnly st' t)
      (table : st'.table t =
        { st.table t with constraints := (st.table t).constraints ++ [c] })
      (key : st'.constraint c =
        { toConstraintSpec := Edit.keySpec names, owner := some (.table t) })
      (others : ∀ d, d ≠ c → st'.constraint d = st.constraint d) : Accumulates st t names st'

namespace Accumulates

variable {st st' st'' : Store} {t : TableId} {names more : List String}

theorem frame (h : Accumulates st t names st') : st.ConstraintsOnly st' t := by
  cases h with
  | nothing => exact ⟨fun _ => rfl, fun _ => rfl, fun _ => rfl, fun _ _ => rfl⟩
  | extended _ hframe => exact hframe
  | made _ _ hframe => exact hframe

/-- The table has the fields, the indices and the options that it had. -/
theorem table_eq (h : Accumulates st t names st') :
    ∃ constraints, st'.table t = { st.table t with constraints } := by
  cases h with
  | nothing => exact ⟨_, rfl⟩
  | extended _ _ htable => exact ⟨_, htable⟩
  | made _ _ _ htable => exact ⟨_, htable⟩

/-- The table has fields of the same names. -/
theorem hasField_iff (h : Accumulates st t names st') (name : String) :
    st'.HasField t name ↔ st.HasField t name := by
  obtain ⟨constraints, htable⟩ := h.table_eq
  rw [Store.HasField, Store.HasField, htable]
  rfl

/-- So the same names are accepted afterwards. -/
theorem accepted_eq (h : Accumulates st t names st') (values : List Value) :
    st'.accepted t values = st.accepted t values := by
  unfold Store.accepted
  rcases splitNames values with r | ns
  · rfl
  · simp only [h.hasField_iff]

/-- When the keys of a table get names, its constraints that are keys are the same as before. -/
theorem isKey_extended
    (hkeys : ∀ c ∈ (st.table t).constraints, Edit.isKey st c → ∃ old,
      (st.constraint c).fields = .ofTexts old ∧
        st'.constraint c = { st.constraint c with fields := .ofTexts (old ++ names) })
    (hothers : ∀ c, ¬ (c ∈ (st.table t).constraints ∧ Edit.isKey st c) →
      st'.constraint c = st.constraint c) {c : ConstraintId} (hc : c ∈ (st.table t).constraints) :
    Edit.isKey st' c = Edit.isKey st c := by
  by_cases hk : Edit.isKey st c
  · obtain ⟨old, -, hold⟩ := hkeys c hc hk
    rw [Edit.isKey, hold]
    rfl
  · rw [Edit.isKey, hothers c fun hboth => hk hboth.2, Edit.isKey]

/-- When the first key of a table is made, the constraints that it had are no keys. -/
theorem not_isKey_made (hst : st.Coherent) {c : ConstraintId}
    (hnone : ∀ d ∈ (st.table t).constraints, ¬ Edit.isKey st d)
    (hnew : st.constraints.size ≤ c.index)
    (hothers : ∀ d, d ≠ c → st'.constraint d = st.constraint d) {d : ConstraintId}
    (hd : d ∈ (st.table t).constraints) : ¬ Edit.isKey st' d := by
  have hlt : d.index < st.constraints.size :=
    Store.constraint_lt_of_owner ((hst.table t).constraint d hd)
  have hne : d ≠ c := fun heq => Nat.not_lt.mpr hnew (heq ▸ hlt)
  rw [Edit.isKey, hothers d hne]
  exact hnone d hd

/-- A key that lists some names gets more names after them. -/
theorem constraint_extended {c : ConstraintId} {listed : List String}
    (hlisted : (st.constraint c).fields = .ofTexts listed)
    (hkey : ∃ old, (st.constraint c).fields = .ofTexts old ∧
      st'.constraint c = { st.constraint c with fields := .ofTexts (old ++ names) }) :
    st'.constraint c = { st.constraint c with fields := .ofTexts (listed ++ names) } := by
  obtain ⟨old, hold, hcell⟩ := hkey
  rw [hcell, Value.ofTexts_injective (hold.symm.trans hlisted)]

/-- **Names that are added one after the other are added in one list.** -/
theorem trans (hst : st.Coherent) (h : Accumulates st t names st')
    (h' : Accumulates st' t more st'') : Accumulates st t (names ++ more) st'' := by
  cases h with
  | nothing => exact h'
  | extended hsome hframe htable hkeys hothers =>
    have hkey : ∀ c ∈ (st.table t).constraints, Edit.isKey st' c = Edit.isKey st c :=
      fun c hc => isKey_extended hkeys hothers hc
    cases h' with
    | nothing =>
      rw [List.append_nil]
      exact .extended hsome hframe htable hkeys hothers
    | extended _ hframe' htable' hkeys' hothers' =>
      -- the keys are the same in both steps, so each one gets both lists
      rw [htable] at hkeys' hothers' htable'
      refine .extended hsome (hframe.trans hframe') htable' (fun c hc hk => ?_) fun c hc => ?_
      · obtain ⟨old, hold, hcell⟩ := hkeys c hc hk
        have hlisted : (st'.constraint c).fields = .ofTexts (old ++ names) := by rw [hcell]
        have hmore := hkeys' c hc (by rw [hkey c hc]; exact hk)
        refine ⟨old, hold, ?_⟩
        rw [constraint_extended hlisted hmore, hcell, List.append_assoc]
      · rw [hothers' c fun hboth => hc ⟨hboth.1, by rw [← hkey c hboth.1]; exact hboth.2⟩,
          hothers c hc]
    | made hnone _ _ _ _ _ =>
      -- there was a key, so the second step does not make one
      obtain ⟨c, hc, hk⟩ := hsome
      rw [htable] at hnone
      exact absurd (by rw [hkey c hc]; exact hk) (hnone c hc)
  | @made _ _ c hnone hnew hframe htable hkey hothers =>
    have hold : ∀ d ∈ (st.table t).constraints, ¬ Edit.isKey st' d :=
      fun d hd => not_isKey_made hst hnone hnew hothers hd
    -- the key that was made is the only one, and the second step extends it
    have hcell : Edit.isKey st' c := by
      rw [Edit.isKey, hkey]
      rfl
    have hlisted : c ∈ (st'.table t).constraints := by
      rw [htable]
      simp
    cases h' with
    | nothing =>
      rw [List.append_nil]
      exact .made hnone hnew hframe htable hkey hothers
    | extended _ hframe' htable' hkeys' hothers' =>
      refine .made hnone hnew (hframe.trans hframe') (htable'.trans htable) ?_ fun d hd => ?_
      · have hfields : (st'.constraint c).fields = .ofTexts names := by
          rw [hkey]
          rfl
        rw [constraint_extended hfields (hkeys' c hlisted hcell), hkey]
        rfl
      · rw [hothers' d ?_, hothers d hd]
        rintro ⟨hmem, hk⟩
        rw [htable, List.mem_append, List.mem_singleton] at hmem
        exact hold d (hmem.resolve_right hd) hk
    | made hnone' _ _ _ _ _ => exact absurd hcell (hnone' c hlisted)

end Accumulates

/-! ### Calls -/

section

variable {st : Store} {t : TableId} {values : List Value}

/-- The store in which the names were added to the keys of a table. -/
def Edit.withKeys (st : Store) (t : TableId) (names : List String) : Store :=
  if (st.table t).constraints.any (isKey st) then withKeyNames names st (st.table t).constraints
  else withKey st t names

theorem accumulates_withKeys (hst : st.Coherent) (hnodup : (st.table t).constraints.Nodup)
    (names : List String) : Accumulates st t names (Edit.withKeys st t names) := by
  unfold Edit.withKeys
  split
  · next hkey =>
    have hcell : ∀ c, (Edit.withKeyNames names st (st.table t).constraints).constraint c = _ :=
      Edit.constraint_withKeyNames hnodup
    obtain ⟨cells, hcells⟩ := Edit.withKeyNames_eq names st (st.table t).constraints
    refine .extended (List.any_eq_true.mp hkey) ?_ (Edit.table_withKeyNames st names _ t) ?_ ?_
    · rw [hcells]
      exact ⟨fun _ => rfl, fun _ => rfl, fun _ => rfl, fun _ _ => rfl⟩
    · intro c hc hk
      obtain ⟨old, hold, -⟩ := (hst.constraintTidy c).fields
      refine ⟨old, hold, ?_⟩
      rw [hcell, if_pos ⟨hc, hk⟩, hold]
      simp [Value.ofTexts, Value.ofList, Edit.appendNames]
    · intro c hc
      rw [hcell, if_neg hc]
  · next hkey =>
    have hnone : ∀ d ∈ (st.table t).constraints, ¬ Edit.isKey st d := fun d hd hk =>
      hkey (List.any_eq_true.mpr ⟨d, hd, hk⟩)
    -- the new key is in a cell that was not in use
    refine .made (c := ⟨st.constraints.size⟩) hnone le_rfl ?_ ?_ ?_ ?_
    · refine ⟨fun _ => rfl, fun _ => rfl, fun _ => rfl, fun u hu => ?_⟩
      rw [Edit.withKey, Edit.withConstraint, Store.table_setTable_of_ne _ hu]
      rfl
    · rw [Edit.withKey, Edit.withConstraint, Store.table_setTable_self]
      rfl
    · simp [Edit.withKey, Edit.withConstraint]
    · intro d hd
      rw [Edit.withKey, Edit.withConstraint, Store.constraint_setTable,
        Store.constraint_setConstraint_of_ne _ hd, Store.constraint_setConstraint_of_ne _ hd]

/-- Without names a call only reads the first key. -/
theorem outcome_primaryKey_of_nil (hst : st.Coherent) (hs : splitNames values = .ok []) :
    outcome (Edit.primaryKey t values) st = (primaryKeyOf st t, st) := by
  rw [Edit.outcome_primaryKey t hst.extendable, hs]
  rfl

/-- A call with a name that no field has is refused. -/
theorem outcome_primaryKey_of_unknown (hst : st.Coherent) {names : List String} {name : String}
    (hs : splitNames values = .ok names)
    (hfirst : names.find? (fun n => ¬ st.HasField t n) = some name) :
    outcome (Edit.primaryKey t values) st = (.error (.unknownField (.text name)), st) := by
  obtain ⟨hnone, pre, post, rfl, hpre⟩ := List.find?_eq_some_iff_append.mp hfirst
  have hcheck := checkNames_error (normalised_of_splitNames hs) (by simpa using hpre)
    (by simpa using hnone)
  rw [Edit.outcome_primaryKey t hst.extendable, hs]
  dsimp only
  rw [hcheck, if_neg (by simp)]

/-- A call with names of fields gives the first key of the store in which they were added. -/
theorem outcome_primaryKey_of_fields (hst : st.Coherent) {names : List String}
    (hs : splitNames values = .ok names) (hne : names ≠ []) (hall : ∀ n ∈ names, st.HasField t n) :
    outcome (Edit.primaryKey t values) st =
      (primaryKeyOf (Edit.withKeys st t names) t, Edit.withKeys st t names) := by
  rw [Edit.outcome_primaryKey t hst.extendable, hs]
  dsimp only
  rw [(checkNames_eq_ok_iff (normalised_of_splitNames hs)).mpr hall, if_neg (by simpa using hne)]
  rfl

/-- **One call adds the names that it accepts**, and nothing when it is refused. -/
theorem accumulates_call (h : Reachable st) (hnodup : (st.table t).constraints.Nodup)
    (values : List Value) :
    Accumulates st t (st.accepted t values) ((Call.primaryKey t values).after st) := by
  have hst := coherent_of_reachable h
  rw [Call.after, Call.run, outcome_discard, Store.accepted]
  rcases hs : splitNames values with r | names <;> dsimp only
  · rw [Edit.outcome_primaryKey t hst.extendable, hs]
    exact .nothing
  split
  · next hall =>
    by_cases hne : names = []
    · subst hne
      rw [outcome_primaryKey_of_nil hst hs]
      exact .nothing
    · rw [outcome_primaryKey_of_fields hst hs hne hall]
      exact accumulates_withKeys hst hnodup names
  · next hsome =>
    have hfound : (names.find? fun n => ¬ st.HasField t n).isSome := by
      rw [List.find?_isSome]
      simpa using hsome
    obtain ⟨name, hfirst⟩ := Option.isSome_iff_exists.mp hfound
    rw [outcome_primaryKey_of_unknown hst hs hfirst]
    exact .nothing

end

/-! ### Runs of calls -/

section

variable {st : Store} {t : TableId}

/-- The store after a run of calls for the primary key of a table. -/
def Store.afterKeys (st : Store) (t : TableId) (calls : List (List Value)) : Store :=
  calls.foldl (fun st values => (Call.primaryKey t values).after st) st

/-- A table that listed no constraint twice does not do so afterwards. -/
theorem Accumulates.nodup {st' : Store} {names : List String} (hst : st.Coherent)
    (h : Accumulates st t names st') (hnodup : (st.table t).constraints.Nodup) :
    (st'.table t).constraints.Nodup := by
  cases h with
  | nothing => exact hnodup
  | extended _ _ htable => rwa [htable]
  | @made _ _ c _ hnew _ htable =>
    rw [htable]
    refine List.nodup_append'.mpr ⟨hnodup, List.nodup_singleton c, ?_⟩
    rw [List.disjoint_singleton]
    intro hc
    have hlt := Store.constraint_lt_of_owner ((hst.table t).constraint c hc)
    omega

/-- **A run of calls adds the names that its calls accept, one after the other.** -/
theorem accumulates_run (h : Reachable st) (hnodup : (st.table t).constraints.Nodup)
    (calls : List (List Value)) :
    Accumulates st t (calls.flatMap (st.accepted t)) (st.afterKeys t calls) := by
  induction calls generalizing st with
  | nil => exact .nothing
  | cons values r ih =>
    have hst := coherent_of_reachable h
    have hfirst := accumulates_call h hnodup values
    have hrest := ih (h.call (.primaryKey t values)) (hfirst.nodup hst hnodup)
    -- the first call leaves the fields, so the others accept what they would have accepted
    rw [funext hfirst.accepted_eq] at hrest
    rw [List.flatMap_cons]
    exact hfirst.trans hst hrest

/-! ### Fields of the key -/

theorem primaryKeyOf_eq (st : Store) (t : TableId) :
    primaryKeyOf st t =
      ((st.table t).constraints.find? (Edit.isKey st)).elim (.error .noPrimaryKey) .ok := by
  have hfirst : firstPrimaryKey? st (st.table t).constraints =
      (st.table t).constraints.find? (Edit.isKey st) := rfl
  rw [primaryKeyOf, hfirst]
  rcases (st.table t).constraints.find? (Edit.isKey st) with _ | c <;> rfl

/-- A field is in the primary key of its table exactly when the first key lists its name. -/
theorem Store.Coherent.isPrimaryKey_eq (h : st.Coherent) {c : ConstraintId}
    (hkey : primaryKeyOf st t = .ok c) :
    ∃ names, (st.constraint c).fields = .ofTexts names ∧ ∀ f, .field f ∈ st.children t →
      ∃ n, (st.field f).name = .text n ∧ isPrimaryKey st f = .ok (decide (n ∈ names)) := by
  obtain ⟨names, hnames, -⟩ := (h.constraintTidy c).fields
  refine ⟨names, hnames, fun f hf => ?_⟩
  obtain ⟨n, hn, -⟩ := (h.fieldTidy f).name
  refine ⟨n, hn, ?_⟩
  have howner : (st.field f).owner = some (.table t) := h.ownerOf_of_mem hf
  have hholds : (Value.ofTexts names).holds (.text n) = .ok (decide (n ∈ names)) := by
    rw [Value.ofTexts, Value.ofList, Value.holds, List.any_map, Except.ok.injEq]
    rw [Bool.eq_iff_iff, List.any_eq_true, decide_eq_true_eq]
    simp [Value.same_text_iff]
  simp only [isPrimaryKey, howner, hkey, hnames, hn, hholds]
  rfl

end

/-- **Names accumulate in the primary key.**  In every history, for a table that lists no constraint
twice: a call without names only reads the first key; a call is refused for the first of its names
that no field of the table has, and changes nothing then; any other call appends its names to every
key of the table or makes one key over them, leaves everything else as it was, and gives the first
key.  Whatever a call gives, a field of the table counts as part of the primary key afterwards
exactly when its name is among the fields of what was given.  A run of calls adds the names of its
accepted calls, one after the other. -/
theorem primaryKey_accumulates {st : Store} (h : Reachable st) {t : TableId}
    (hnodup : (st.table t).constraints.Nodup) :
    (∀ values, splitNames values = .ok [] → outcome (Edit.primaryKey t values) st =
      (((st.table t).constraints.find? (Edit.isKey st)).elim (.error .noPrimaryKey) .ok, st)) ∧
    (∀ values names name, splitNames values = .ok names →
      names.find? (fun n => ¬ st.HasField t n) = some name →
      outcome (Edit.primaryKey t values) st = (.error (.unknownField (.text name)), st)) ∧
    (∀ values names, splitNames values = .ok names → names ≠ [] → (∀ n ∈ names, st.HasField t n) →
      ∃ c st', outcome (Edit.primaryKey t values) st = (.ok c, st') ∧ Accumulates st t names st' ∧
        (st'.table t).constraints.find? (Edit.isKey st') = some c) ∧
    (∀ values reason, splitNames values = .error reason →
      outcome (Edit.primaryKey t values) st = (.error (.wrongType reason), st)) ∧
    (∀ values c st', outcome (Edit.primaryKey t values) st = (.ok c, st') →
      ∃ names, (st'.constraint c).fields = .ofTexts names ∧ ∀ f, .field f ∈ st'.children t →
        ∃ n, (st'.field f).name = .text n ∧ isPrimaryKey st' f = .ok (decide (n ∈ names))) ∧
    ∀ calls, Accumulates st t (calls.flatMap (st.accepted t)) (st.afterKeys t calls) := by
  have hst := coherent_of_reachable h
  refine ⟨fun values hs => ?_, fun values names name hs hfirst => ?_,
    fun values names hs hne hall => ?_, fun values reason hs => ?_, fun values c st' hcall => ?_,
    accumulates_run h hnodup⟩
  · rw [outcome_primaryKey_of_nil hst hs, primaryKeyOf_eq]
  · exact outcome_primaryKey_of_unknown hst hs hfirst
  · obtain ⟨c, hc⟩ : ∃ c, primaryKeyOf (Edit.withKeys st t names) t = .ok c :=
      Edit.exists_primaryKeyOf_added st t names
    refine ⟨c, Edit.withKeys st t names, ?_, accumulates_withKeys hst hnodup names, ?_⟩
    · rw [outcome_primaryKey_of_fields hst hs hne hall, hc]
    · rw [primaryKeyOf_eq] at hc
      rcases hfind : List.find? _ _ with _ | d <;> rw [hfind] at hc <;> cases hc
      rfl
  · rw [Edit.outcome_primaryKey t hst.extendable, hs]
  · have hafter : (Call.primaryKey t values).after st = st' := by
      rw [Call.after, Call.run, outcome_discard, hcall]
    have hst' : st'.Coherent := hafter ▸ coherent_of_reachable (h.call (.primaryKey t values))
    -- whatever is given was read as the first key of the store that is left
    refine hst'.isPrimaryKey_eq (t := t) ?_
    rw [Edit.outcome_primaryKey t hst.extendable] at hcall
    split at hcall
    · cases hcall
    · split at hcall
      · obtain ⟨hkey, rfl⟩ := Prod.mk.inj hcall
        exact hkey
      · split at hcall
        · cases hcall
        · obtain ⟨hkey, rfl⟩ := Prod.mk.inj hcall
          exact hkey

/-- Four calls for the key of a table with another constraint: the first makes a key, the second is
refused, the third reads the key, and the last one adds to it. -/
theorem primaryKey_accumulates_of_users :
    let st := history [.makeTable [("name", .text "users")],
      .addField ⟨0⟩ .null [("name", .text "id")], .addField ⟨0⟩ .null [("name", .text "org")],
      .addConstraint ⟨0⟩ .null [("type", .text "UNIQUE"), ("fields", .text "org")]]
    let calls := [[.text "id"], [.text "org, nope"], [], [.ofTexts ["org", "id"]]]
    Reachable st ∧ (st.table ⟨0⟩).constraints.Nodup ∧
      outcome (Edit.primaryKey ⟨0⟩ [.text "org, nope"]) st =
        (.error (.unknownField (.text "nope")), st) ∧
      outcome (Edit.primaryKey ⟨0⟩ []) st = (.error .noPrimaryKey, st) ∧
      (∃ c st', outcome (Edit.primaryKey ⟨0⟩ [.text "id"]) st = (.ok c, st') ∧
        (st'.table ⟨0⟩).constraints.find? (Edit.isKey st') = some c) ∧
      Accumulates st ⟨0⟩ ["id", "org", "id"] (st.afterKeys ⟨0⟩ calls) := by
  intro st calls
  have hst : Reachable st := reachable_history _
  have hnodup : (st.table ⟨0⟩).constraints.Nodup := by decide +kernel
  obtain ⟨hread, hunknown, hadded, -, -, hrun⟩ := primaryKey_accumulates hst hnodup
  have hnone : ((st.table ⟨0⟩).constraints.find? (Edit.isKey st)) = none := by decide +kernel
  refine ⟨hst, hnodup, ?_, ?_, ?_, ?_⟩
  · exact hunknown [.text "org, nope"] ["org", "nope"] "nope" rfl (by decide +kernel)
  · rw [hread [] rfl, hnone]
    rfl
  · obtain ⟨c, st', hcall, -, hfirst⟩ := hadded [.text "id"] ["id"] rfl (by simp)
      (by decide +kernel)
    exact ⟨c, st', hcall, hfirst⟩
  · have haccepted : calls.flatMap (st.accepted ⟨0⟩) = ["id", "org", "id"] := by decide +kernel
    rw [← haccepted]
    exact hrun calls

end DbSchema
