import DbSchema.Proofs.Source.DialectTables

/-!
# Checks that say that a column is never null

PostgreSQL lists a check for each column without null values, and such checks are not to be read.
They are known by the ending of their names, which the check of a user may have as well.  So what is
left out is not always one of them.

## Main definitions

* `LeavesOut p l kept` — the list without some of the items that `p` holds of.
* `ViewReport.restates` — whether a clause says that a column without null values has none.

## Main results

* `leavesOut_iff` — when leaving out by one property leaves out only what has another one.
* `readTable_of_checks` — the checks that are read, and when only implied ones are left out.
-/

namespace DbSchema.Source.StandardViews

/-! ### Leaving out -/

/-- The list without some of the items that `p` holds of. -/
inductive LeavesOut {α : Type} (p : α → Bool) : List α → List α → Prop
  | nil : LeavesOut p [] []
  | keep {a l kept} : LeavesOut p l kept → LeavesOut p (a :: l) (a :: kept)
  | drop {a l kept} : p a → LeavesOut p l kept → LeavesOut p (a :: l) kept

section

variable {α β : Type} {p q : α → Bool} {l kept : List α}

/-- Whatever `p` does not hold of is kept, as often and in the order as it is listed. -/
theorem LeavesOut.filter_not (h : LeavesOut p l kept) :
    kept.filter (fun a => !p a) = l.filter fun a => !p a := by
  induction h with
  | nil => rfl
  | keep _ ih => rw [List.filter_cons, List.filter_cons, ih]
  | drop ha _ ih => rw [List.filter_cons_of_neg (by simp [ha]), ih]

theorem leavesOut_filter (h : ∀ a ∈ l, q a = false → p a) : LeavesOut p l (l.filter q) := by
  induction l with
  | nil => exact .nil
  | cons a r ih =>
    have hrest := ih fun b hb => h b (List.mem_cons_of_mem a hb)
    by_cases ha : q a
    · rw [List.filter_cons_of_pos ha]
      exact hrest.keep
    · rw [List.filter_cons_of_neg ha]
      exact hrest.drop (h a List.mem_cons_self (by simpa using ha))

/-- **Leaving out what `q` does not hold of leaves out only what `p` holds of, if `p` holds of it.**
What is left may be looked at through a function that does not hide whether `p` holds. -/
theorem leavesOut_iff {f : α → β} {r : β → Bool} (hr : ∀ a, r (f a) = p a) :
    (∃ kept, LeavesOut p l kept ∧ kept.map f = (l.filter q).map f) ↔
      ∀ a ∈ l, q a = false → p a := by
  refine ⟨fun ⟨kept, hkept, heq⟩ a ha hqa => ?_, fun h => ⟨_, leavesOut_filter h, rfl⟩⟩
  have hcount : ∀ l : List α,
      ((l.map f).filter fun b => !r b).length = (l.filter fun a => !p a).length := by
    intro l
    rw [List.filter_map, List.length_map]
    simp only [Function.comp_def, hr]
  -- as many are kept that `p` does not hold of as there are, so all of these are
  have hsub : ((l.filter q).filter fun a => !p a).Sublist (l.filter fun a => !p a) :=
    List.filter_sublist.filter _
  have hall : (l.filter q).filter (fun a => !p a) = l.filter fun a => !p a := by
    refine hsub.eq_of_length ?_
    rw [← hcount, ← heq, hcount, hkept.filter_not]
  by_contra hpa
  have hmem : a ∈ l.filter fun a => !p a := List.mem_filter.mpr ⟨ha, by simpa using hpa⟩
  rw [← hall] at hmem
  have hq := (List.mem_filter.mp (List.mem_of_mem_filter hmem)).2
  rw [hqa] at hq
  cases hq

end

/-! ### Implied checks -/

namespace ViewReport

variable (d : ViewReport)

/-- Whether a clause merely says that a column without null values has none. -/
def restates : Value → Bool
  | .text s => d.columns.any fun x => !x.nullable && s == x.name ++ " IS NOT NULL"
  | _ => false

/-- Only checks that restate a column are missing among the constraints, which are those of the keys
and the others in order. -/
def KeepsChecks (constraints : List ConstraintSpec) : Prop :=
  ∃ kept, LeavesOut (fun x : CheckReport => d.restates x.clause) d.checks kept ∧
    constraints = d.keyConstraints ++ kept.map (·.spec)

/-- Only such checks are missing exactly if all with the ending are such checks. -/
theorem keepsChecks_iff : d.KeepsChecks (d.outline .postgres).constraints ↔
    ∀ x ∈ d.checks, Text.hasEnd x.name notNullSuffix → d.restates x.clause := by
  have hiff := leavesOut_iff (l := d.checks) (p := fun x => d.restates x.clause)
    (q := (·.isRead)) (f := (·.spec)) (r := fun spec => d.restates spec.expression) fun _ => rfl
  simp only [CheckReport.isRead, Bool.not_eq_false'] at hiff
  rw [← hiff]
  refine exists_congr fun kept => and_congr_right fun _ => ?_
  exact ⟨fun h => (List.append_cancel_left h).symm, fun h => congrArg (_ ++ ·) h.symm⟩

end ViewReport

/-! ### Tables -/

variable {c : Connection} {given schema : Value} {d : ViewReport}

/-- **The checks of a table are read unless their names have the ending of implied ones.**  Of every
list of checks, those with other names are read in order, each once, with its clause and its name,
which is trimmed.  Only checks that restate a column without null values are left out if, and only
if, all checks with the ending are of that kind. -/
theorem readTable_of_checks (hd : d.Sound) (hs : ReadsFrom .postgres c given schema)
    (hc : ShownBy .postgres c schema d) (hnamed : ∀ n ∈ d.ownIndices, d.isNamed n) (σ : Session)
    (hσ : Recalls schema σ.schemaName) :
    ∃ t σ', outcome (readTable .postgres c given (.text d.name)) σ = (.ok t, σ') ∧
      σ.store.Extends σ'.store ∧ σ.store.tables.size ≤ t.index ∧
      σ'.store.outline t = d.outline .postgres ∧
      (σ'.store.outline t).constraints = d.keyConstraints ++
        (d.checks.filter fun x => !Text.hasEnd x.name notNullSuffix).map (·.spec) ∧
      (d.KeepsChecks (σ'.store.outline t).constraints ↔
        ∀ x ∈ d.checks, Text.hasEnd x.name notNullSuffix → d.restates x.clause) ∧
      ∀ x ∈ d.checks, Trimmed x.name → x.spec.name = .text x.name := by
  obtain ⟨t, σ', ho, hdraft⟩ := exists_readView hd hs hc hnamed σ hσ
  refine ⟨t, σ', ho, hdraft.building.old, hdraft.building.new, hdraft.outline, ?_, ?_, ?_⟩
  · rw [hdraft.outline]
    rfl
  · rw [hdraft.outline]
    exact d.keepsChecks_iff
  · intro x _ htrimmed
    rw [CheckReport.spec, htrimmed]

/-- A table with a check of a user whose name has the ending of implied ones, and an implied one. -/
def prices : ViewReport where
  name := "orders"
  columns := [
    { name := "id", dataType := "int", length := none, precision := some 32, scale := some 0,
      nullable := false, default := none },
    { name := "price", dataType := "int", length := none, precision := some 32, scale := some 0,
      nullable := true, default := none }]
  keys := [{ name := "orders_pkey", isPrimary := true, columns := ["id"] }]
  references := []
  checks := [
    { name := "price_not_null", clause := .text "((price > 0))" },
    { name := "2200_16386_1_not_null", clause := .text "id IS NOT NULL" },
    { name := "small", clause := .text "((price < 100))" }]
  parts := [{ index := "by_price", nonUnique := 1, method := none, column := some "price" }]
  engine := none
  collation := none

theorem sound_prices : prices.Sound where
  base :=
    { columns := by decide
      normalised := by
        simp only [prices, ViewReport.base, Normalised, Trimmed, List.map_cons, List.map_nil]
        decide
      keys := by
        simp only [prices, ViewReport.base, Normalised, Trimmed, List.map_cons, List.map_nil]
        decide
      onePrimary := by decide
      keyColumns := by
        simp only [prices, ViewReport.base, List.map_cons, List.map_nil]
        decide
      references := by simp [prices, ViewReport.base, Normalised]
      pairs := by simp [ViewReport.base]
      indices := by simp [ViewReport.base, Normalised]
      indexColumns := by simp [ViewReport.base]
      options := by simp [prices, ViewReport.base] }
  references := by simp [prices]
  parts := by simp [prices]

theorem named_prices : ∀ n ∈ prices.ownIndices, prices.isNamed n := by decide

/-- Not all checks of the table that are left out are implied ones. -/
theorem readTable_of_checks_prices : ∃ c t σ',
    outcome (readTable .postgres c .null (.text "orders")) {} = (.ok t, σ') ∧
      (σ'.store.outline t).constraints = prices.keyConstraints ++
        [{ name := .text "small", kind := .constraintKind .check,
           expression := .text "((price < 100))" }] ∧
      ¬ prices.KeepsChecks (σ'.store.outline t).constraints := by
  obtain ⟨hc, hs⟩ := shownBy_answering .postgres "public" prices
  obtain ⟨t, σ', ho, -, -, -, hconstraints, hkeeps, -⟩ :=
    readTable_of_checks sound_prices hs hc named_prices {} (.inl rfl)
  have hleft : ¬ ∀ x ∈ prices.checks, Text.hasEnd x.name notNullSuffix →
      prices.restates x.clause := by
    simp only [prices, ViewReport.restates]
    decide
  have hread : (prices.checks.filter fun x => !Text.hasEnd x.name notNullSuffix) =
      [{ name := "small", clause := .text "((price < 100))" }] := by
    simp only [prices]
    rfl
  rw [hread] at hconstraints
  exact ⟨_, t, σ', ho, hconstraints, fun h => hleft (hkeeps.mp h)⟩

/-- It is not so that only checks which restate a column without null values are left out. -/
theorem not_keepsChecks_prices :
    ¬ ∀ (c : Connection) (given schema : Value) (d : ViewReport) (σ σ' : Session) (t : TableId),
      d.Sound → ReadsFrom .postgres c given schema → ShownBy .postgres c schema d →
      (∀ n ∈ d.ownIndices, d.isNamed n) → Recalls schema σ.schemaName →
      outcome (readTable .postgres c given (.text d.name)) σ = (.ok t, σ') →
      d.KeepsChecks (σ'.store.outline t).constraints := by
  intro h
  obtain ⟨hc, hs⟩ := shownBy_answering .postgres "public" prices
  obtain ⟨t, σ', ho, hdraft⟩ := exists_readView sound_prices hs hc named_prices {} (.inl rfl)
  have hkeeps := h _ _ _ prices {} σ' t sound_prices hs hc named_prices (.inl rfl) ho
  rw [hdraft.outline] at hkeeps
  have hleft := prices.keepsChecks_iff.mp hkeeps
    { name := "price_not_null", clause := .text "((price > 0))" } (by simp [prices])
    (by decide)
  simp [ViewReport.restates, prices] at hleft

end DbSchema.Source.StandardViews
