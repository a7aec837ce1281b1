import DbSchema.Proofs.Source.DialectTables

/-!
# Indices over expressions

A part of an index that is an expression has no column, so its row names none.  An index with such a
part cannot be described by columns.  Reading a table stops at the first of them that backs no key,
whatever else the table holds.

## Main definitions

* `ViewReport.ReadInto` — the table is read, without its indices over expressions.

## Main results

* `readTable_of_indices` — a table is read exactly when each of its own indices is over columns.
-/

namespace DbSchema.Source.StandardViews

variable {dialect : Dialect} {c : Connection} {given schema : Value} {d : ViewReport}

/-- The table is read as described, into a store that holds what was there before.  Its indices are
those over columns that back no key, each with all its columns. -/
def ViewReport.ReadInto (d : ViewReport) (dialect : Dialect) (σ : Session)
    (read : Except SourceError TableId × Session) : Prop :=
  ∃ t, read.1 = .ok t ∧ σ.store.Extends read.2.store ∧ σ.store.tables.size ≤ t.index ∧
    read.2.store.outline t = d.outline dialect

/-- **A table is read, without its indices over expressions, exactly when there are none but those
that back a key.**  Otherwise it is refused, since a missing name is not a name. -/
theorem readTable_of_indices (hd : d.Sound) (hs : ReadsFrom dialect c given schema)
    (hc : ShownBy dialect c schema d) (σ : Session) (hσ : Recalls schema σ.schemaName) :
    (d.ReadInto dialect σ (outcome (readTable dialect c given (.text d.name)) σ) ↔
      ∀ n ∈ d.ownIndices, d.isNamed n) ∧
    ((outcome (readTable dialect c given (.text d.name)) σ).1 =
        .error (.model (.wrongType (.notName .null))) ↔
      ∃ n ∈ d.ownIndices, ¬ d.isNamed n) := by
  by_cases hnamed : ∀ n ∈ d.ownIndices, d.isNamed n
  · obtain ⟨t, σ', ho, hdraft⟩ := exists_readView hd hs hc hnamed σ hσ
    have hread : d.ReadInto dialect σ (.ok t, σ') :=
      ⟨t, rfl, hdraft.building.old, hdraft.building.new, hdraft.outline⟩
    rw [ho]
    refine ⟨⟨fun _ => hnamed, fun _ => hread⟩, ⟨fun h => (by cases h), ?_⟩⟩
    rintro ⟨n, hn, hexpression⟩
    exact absurd (hnamed n hn) hexpression
  · have hexpression : ∃ n ∈ d.ownIndices, ¬ d.isNamed n := by simpa using hnamed
    obtain ⟨e, σ', ho, rfl⟩ := fails_readView hd hs hc hexpression σ.store σ rfl hσ
    rw [ho]
    refine ⟨⟨?_, fun h => absurd h hnamed⟩, fun _ => hexpression, fun _ => rfl⟩
    rintro ⟨t, ht, -⟩
    cases ht

/-- A table with an index over a column and an expression that backs a unique constraint. -/
def goods : ViewReport where
  name := "goods"
  columns := [
    { name := "id", dataType := "int", length := none, precision := some 10, scale := some 0,
      nullable := false, default := none },
    { name := "title", dataType := "varchar", length := some 40, precision := none, scale := none,
      nullable := true, default := none }]
  keys := [{ name := "once", isPrimary := false, columns := ["id"] }]
  references := []
  checks := []
  parts := [
    { index := "once", nonUnique := 0, method := some "BTREE", column := some "id" },
    { index := "by_title", nonUnique := 1, method := some "BTREE", column := some "title" },
    { index := "once", nonUnique := 0, method := some "BTREE", column := none },
    { index := "by_title", nonUnique := 1, method := some "BTREE", column := some "id" }]
  engine := some "InnoDB"
  collation := none

theorem sound_goods : goods.Sound where
  base :=
    { columns := by decide
      normalised := by
        simp only [goods, ViewReport.base, Normalised, Trimmed, List.map_cons, List.map_nil]
        decide
      keys := by
        simp only [goods, ViewReport.base, Normalised, Trimmed, List.map_cons, List.map_nil]
        decide
      onePrimary := by decide
      keyColumns := by
        simp only [goods, ViewReport.base, List.map_cons, List.map_nil]
        decide
      references := by simp [ViewReport.base, Normalised]
      pairs := by simp [ViewReport.base]
      indices := by simp [ViewReport.base, Normalised]
      indexColumns := by simp [ViewReport.base]
      options := by
        simp only [goods, ViewReport.base, Trimmed]
        decide }
  references := by simp [goods]
  parts := by simp [goods]

/-- The table with an index over an expression before its others. -/
def shoutedGoods : ViewReport :=
  { goods with parts :=
      { index := "by_lower", nonUnique := 1, method := some "BTREE", column := none } ::
        goods.parts }

theorem sound_shoutedGoods : shoutedGoods.Sound where
  base := sound_goods.base
  references := sound_goods.references
  parts := by simp [shoutedGoods, goods]

/-- The table is read as long as the only index over an expression backs its key. -/
theorem readTable_of_indices_goods :
    goods.ReadInto .mysql {} (outcome (readTable .mysql
      (answering (goods.answers .mysql "shop")) .null (.text "goods")) {}) ∧
    (goods.outline .mysql).indices =
      [{ name := .text "by_title", kind := .indexKind .normal,
         fields := .ofTexts ["title", "id"] }] ∧
    (outcome (readTable .mysql (answering (shoutedGoods.answers .mysql "shop")) .null
      (.text "goods")) {}).1 = .error (.model (.wrongType (.notName .null))) := by
  obtain ⟨hc, hs⟩ := shownBy_answering .mysql "shop" goods
  obtain ⟨hc', hs'⟩ := shownBy_answering .mysql "shop" shoutedGoods
  have hread := readTable_of_indices sound_goods hs hc {} (.inl rfl)
  have hrefused := readTable_of_indices sound_shoutedGoods hs' hc' {} (.inl rfl)
  exact ⟨hread.1.mpr (by decide), rfl, hrefused.2.mpr (by decide)⟩

/-- It is not so that a table is read whatever indices over expressions it has. -/
theorem not_readInto_shoutedGoods :
    ¬ ∀ (c : Connection) (given schema : Value) (d : ViewReport) (σ : Session), d.Sound →
      ReadsFrom .mysql c given schema → ShownBy .mysql c schema d → Recalls schema σ.schemaName →
      d.ReadInto .mysql σ (outcome (readTable .mysql c given (.text d.name)) σ) := by
  intro h
  obtain ⟨hc, hs⟩ := shownBy_answering .mysql "shop" shoutedGoods
  obtain ⟨t, hread, -⟩ := h _ _ _ shoutedGoods {} sound_shoutedGoods hs hc (.inl rfl)
  have hexpression : ∃ n ∈ shoutedGoods.ownIndices, ¬ shoutedGoods.isNamed n := by decide
  obtain ⟨e, σ', ho, -⟩ :=
    fails_readView sound_shoutedGoods hs hc hexpression _ {} rfl (.inl rfl)
  rw [ho] at hread
  cases hread

end DbSchema.Source.StandardViews
