import DbSchema.Proofs.Model.Outline
import DbSchema.Source.Grouping
import Mathlib.Data.Int.Order.Basic
import Mathlib.Data.List.Nodup
import Mathlib.Data.List.Perm.Basic

/-!
# Rows that list things

A database describes the things it holds by rows, one for each thing or one for each part of it.
Sorting the rows by a column of numbers brings the things in the order of the numbers, whatever
order the rows came in.  Grouping the rows by a column brings together those of things with one key,
in the order in which the keys are first mentioned.

## Main definitions

* `Row.Shows row cells` — the row may be asked in every way and has these cells.
* `Gathers R keyOf shown groups keys items` — the groups hold the rows of the items under each key.
* `listed keys parts` — the parts of some things, one thing after the other.

## Main results

* `sortBy_of_perm` — sorting by distinct numbers gives the one list in which these ascend.
* `sortRows_of_forall₂` — the same for the rows that list things.
* `groupRows_of_forall₂` — grouping the rows that list things.
* `groupRows_of_listed` — grouping the rows of things that are listed part by part.
-/

namespace DbSchema

/-! ### Sorting by numbers -/

section

variable {α β : Type} {key : β → Int}

theorem insertSorted_map (before : α → α → Except Fault Bool) (f : β → α) (x : β) (l : List β) :
    insertSorted before (f x) (l.map f) =
      (insertSorted (fun a b => before (f a) (f b)) x l).map (List.map f) := by
  induction l with
  | nil => rfl
  | cons y r ih =>
    rw [List.map_cons, insertSorted, insertSorted, ih]
    rcases before (f x) (f y) with e | _ | _
    · rfl
    · rfl
    · rcases insertSorted (fun a b => before (f a) (f b)) x r with e | l' <;> rfl

/-- Items may be looked at through a function while they are sorted. -/
theorem sortBy_map (before : α → α → Except Fault Bool) (f : β → α) (l : List β) :
    sortBy before (l.map f) = (sortBy (fun a b => before (f a) (f b)) l).map (List.map f) := by
  have hall : ∀ l sorted : List β,
      (l.map f).foldlM (fun sorted x => insertSorted before x sorted) (sorted.map f) =
        (l.foldlM (fun sorted x => insertSorted (fun a b => before (f a) (f b)) x sorted)
          sorted).map (List.map f) := by
    intro l
    induction l with
    | nil => exact fun _ => rfl
    | cons x r ih =>
      intro sorted
      rw [List.map_cons, List.foldlM_cons, List.foldlM_cons, insertSorted_map]
      rcases insertSorted (fun a b => before (f a) (f b)) x sorted with e | l'
      · rfl
      · exact ih l'
  rw [sortBy, sortBy, show ([] : List α) = [].map f from rfl, hall l []]
  rcases l.foldlM (fun sorted x => insertSorted (fun a b => before (f a) (f b)) x sorted) []
    with e | l'
  · rfl
  · exact congrArg Except.ok List.map_reverse.symm

variable {before : β → β → Except Fault Bool}
  (hbefore : ∀ a b, key a ≠ key b → before a b = .ok (decide (key a < key b)))
include hbefore

/-- An item that is put into a descending list is in it, and the list descends. -/
theorem insertSorted_descending {x : β} {l : List β} (hx : ∀ y ∈ l, key x ≠ key y)
    (hl : l.Pairwise fun a b => key b < key a) :
    ∃ l', insertSorted before x l = .ok l' ∧ l'.Perm (x :: l) ∧
      l'.Pairwise fun a b => key b < key a := by
  induction l with
  | nil => exact ⟨[x], rfl, .refl _, List.pairwise_singleton _ _⟩
  | cons y r ih =>
    obtain ⟨hy, hr⟩ := List.pairwise_cons.mp hl
    have hne := hx y List.mem_cons_self
    rw [insertSorted, hbefore x y hne]
    by_cases hxy : key x < key y
    · obtain ⟨l', hins, hperm, hdesc⟩ := ih (fun z hz => hx z (List.mem_cons_of_mem y hz)) hr
      refine ⟨y :: l', by simp [hxy, hins, bind, Except.bind, pure, Except.pure],
        (hperm.cons y).trans (.swap x y r), List.pairwise_cons.mpr ⟨fun z hz => ?_, hdesc⟩⟩
      rcases List.mem_cons.mp (hperm.mem_iff.mp hz) with rfl | hz
      · exact hxy
      · exact hy z hz
    · have hyx : key y < key x := lt_of_le_of_ne (not_lt.mp hxy) hne.symm
      refine ⟨x :: y :: r, by simp [hxy, bind, Except.bind, pure, Except.pure], .refl _,
        List.pairwise_cons.mpr ⟨fun z hz => ?_, hl⟩⟩
      rcases List.mem_cons.mp hz with rfl | hz
      · exact hyx
      · exact lt_trans (hy z hz) hyx

/-- **Sorting by distinct numbers gives the one list in which they ascend.** -/
theorem sortBy_of_perm {l l' : List β} (hp : l.Perm l')
    (hs : l'.Pairwise fun a b => key a < key b) : sortBy before l = .ok l' := by
  have hall : ∀ l sorted : List β, (l ++ sorted).Pairwise (fun a b => key a ≠ key b) →
      (sorted.Pairwise fun a b => key b < key a) →
      ∃ l', l.foldlM (fun sorted x => insertSorted before x sorted) sorted = .ok l' ∧
        l'.Perm (l ++ sorted) ∧ l'.Pairwise fun a b => key b < key a := by
    intro l
    induction l with
    | nil => exact fun sorted _ hd => ⟨sorted, rfl, .refl _, hd⟩
    | cons x r ih =>
      intro sorted hne hd
      rw [List.cons_append] at hne
      have hx := (List.pairwise_cons.mp hne).1
      obtain ⟨l₁, hins, hperm, hdesc⟩ :=
        insertSorted_descending hbefore (fun y hy => hx y (List.mem_append_right r hy)) hd
      have hmove : (r ++ l₁).Perm (x :: (r ++ sorted)) :=
        (hperm.append_left r).trans List.perm_middle
      obtain ⟨l₂, hfold, hperm', hdesc'⟩ := ih l₁ ((hmove.pairwise_iff Ne.symm).mpr hne) hdesc
      exact ⟨l₂, by rw [List.foldlM_cons, hins]; exact hfold, hperm'.trans hmove, hdesc'⟩
  have hne : l.Pairwise fun a b => key a ≠ key b :=
    (hp.pairwise_iff Ne.symm).mpr (hs.imp ne_of_lt)
  obtain ⟨l₁, hfold, hperm, hdesc⟩ := hall l [] (by simpa using hne) List.Pairwise.nil
  rw [List.append_nil] at hperm
  -- two permutations of one list that both ascend are the same
  have heq : l₁.reverse = l' :=
    (l₁.reverse_perm.trans (hperm.trans hp)).eq_of_pairwise
      (fun a b _ _ hab hba => absurd hba (lt_asymm hab)) (List.pairwise_reverse.mpr hdesc) hs
  rw [sortBy, hfold]
  exact congrArg Except.ok heq

end

namespace Source

/-! ### Rows -/

/-- The row may be asked in every way, and has these cells. -/
structure Row.Shows (row : Row) (cells : List (String × Value)) : Prop where
  form : row.form = .mapping
  cell : ∀ e ∈ cells, row.find e.1 = some e.2

namespace Row.Shows

variable {row : Row} {cells : List (String × Value)} {column : String} {v : Value}

theorem item (h : row.Shows cells) (hc : (column, v) ∈ cells) : row.item column = .ok v := by
  rw [Row.item, h.form, h.cell _ hc]

theorem get (h : row.Shows cells) (column : String) : row.get column = .ok (row.find column) := by
  rw [Row.get, h.form]

theorem mono (h : row.Shows cells) {cells' : List (String × Value)}
    (hsub : ∀ e ∈ cells', e ∈ cells) : row.Shows cells' :=
  ⟨h.form, fun e he => h.cell e (hsub e he)⟩

end Row.Shows

/-- The row that has these cells. -/
def Row.ofCells (cells : List (String × Value)) : Row :=
  { columns := cells.map fun e => (.text e.1, e.2) }

/-- An entry of a list without repeated keys is found under its key. -/
theorem find?_fst_of_mem {α β : Type} [DecidableEq α] {entries : List (α × β)}
    (hn : (entries.map (·.1)).Nodup) {e : α × β} (he : e ∈ entries) :
    entries.find? (fun d => d.1 = e.1) = some e := by
  induction entries with
  | nil => cases he
  | cons d r ih =>
    obtain ⟨hd, hr⟩ := List.nodup_cons.mp hn
    rcases List.mem_cons.mp he with rfl | he
    · rw [List.find?_cons_of_pos (by simp)]
    · have hne : d.1 ≠ e.1 := fun heq => hd (List.mem_map.mpr ⟨e, he, heq.symm⟩)
      rw [List.find?_cons_of_neg (by simpa using hne), ih hr he]

theorem Row.shows_ofCells {cells : List (String × Value)} (h : (cells.map (·.1)).Nodup) :
    (Row.ofCells cells).Shows cells := by
  refine ⟨rfl, fun e he => ?_⟩
  have hcolumn : ∀ d : String × Value, (some d.1 == some e.1) = decide (d.1 = e.1) :=
    fun _ => rfl
  rw [Row.find, Value.entry?, Row.ofCells, List.find?_map]
  simp only [Function.comp_def, Value.asText?, hcolumn, find?_fst_of_mem h he, Option.map_some]

variable {ι κ : Type} {R : Row → ι → Prop} {column : String}

/-- Things that are each listed by their own row. -/
theorem forall₂_map_row {row : ι → Row} (h : ∀ i, R (row i) i) (items : List ι) :
    List.Forall₂ R (items.map row) items := by
  rw [List.forall₂_map_left_iff, List.forall₂_same]
  exact fun i _ => h i

/-- What the rows show of the things they list is what the things have. -/
theorem map_eq_of_forall₂ {α : Type} {f : Row → α} {g : ι → α}
    (h : ∀ row i, R row i → f row = g i) {rows : List Row} {items : List ι}
    (hrows : List.Forall₂ R rows items) : rows.map f = items.map g := by
  induction hrows with
  | nil => rfl
  | cons hrow _ ih => rw [List.map_cons, List.map_cons, h _ _ hrow, ih]

/-- The first row that is looked for lists the first thing that is looked for. -/
theorem find?_of_forall₂ {p : Row → Bool} {q : ι → Bool} (h : ∀ row i, R row i → p row = q i)
    {rows : List Row} {items : List ι} (hrows : List.Forall₂ R rows items) :
    Option.Rel R (rows.find? p) (items.find? q) := by
  induction hrows with
  | nil => exact .none
  | @cons row i rows items hrow _ ih =>
    rw [List.find?_cons, List.find?_cons, h row i hrow]
    split
    · exact .some hrow
    · exact ih

/-! ### Sorting rows -/

theorem withColumn_eq {f : Row → Value} {rows : List Row}
    (h : ∀ row ∈ rows, row.item column = .ok (f row)) :
    withColumn column rows = .ok (rows.map fun row => (f row, row)) := by
  induction rows with
  | nil => rfl
  | cons row r ih =>
    rw [withColumn, h row List.mem_cons_self, ih fun x hx => h x (List.mem_cons_of_mem row hx)]
    rfl

/-- The number in a column of a row, zero if there is none. -/
def Row.numberIn (row : Row) (column : String) : Int :=
  ((row.item column).toOption.bind Value.asInt?).getD 0

/-- **Rows that list things by number are sorted by these numbers**, whatever order they are in. -/
theorem sortRows_of_forall₂ {key : ι → Int}
    (hR : ∀ row i, R row i → row.item column = .ok (.int (key i))) {rows : List Row}
    {listing items : List ι} (h : List.Forall₂ R rows listing) (hp : listing.Perm items)
    (hs : items.Pairwise fun i j => key i < key j) :
    ∃ sorted, sortRows column rows = .ok sorted ∧ List.Forall₂ R sorted items := by
  -- the rows of the items in order
  obtain ⟨sorted, hrows, hsorted⟩ : Relation.Comp List.Perm (List.Forall₂ R) rows items :=
    List.forall₂_comp_perm_eq_perm_comp_forall₂ ▸ ⟨listing, h, hp⟩
  have hnumber : ∀ {row i}, R row i → row.numberIn column = key i := fun hri => by
    rw [Row.numberIn, hR _ _ hri]
    rfl
  have hitem : ∀ row ∈ rows, row.item column = .ok (.int (row.numberIn column)) := by
    intro row hrow
    obtain ⟨i, -, hri⟩ := exists_of_forall₂ h hrow
    rw [hR row i hri, hnumber hri]
  have hasc : sorted.Pairwise fun a b => a.numberIn column < b.numberIn column := by
    clear hrows hp
    induction hsorted with
    | nil => exact .nil
    | @cons row i rs is hri hrest ih =>
      obtain ⟨hi, his⟩ := List.pairwise_cons.mp hs
      refine List.pairwise_cons.mpr ⟨fun row' hrow' => ?_, ih his⟩
      obtain ⟨j, hj, hrj⟩ := exists_of_forall₂ hrest hrow'
      rw [hnumber hri, hnumber hrj]
      exact hi j hj
  have hbefore : ∀ a b : Row, a.numberIn column ≠ b.numberIn column →
      Value.precedes (.int (a.numberIn column)) (.int (b.numberIn column)) =
        .ok (decide (a.numberIn column < b.numberIn column)) := fun _ _ _ => rfl
  refine ⟨sorted, ?_, hsorted⟩
  rw [sortRows, withColumn_eq hitem]
  have hsort := sortBy_map (fun a b : Value × Row => Value.precedes a.1 b.1)
    (fun row : Row => (.int (row.numberIn column), row)) rows
  rw [sortBy_of_perm hbefore hrows hasc] at hsort
  simp [bind, Except.bind, pure, Except.pure, hsort, Except.map, Function.comp_def]

/-! ### Grouping rows -/

/-- The groups hold the rows of the items under each key. -/
def Gathers [DecidableEq κ] (R : Row → ι → Prop) (keyOf : ι → κ) (shown : κ → Value)
    (groups : List (Value × List Row)) (keys : List κ) (items : List ι) : Prop :=
  List.Forall₂
    (fun g k => g.1 = shown k ∧ List.Forall₂ R g.2 (items.filter fun i => keyOf i = k))
    groups keys

namespace Gathers

variable [DecidableEq κ] {keyOf : ι → κ} {shown : κ → Value} {groups : List (Value × List Row)}
  {keys : List κ} {items : List ι} {row : Row} {i : ι}

/-- An item with a key of none of the groups is in none of them. -/
theorem append_of_not_mem (h : Gathers R keyOf shown groups keys items) (hi : keyOf i ∉ keys) :
    Gathers R keyOf shown groups keys (items ++ [i]) := by
  induction h with
  | nil => exact .nil
  | @cons g k gs ks hg hrest ih =>
    rw [List.mem_cons, not_or] at hi
    have hfilter : (items ++ [i]).filter (fun j => keyOf j = k) =
        items.filter fun j => keyOf j = k := by simp [hi.1]
    exact .cons (by rwa [hfilter]) (ih hi.2)

variable (hrow : R row i)
  (hsame : ∀ k ∈ keys, (shown k).same (shown (keyOf i)) = decide (k = keyOf i))
include hrow hsame

/-- A row goes to the group of its key. -/
theorem add_old (h : Gathers R keyOf shown groups keys items) (hi : keyOf i ∈ keys)
    (hkeys : keys.Nodup) :
    Gathers R keyOf shown (addToGroup (shown (keyOf i)) row groups) keys (items ++ [i]) := by
  induction h with
  | nil => cases hi
  | @cons g k gs ks hg hrest ih =>
    obtain ⟨hk, hks⟩ := List.nodup_cons.mp hkeys
    rw [addToGroup, hg.1, hsame k List.mem_cons_self]
    by_cases heq : k = keyOf i
    · rw [if_pos (by simpa using heq)]
      refine .cons ⟨rfl, ?_⟩ (append_of_not_mem hrest (heq ▸ hk))
      rw [List.filter_append, List.filter_cons_of_pos (by simp [heq])]
      exact List.rel_append hg.2 (.cons hrow .nil)
    · rw [if_neg (by simpa using heq)]
      have hmem : keyOf i ∈ ks := (List.mem_cons.mp hi).resolve_left fun h => heq h.symm
      have hfilter : (items ++ [i]).filter (fun j => keyOf j = k) =
          items.filter fun j => keyOf j = k := by simp [Ne.symm heq]
      refine .cons ⟨rfl, ?_⟩ (ih (fun k' hk' => hsame k' (List.mem_cons_of_mem k hk')) hmem hks)
      rw [hfilter]
      exact hg.2

/-- A row with a new key makes a group. -/
theorem add_new (h : Gathers R keyOf shown groups keys items) (hi : keyOf i ∉ keys)
    (hitems : ∀ j ∈ items, keyOf j ∈ keys) :
    Gathers R keyOf shown (addToGroup (shown (keyOf i)) row groups) (keys ++ [keyOf i])
      (items ++ [i]) := by
  have hnone : items.filter (fun j => keyOf j = keyOf i) = [] :=
    List.filter_eq_nil_iff.mpr fun j hj hji => hi ((of_decide_eq_true hji) ▸ hitems j hj)
  clear hitems
  induction h with
  | nil =>
    refine .cons ⟨rfl, ?_⟩ .nil
    rw [List.filter_append, hnone]
    simpa using hrow
  | @cons g k gs ks hg hrest ih =>
    rw [List.mem_cons, not_or] at hi
    rw [addToGroup, hg.1, hsame k List.mem_cons_self, if_neg (by simpa using Ne.symm hi.1)]
    have hfilter : (items ++ [i]).filter (fun j => keyOf j = k) =
        items.filter fun j => keyOf j = k := by simp [hi.1]
    refine .cons ⟨rfl, ?_⟩ (ih (fun k' hk' => hsame k' (List.mem_cons_of_mem k hk')) hi.2)
    rw [hfilter]
    exact hg.2

end Gathers

section

variable [DecidableEq κ]

/-- **Rows are grouped by what they show of the keys of things.**  There is one group for each key,
in the order in which the keys are first mentioned, with the rows of that key in their order. -/
theorem groupRows_of_forall₂ (keyOf : ι → κ) (shown : κ → Value) {rows : List Row}
    {items : List ι} (hR : ∀ row i, R row i → row.item column = .ok (shown (keyOf i)))
    (hhash : ∀ k, (shown k).hashable)
    (hsame : ∀ i ∈ items, ∀ j ∈ items,
      (shown (keyOf i)).same (shown (keyOf j)) = decide (keyOf i = keyOf j))
    (h : List.Forall₂ R rows items) :
    ∃ groups, groupRows rows column = .ok groups ∧
      Gathers R keyOf shown groups (items.map keyOf).eraseDups items := by
  -- the groups so far are those of the rows that were read
  have hall : ∀ {rows : List Row} {rest : List ι}, List.Forall₂ R rows rest →
      ∀ (done : List ι) {groups}, (∀ i ∈ done ++ rest, i ∈ items) →
        Gathers R keyOf shown groups (done.map keyOf).eraseDups done →
        ∃ groups', gatherRows column rows groups = .ok groups' ∧
          Gathers R keyOf shown groups' ((done ++ rest).map keyOf).eraseDups (done ++ rest) := by
    intro rows rest hrest
    induction hrest with
    | nil => exact fun done {groups} _ hg => ⟨groups, rfl, by simpa using hg⟩
    | @cons row i rows rest hrow _ ih =>
      intro done groups hin hg
      have hkeys : ∀ k ∈ (done.map keyOf).eraseDups,
          (shown k).same (shown (keyOf i)) = decide (k = keyOf i) := by
        intro k hk
        obtain ⟨j, hj, rfl⟩ := List.mem_map.mp (List.mem_eraseDups.mp hk)
        exact hsame j (hin j (List.mem_append_left _ hj)) i (hin i (by simp))
      have hstep : Gathers R keyOf shown (addToGroup (shown (keyOf i)) row groups)
          ((done ++ [i]).map keyOf).eraseDups (done ++ [i]) := by
        rw [List.map_append, List.map_singleton, eraseDups_append_singleton]
        -- the row goes to the group of its key, which may be a new one
        by_cases hi : keyOf i ∈ done.map keyOf
        · rw [if_pos hi]
          exact hg.add_old hrow hkeys (List.mem_eraseDups.mpr hi) (nodup_eraseDups _)
        · rw [if_neg hi]
          exact hg.add_new hrow hkeys (fun h => hi (List.mem_eraseDups.mp h))
            fun j hj => List.mem_eraseDups.mpr (List.mem_map_of_mem hj)
      rw [gatherRows, hR row i hrow]
      dsimp only
      rw [if_pos (hhash _)]
      rw [List.append_cons] at hin ⊢
      exact ih (done ++ [i]) hin hstep
  exact hall h [] (fun _ hi => hi) .nil

end

/-! ### Things that are listed part by part -/

section

variable {ρ : Type} {keys : List κ} {parts : κ → List ρ}

/-- The parts of each of some things, with the thing that they belong to. -/
def listed (keys : List κ) (parts : κ → List ρ) : List (κ × ρ) :=
  keys.flatMap fun k => (parts k).map fun p => (k, p)

theorem listed_cons (k : κ) (ks : List κ) :
    listed (k :: ks) parts = (parts k).map (fun p => (k, p)) ++ listed ks parts := rfl

theorem fst_mem_of_mem_listed {e : κ × ρ} (h : e ∈ listed keys parts) : e.1 ∈ keys := by
  obtain ⟨k, hk, he⟩ := List.mem_flatMap.mp h
  obtain ⟨p, -, rfl⟩ := List.mem_map.mp he
  exact hk

/-- The group is called by the name of a thing, and has the rows of its parts. -/
def GroupOf (R : Row → κ × ρ → Prop) (name : κ → String) (parts : κ → List ρ)
    (g : Value × List Row) (k : κ) : Prop :=
  g.1 = .text (name k) ∧ List.Forall₂ (fun row p => R row (k, p)) g.2 (parts k)

theorem map_fst_of_groups {R : Row → κ × ρ → Prop} {name : κ → String}
    {groups : List (Value × List Row)} (h : List.Forall₂ (GroupOf R name parts) groups keys) :
    groups.map (·.1) = keys.map fun k => .text (name k) := by
  rw [← List.forall₂_eq_eq_eq, List.forall₂_map_left_iff, List.forall₂_map_right_iff]
  exact h.imp fun _ _ hg => hg.1

variable [DecidableEq κ]

/-- Different things that have parts are mentioned in their order. -/
theorem eraseDups_listed (hn : keys.Nodup) (hne : ∀ k ∈ keys, parts k ≠ []) :
    ((listed keys parts).map (·.1)).eraseDups = keys := by
  induction keys with
  | nil => rfl
  | cons k ks ih =>
    obtain ⟨hk, hks⟩ := List.nodup_cons.mp hn
    have hrest := ih hks fun k' hk' => hne k' (List.mem_cons_of_mem k hk')
    have hout : ∀ k' ∈ (listed ks parts).map (·.1), (!k' == k) = true := by
      intro k' hk'
      obtain ⟨e, he, rfl⟩ := List.mem_map.mp hk'
      have hne : e.1 ≠ k := fun h => hk (h ▸ fst_mem_of_mem_listed he)
      simpa using hne
    rcases hp : parts k with _ | ⟨p, ps⟩
    · exact absurd hp (hne k List.mem_cons_self)
    · -- the other parts of the first thing mention it again
      have hfirst : (listed (k :: ks) parts).map (·.1) =
          k :: (ps.map (fun _ => k) ++ (listed ks parts).map (·.1)) := by
        simp [listed_cons, hp, Function.comp_def]
      rw [hfirst, List.eraseDups_cons, List.filter_append, List.filter_eq_self.mpr hout]
      simp [hrest]

/-- What is listed of one of the things are its parts. -/
theorem filter_listed (hn : keys.Nodup) {k : κ} (hk : k ∈ keys) :
    (listed keys parts).filter (fun e => e.1 = k) = (parts k).map fun p => (k, p) := by
  induction keys with
  | nil => cases hk
  | cons k' ks ih =>
    obtain ⟨hk', hks⟩ := List.nodup_cons.mp hn
    rw [listed_cons, List.filter_append]
    by_cases heq : k' = k
    · subst heq
      have hnone : (listed ks parts).filter (fun e => e.1 = k') = [] :=
        List.filter_eq_nil_iff.mpr fun e he h =>
          hk' ((of_decide_eq_true h) ▸ fst_mem_of_mem_listed he)
      rw [hnone, List.append_nil]
      simp
    · have hmem := (List.mem_cons.mp hk).resolve_left fun h => heq h.symm
      rw [ih hks hmem]
      simp [heq]

/-- **Rows of things with different names, listed part by part, are grouped by these names.** -/
theorem groupRows_of_listed (column : String) {R : Row → κ × ρ → Prop} {name : κ → String}
    {rows : List Row} (hR : ∀ row e, R row e → row.item column = .ok (.text (name e.1)))
    (hn : (keys.map name).Nodup) (hne : ∀ k ∈ keys, parts k ≠ [])
    (h : List.Forall₂ R rows (listed keys parts)) :
    ∃ groups, groupRows rows column = .ok groups ∧
      List.Forall₂ (GroupOf R name parts) groups keys := by
  have hkeys : keys.Nodup := hn.of_map
  have hsame : ∀ e ∈ listed keys parts, ∀ e' ∈ listed keys parts,
      (Value.text (name e.1)).same (.text (name e'.1)) = decide (e.1 = e'.1) := by
    intro e he e' he'
    have hinj := List.inj_on_of_nodup_map hn (fst_mem_of_mem_listed he) (fst_mem_of_mem_listed he')
    have hiff : name e.1 = name e'.1 ↔ e.1 = e'.1 := ⟨hinj, congrArg name⟩
    rw [Value.same, ← decide_eq_decide.mpr hiff]
    rfl
  obtain ⟨groups, hgroup, hgroups⟩ :=
    groupRows_of_forall₂ (fun e : κ × ρ => e.1) (fun k => .text (name k)) hR (fun _ => rfl) hsame h
  rw [eraseDups_listed hkeys hne] at hgroups
  -- what is gathered under the name of a thing are its parts
  refine ⟨groups, hgroup, List.forall₂_iff_zip.mpr ⟨hgroups.length_eq, fun {g k} hgk => ?_⟩⟩
  obtain ⟨hname, hrows⟩ := List.forall₂_zip hgroups hgk
  rw [filter_listed hkeys (List.of_mem_zip hgk).2] at hrows
  exact ⟨hname, List.forall₂_map_right_iff.mp hrows⟩

end

end Source

end DbSchema
