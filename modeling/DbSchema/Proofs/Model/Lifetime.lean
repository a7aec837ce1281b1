import DbSchema.Model.Lifetime
import DbSchema.Proofs.Cells
import Mathlib.Data.Finset.Card

/-!
# What is held is kept

Emptying the cells of objects that nothing holds leaves no living object with a gap: whatever a
living object holds lives too.

## Main definitions

* `Store.ClosedIn st alive` — everything that a member of `alive` holds is a member.
* `Store.aliveFrom st roots` — the objects that the given ones hold, directly or through others.
* `Store.Followed st known roots` — what the known objects hold is known or about to be looked at.

## Main results

* `Store.closedIn_aliveFrom` — following what is held in rounds, as many as there are cells, misses
  nothing.
* `Store.table_sweep` and its like — what is in a cell after emptying the others.
-/

namespace DbSchema.Store

/-- Everything that a member holds is a member. -/
def ClosedIn (st : Store) (alive : List Ref) : Prop :=
  ∀ r ∈ alive, ∀ r' ∈ st.holds r, r' ∈ alive

/-- The objects that the given ones hold, directly or through others. -/
def aliveFrom (st : Store) (roots : List Ref) : List Ref := st.heldBy (st.size + 1) roots []

/-! ### What schemas and tables hold -/

section

variable {st : Store} {s : SchemaId} {t : TableId}

theorem table_mem_holds {e : Value × TableId} (he : e ∈ (st.schema s).tables) :
    Ref.table e.2 ∈ st.holds (.schema s) := by
  simp only [holds, List.mem_append, List.mem_flatMap]
  exact Or.inr (Or.inr ⟨e, he, List.mem_cons_self⟩)

theorem field_mem_holds {e : Value × FieldId} (he : e ∈ (st.table t).fields) :
    Ref.field e.2 ∈ st.holds (.table t) := by
  simp only [holds, List.mem_append, List.mem_flatMap]
  exact Or.inr (Or.inl (Or.inl (Or.inr ⟨e, he, List.mem_cons_self⟩)))

theorem index_mem_holds {i : IndexId} (hi : i ∈ (st.table t).indices) :
    Ref.index i ∈ st.holds (.table t) := by
  simp only [holds, List.mem_append, List.mem_map]
  exact Or.inr (Or.inl (Or.inr ⟨i, hi, rfl⟩))

theorem constraint_mem_holds {c : ConstraintId} (hc : c ∈ (st.table t).constraints) :
    Ref.constraint c ∈ st.holds (.table t) := by
  simp only [holds, List.mem_append, List.mem_map]
  exact Or.inr (Or.inr ⟨c, hc, rfl⟩)

end

/-! ### The objects with a cell -/

/-- The objects that have a cell of their own. -/
def cellRefs (st : Store) : Finset Ref :=
  ((List.range st.schemas.size).map (fun i => Ref.schema ⟨i⟩) ++
    (List.range st.tables.size).map (fun i => Ref.table ⟨i⟩) ++
    (List.range st.fields.size).map (fun i => Ref.field ⟨i⟩) ++
    (List.range st.indices.size).map (fun i => Ref.index ⟨i⟩) ++
    (List.range st.constraints.size).map (fun i => Ref.constraint ⟨i⟩)).toFinset

theorem card_cellRefs_le (st : Store) : st.cellRefs.card ≤ st.size := by
  refine (List.toFinset_card_le _).trans ?_
  simp only [List.length_append, List.length_map, List.length_range, size]
  exact le_rfl

/-- An object without a cell holds nothing. -/
theorem holds_of_not_mem_cellRefs {st : Store} {r : Ref} (h : r ∉ st.cellRefs) :
    st.holds r = [] := by
  cases r with
  | schema s =>
    have hout : st.schemas.size ≤ s.index :=
      not_lt.mp fun hin => h (by simpa [cellRefs] using ⟨s.index, hin, rfl⟩)
    rw [holds, notesOf, st.schema_of_size_le hout]
    rfl
  | table t =>
    have hout : st.tables.size ≤ t.index :=
      not_lt.mp fun hin => h (by simpa [cellRefs] using ⟨t.index, hin, rfl⟩)
    rw [holds, notesOf, st.table_of_size_le hout]
    rfl
  | field f =>
    have hout : st.fields.size ≤ f.index :=
      not_lt.mp fun hin => h (by simpa [cellRefs] using ⟨f.index, hin, rfl⟩)
    rw [holds, notesOf, st.field_of_size_le hout]
    rfl
  | index i =>
    have hout : st.indices.size ≤ i.index :=
      not_lt.mp fun hin => h (by simpa [cellRefs] using ⟨i.index, hin, rfl⟩)
    rw [holds, notesOf, st.index_of_size_le hout]
    rfl
  | constraint c =>
    have hout : st.constraints.size ≤ c.index :=
      not_lt.mp fun hin => h (by simpa [cellRefs] using ⟨c.index, hin, rfl⟩)
    rw [holds, notesOf, st.constraint_of_size_le hout]
    rfl

/-! ### Following what is held -/

theorem heldBy_nil (st : Store) (depth : Nat) (known : List Ref) :
    st.heldBy depth [] known = known := by
  cases depth with
  | zero => rfl
  | succ d => simp [heldBy]

/-- The members of a list that are not known yet, each once. -/
def freshOf (known roots : List Ref) : List Ref :=
  (roots.filter fun r => !known.contains r).eraseDups

theorem mem_freshOf {known roots : List Ref} {r : Ref} :
    r ∈ freshOf known roots ↔ r ∈ roots ∧ r ∉ known := by
  simp [freshOf]

theorem heldBy_succ (st : Store) (depth : Nat) (roots known : List Ref) :
    st.heldBy (depth + 1) roots known =
      if (freshOf known roots).isEmpty then known
      else
        st.heldBy depth ((freshOf known roots).flatMap st.holds)
          (known ++ freshOf known roots) := rfl

/-- What the known objects hold is known or about to be looked at. -/
def Followed (st : Store) (known roots : List Ref) : Prop :=
  ∀ r ∈ known, ∀ r' ∈ st.holds r, r' ∈ known ∨ r' ∈ roots

section

variable {st : Store} {known roots : List Ref}

/-- A round finds the fresh objects, and looks at what they hold next. -/
theorem Followed.round (h : st.Followed known roots) :
    st.Followed (known ++ freshOf known roots) ((freshOf known roots).flatMap st.holds) := by
  intro r hr r' hr'
  rcases List.mem_append.mp hr with hk | hf
  · by_cases hn : r' ∈ known
    · exact Or.inl (List.mem_append_left _ hn)
    · have hroot := (h r hk r' hr').resolve_left hn
      exact Or.inl (List.mem_append_right _ (mem_freshOf.mpr ⟨hroot, hn⟩))
  · exact Or.inr (List.mem_flatMap.mpr ⟨r, hf, hr'⟩)

/-- When nothing is fresh, nothing is left to look at. -/
theorem Followed.closedIn (h : st.Followed known roots) (hfresh : freshOf known roots = []) :
    st.ClosedIn known := by
  intro r hr r' hr'
  by_contra hn
  have hf : r' ∈ freshOf known roots := mem_freshOf.mpr ⟨(h r hr r' hr').resolve_left hn, hn⟩
  rw [hfresh] at hf
  cases hf

/-- A round that finds an object with a cell leaves fewer of them to find. -/
theorem card_sdiff_known_lt {r : Ref} (hf : r ∈ freshOf known roots) (hr : r ∈ st.cellRefs) :
    (st.cellRefs \ (known ++ freshOf known roots).toFinset).card <
      (st.cellRefs \ known.toFinset).card := by
  refine Finset.card_lt_card ((Finset.ssubset_iff_of_subset fun x => ?_).mpr ?_)
  · simp only [Finset.mem_sdiff, List.mem_toFinset, List.mem_append, not_or]
    exact fun hx => ⟨hx.1, hx.2.1⟩
  · exact ⟨r, by simp [hr, (mem_freshOf.mp hf).2], by simp [hf]⟩

/-- **Rounds of following what is held miss nothing.**  Every round but the last finds an object
with a cell that was not known, so as many rounds as there are such objects, and one more, are
enough. -/
theorem Followed.closedIn_heldBy {depth : Nat} (h : st.Followed known roots)
    (hdepth : (st.cellRefs \ known.toFinset).card < depth) :
    st.ClosedIn (st.heldBy depth roots known) := by
  induction depth generalizing roots known with
  | zero => omega
  | succ d ih =>
    rw [heldBy_succ]
    by_cases he : (freshOf known roots).isEmpty
    · rw [if_pos he]
      exact h.closedIn (List.isEmpty_iff.mp he)
    · rw [if_neg he]
      by_cases hcell : ∃ r ∈ freshOf known roots, r ∈ st.cellRefs
      · obtain ⟨r, hf, hr⟩ := hcell
        have hlt := card_sdiff_known_lt hf hr
        exact ih h.round (by omega)
      · -- What was found holds nothing, and the next round is the last.
        have hnone : (freshOf known roots).flatMap st.holds = [] := by
          rw [List.flatMap_eq_nil_iff]
          exact fun r hr => holds_of_not_mem_cellRefs fun hc => hcell ⟨r, hr, hc⟩
        have hround := h.round
        rw [hnone] at hround ⊢
        rw [heldBy_nil]
        exact hround.closedIn rfl

end

theorem closedIn_aliveFrom (st : Store) (roots : List Ref) :
    st.ClosedIn (st.aliveFrom roots) := by
  have hfollowed : st.Followed [] roots := by simp [Followed]
  refine hfollowed.closedIn_heldBy (Nat.lt_succ_of_le ?_)
  simpa using card_cellRefs_le st

/-! ### What is in the cells afterwards -/

theorem get_keepCells {α : Type} [Inhabited α] (keep : Nat → Bool) (cells : Slots α)
    {change : α → α} (hchange : change default = default) (i : Nat) :
    (keepCells keep cells change).get i = if keep i then change (cells.get i) else default := by
  rw [keepCells, Slots.get, Slots.get, List.getD_eq_getElem?_getD, List.getElem?_mapIdx,
    List.getD_eq_getElem?_getD]
  rcases cells.cells[i]? with _ | x
  · simp [hchange]
  · simp

variable (st : Store) (roots : List Ref)

theorem schema_sweep (s : SchemaId) :
    (st.sweep roots).schema s =
      if (st.aliveFrom roots).contains (.schema s) then st.schema s else default :=
  get_keepCells _ _ rfl _

theorem table_sweep (t : TableId) :
    (st.sweep roots).table t =
      if (st.aliveFrom roots).contains (.table t) then
        { st.table t with
          owner := (st.table t).owner.filter fun s => (st.aliveFrom roots).contains (.schema s) }
      else default :=
  get_keepCells _ _ rfl _

theorem field_sweep (f : FieldId) :
    (st.sweep roots).field f =
      if (st.aliveFrom roots).contains (.field f) then
        { st.field f with owner := (st.field f).owner.filter (st.aliveFrom roots).contains }
      else default :=
  get_keepCells _ _ rfl _

theorem index_sweep (i : IndexId) :
    (st.sweep roots).index i =
      if (st.aliveFrom roots).contains (.index i) then
        { st.index i with owner := (st.index i).owner.filter (st.aliveFrom roots).contains }
      else default :=
  get_keepCells _ _ rfl _

theorem constraint_sweep (c : ConstraintId) :
    (st.sweep roots).constraint c =
      if (st.aliveFrom roots).contains (.constraint c) then
        { st.constraint c with
          owner := (st.constraint c).owner.filter (st.aliveFrom roots).contains }
      else default :=
  get_keepCells _ _ rfl _

end DbSchema.Store
