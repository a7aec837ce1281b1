import DbSchema.Proofs.Source.ViewTables
import Mathlib.Data.List.ProdSigma

/-!
# Foreign keys that are listed crosswise

PostgreSQL keeps the columns of a foreign key in one view and those that they refer to in another,
and nothing in the statement says which belongs to which.  So there is a row for each column of the
key with each column that it refers to.  The rows come in the order of the columns, but those of one
column in any order.  What is read as the columns that the key refers to is the order in which the
rows of its first column mention them.

## Main definitions

* `CrossedReference` — a foreign key and the pairs of columns in the order in which its rows list
  them.
* `CrossedReference.Sound` — the pairs are listed as the statement allows.
* `CrossedReference.firstTargets` — the columns referred to, as the rows of the first column list
  them.
* `readForeignKeys` — the part of reading a table that adds the foreign keys.

## Main results

* `eraseDups_of_sorted` — what a sorted list mentions, each once, is in order.
* `CrossedReference.Sound.paired_iff` — when the columns of a key are paired as they should be.
* `readTable_eq` — reading a table has reading its foreign keys as a part.
* `readForeignKeys_of_crossed` — the foreign keys that are read from such rows.
-/

namespace DbSchema.Source.StandardViews

open Probe

/-! ### Lists in order -/

section

variable {α : Type} [DecidableEq α] {l columns : List α}

/-- The positions in a list without repetition ascend. -/
theorem pairwise_idxOf_le (h : l.Nodup) : l.Pairwise fun a b => l.idxOf a ≤ l.idxOf b := by
  rw [List.pairwise_iff_getElem]
  intro i j hi hj hij
  rw [h.idxOf_getElem, h.idxOf_getElem]
  exact hij.le

/-- What a list mentions, each once, is the list in whose order it is sorted. -/
theorem eraseDups_of_sorted (hn : columns.Nodup) (hmem : ∀ a, a ∈ l ↔ a ∈ columns)
    (hs : l.Pairwise fun a b => columns.idxOf a ≤ columns.idxOf b) : l.eraseDups = columns := by
  have hperm : l.eraseDups.Perm columns :=
    (List.perm_ext_iff_of_nodup (nodup_eraseDups l) hn).mpr fun a => by
      rw [List.mem_eraseDups, hmem]
  refine hperm.eq_of_pairwise (fun a b _ hb hab hba => ?_) (hs.sublist (eraseDups_sublist l))
    (pairwise_idxOf_le hn)
  exact ((List.idxOf_inj hb).mp (le_antisymm hba hab)).symm

/-- A sorted list starts with the items at the first place. -/
theorem filter_append_filter_of_sorted {β : Type} {key : β → ℕ} {items : List β}
    (h : items.Pairwise fun a b => key a ≤ key b) :
    items.filter (fun a => key a = 0) ++ items.filter (fun a => key a ≠ 0) = items := by
  induction items with
  | nil => rfl
  | cons a r ih =>
    obtain ⟨ha, hr⟩ := List.pairwise_cons.mp h
    by_cases hzero : key a = 0
    · simpa [hzero] using ih hr
    -- nothing after an item at a later place is at the first one
    · have hlater : ∀ b ∈ r, key b ≠ 0 := fun b hb hb0 =>
        hzero (Nat.le_zero.mp (hb0 ▸ ha b hb))
      rw [List.filter_cons_of_neg (by simpa using hzero),
        List.filter_cons_of_pos (by simpa using hzero),
        List.filter_eq_nil_iff.mpr (fun b hb => by simpa using hlater b hb),
        List.filter_eq_self.mpr (fun b hb => by simpa using hlater b hb), List.nil_append]

end

/-! ### Foreign keys listed crosswise -/

/-- What is reported of a foreign key, and the pairs of columns in the order in which its rows list
them. -/
structure CrossedReference extends ReferenceReport where
  listing : List (String × String)
deriving DecidableEq

namespace CrossedReference

variable (x : CrossedReference)

/-- The columns of the key. -/
def columns : List String := x.pairs.map (·.1)

/-- The columns that they refer to. -/
def targets : List String := x.pairs.map (·.2)

/-- The columns that the key refers to, in the order in which the rows of its first column list
them. -/
def firstTargets : List String :=
  (x.listing.filter fun p => x.columns.idxOf p.1 = 0).map (·.2)

/-- The key has columns, which differ, as do those that they refer to, and each column is listed
with each of those that the key refers to, in the order of the columns. -/
structure Sound : Prop where
  some : x.pairs ≠ []
  columns : x.columns.Nodup
  targets : x.targets.Nodup
  all : x.listing.Perm (x.columns ×ˢ x.targets)
  sorted : x.listing.Pairwise fun p q => x.columns.idxOf p.1 ≤ x.columns.idxOf q.1

variable {x}

namespace Sound

/-- The rows of the first column list every column that the key refers to. -/
theorem firstTargets_perm (h : x.Sound) : x.firstTargets.Perm x.targets := by
  obtain ⟨c, r, hcolumns⟩ : ∃ c r, x.columns = c :: r := by
    rcases hx : x.columns with _ | ⟨c, r⟩
    · exact absurd (List.map_eq_nil_iff.mp hx) h.some
    · exact ⟨c, r, rfl⟩
  have hn := h.columns
  rw [hcolumns, List.nodup_cons] at hn
  have hfirst : ∀ p : String × String, x.columns.idxOf p.1 = 0 ↔ p.1 = c := by
    intro p
    rw [hcolumns]
    by_cases hp : c = p.1
    · simp [hp]
    · simp [List.idxOf_cons_ne _ hp, Ne.symm hp]
  -- the pairs of the first column are the first row of the product
  have hperm := (h.all.filter fun p => x.columns.idxOf p.1 = 0).map (·.2)
  rw [hcolumns, List.product_cons, List.filter_append, ← hcolumns] at hperm
  have hall : (x.targets.map fun t => (c, t)).filter (fun p => x.columns.idxOf p.1 = 0) =
      x.targets.map fun t => (c, t) := by
    refine List.filter_eq_self.mpr fun p hp => ?_
    obtain ⟨t, -, rfl⟩ := List.mem_map.mp hp
    simpa using (hfirst (c, t)).mpr rfl
  have hnone : (r ×ˢ x.targets).filter (fun p => x.columns.idxOf p.1 = 0) = [] := by
    refine List.filter_eq_nil_iff.mpr fun p hp hzero => hn.1 ?_
    rw [← (hfirst p).mp (by simpa using hzero)]
    exact (List.mem_product.mp hp).1
  rw [hall, hnone, List.append_nil, List.map_map] at hperm
  rw [firstTargets]
  simpa [Function.comp_def] using hperm

/-- The columns that are listed, each once, are those of the key in their order. -/
theorem eraseDups_columns (h : x.Sound) : (x.listing.map (·.1)).eraseDups = x.columns := by
  obtain ⟨p, hp⟩ := List.exists_mem_of_ne_nil x.pairs h.some
  have ht : p.2 ∈ x.targets := List.mem_map_of_mem hp
  refine eraseDups_of_sorted h.columns (fun c => ?_) (List.pairwise_map.mpr h.sorted)
  constructor
  · intro hc
    obtain ⟨q, hq, rfl⟩ := List.mem_map.mp hc
    exact (List.mem_product.mp (h.all.mem_iff.mp hq)).1
  · intro hc
    exact List.mem_map.mpr ⟨(c, p.2), h.all.mem_iff.mpr (List.mem_product.mpr ⟨hc, ht⟩), rfl⟩

/-- The columns referred to that are listed, each once, are in the order of the first column's
rows. -/
theorem eraseDups_targets (h : x.Sound) : (x.listing.map (·.2)).eraseDups = x.firstTargets := by
  have hsplit := congrArg (List.map (·.2)) (filter_append_filter_of_sorted h.sorted)
  rw [List.map_append] at hsplit
  rw [← hsplit]
  have hperm := h.firstTargets_perm
  refine (eraseDups_append_of_subset fun t ht => ?_).trans
    (eraseDups_eq_self (hperm.nodup_iff.mpr h.targets))
  obtain ⟨p, hp, rfl⟩ := List.mem_map.mp ht
  have hp' := h.all.mem_iff.mp (List.mem_of_mem_filter hp)
  exact hperm.mem_iff.mpr (List.mem_product.mp hp').2

/-- **What is read of the key** has its columns, and those that they refer to in the order of the
rows of the first column. -/
theorem readSpec_eq (h : x.Sound) : x.readSpec x.listing =
    { x.readSpec x.listing with
      fields := .ofTexts (normalizeNames x.columns)
      referenceFields := .ofTexts (normalizeNames x.firstTargets) } := by
  rw [ReferenceReport.readSpec, h.eraseDups_columns, h.eraseDups_targets]

/-- The key is read with its columns paired as they are exactly when the rows of its first column
list those that they refer to in their order. -/
theorem paired_iff (h : x.Sound) (hcolumns : Normalised x.columns)
    (htargets : Normalised x.targets) :
    (x.readSpec x.listing).fields = .ofTexts x.columns ∧
      (x.readSpec x.listing).referenceFields = .ofTexts x.firstTargets ∧
      ((x.readSpec x.listing).referenceFields = .ofTexts x.targets ↔
        x.firstTargets = x.targets) := by
  have hfirst : Normalised x.firstTargets := fun n hn =>
    htargets n (h.firstTargets_perm.mem_iff.mp hn)
  rw [h.readSpec_eq, normalizeNames_eq_self hcolumns, normalizeNames_eq_self hfirst]
  exact ⟨rfl, rfl, Value.ofTexts_injective.eq_iff⟩

end Sound

end CrossedReference

/-! ### Reading -/

/-- The part of reading a table that adds its foreign keys. -/
def readForeignKeys (dialect : Dialect) (c : Connection) (given : Value) (t : TableId) :
    Probe PUnit := do
  let references ←
    pureStep (groupRows (← rowsAbout dialect c given (foreignKeysStatement dialect) t)
      "constraint_name")
  references.forM fun g => addForeignKey t g.1 g.2

theorem readTable_eq (dialect : Dialect) (c : Connection) (given name : Value) :
    readTable dialect c given name = do
      let t ← edit (Edit.newTable { name })
      (← rowsAbout dialect c given columnsStatement t).forM (addColumn t)
      let keys ← pureStep (groupRows (← rowsAbout dialect c given keysStatement t)
        "constraint_name")
      keys.forM fun g => addKey t g.1 g.2
      readForeignKeys dialect c given t
      if dialect = .postgres then
        (← rowsAbout dialect c given checksStatement t).forM (addCheck t)
      let indices ← pureStep (groupRows (← rowsAbout dialect c given (indicesStatement dialect) t)
        "index_name")
      (indices.filter fun g => !keys.any fun k => k.1.same g.1).forM
        fun g => addIndex dialect t g.1 g.2
      if dialect = .mysql then addOptions c given t
      return t := by
  simp only [readTable, readForeignKeys, bind_assoc]

variable {c : Connection} {given schema : Value} {b : Store} {t : TableId} {o : TableOutline}
  {rows : List Row} {keys : List CrossedReference}

/-- The rows list the foreign keys, one after the other. -/
def ShowsCrossed (rows : List Row) (keys : List CrossedReference) : Prop :=
  List.Forall₂ (fun row e => ShowsReference row (e.1.toReferenceReport, e.2)) rows
    (listed keys (·.listing))

theorem CrossedReference.Sound.listing_ne_nil {x : CrossedReference} (h : x.Sound) :
    x.listing ≠ [] := by
  intro hnil
  have hcolumns := h.eraseDups_columns
  rw [hnil, List.map_nil, List.eraseDups_nil] at hcolumns
  exact h.some (List.map_eq_nil_iff.mp hcolumns.symm)

/-- Reading foreign keys adds what is read of each, in order. -/
theorem draws_readForeignKeys {dialect : Dialect} (hs : ReadsFrom dialect c given schema)
    (hanswer : Answers c (foreignKeysStatement dialect) (some [schema, o.name]) rows)
    (hrows : ShowsCrossed rows keys) (hnames : (keys.map (·.name)).Nodup)
    (hkeys : ∀ x ∈ keys, x.listing ≠ []) :
    Draws (Recalls schema) (Drafts b t o) (readForeignKeys dialect c given t) fun _ =>
      Drafts b t { o with
        constraints := o.constraints ++ keys.map fun x => x.readSpec x.listing } := by
  obtain ⟨groups, hgroup, hgroups⟩ : ∃ groups, groupRows rows "constraint_name" = .ok groups ∧
      List.Forall₂ (GroupOf (fun row e => ShowsReference row (e.1.toReferenceReport, e.2))
        (fun x : CrossedReference => x.name) (·.listing)) groups keys :=
    groupRows_of_listed "constraint_name" (fun row e h => h.1.item (by simp)) hnames hkeys hrows
  refine (yields_rowsAbout hs hanswer rfl).bind ((yields_pureStep hgroup).bind ?_)
  refine draws_addConstraints hgroups fun g x hx o hg => ?_
  rw [hg.1]
  exact draws_addForeignKey (hkeys x hx) hg.2

/-- The same of one session. -/
theorem exists_readForeignKeys (hs : ReadsFrom .postgres c given schema)
    (hanswer : Answers c (foreignKeysStatement .postgres) (some [schema, o.name]) rows)
    (hrows : ShowsCrossed rows keys) (hnames : (keys.map (·.name)).Nodup)
    (hkeys : ∀ x ∈ keys, x.Sound) {σ : Session} (hσ : Recalls schema σ.schemaName)
    (hdraft : Drafts b t o σ.store) :
    ∃ σ', outcome (readForeignKeys .postgres c given t) σ = (.ok ⟨⟩, σ') ∧
      Drafts b t { o with
        constraints := o.constraints ++ keys.map fun x => x.readSpec x.listing } σ'.store := by
  obtain ⟨⟨⟩, σ', ho, hdraft', -⟩ :=
    Ensures.exists_ok (draws_readForeignKeys hs hanswer hrows hnames
      fun x hx => (hkeys x hx).listing_ne_nil) ⟨hdraft, hσ⟩
  exact ⟨σ', ho, hdraft'⟩

/-- **Foreign keys that are listed crosswise** are read with their columns in order, and refer to
columns in the order in which the rows of their first column list them.  These are the columns that
the key refers to, but a key is read with its columns paired as they are only when those rows are in
their order. -/
theorem readForeignKeys_of_crossed (hs : ReadsFrom .postgres c given schema)
    (hanswer : Answers c (foreignKeysStatement .postgres) (some [schema, o.name]) rows)
    (hrows : ShowsCrossed rows keys) (hnames : (keys.map (·.name)).Nodup)
    (hkeys : ∀ x ∈ keys, x.Sound) (σ : Session) (hσ : Recalls schema σ.schemaName)
    (hdraft : Drafts b t o σ.store) :
    ∃ σ', outcome (readForeignKeys .postgres c given t) σ = (.ok ⟨⟩, σ') ∧
      Drafts b t { o with
        constraints := o.constraints ++ keys.map fun x => x.readSpec x.listing } σ'.store ∧
      ∀ x ∈ keys, x.firstTargets.Perm x.targets ∧
        (Normalised x.columns → Normalised x.targets →
          (x.readSpec x.listing).fields = .ofTexts x.columns ∧
            (x.readSpec x.listing).referenceFields = .ofTexts x.firstTargets ∧
            ((x.readSpec x.listing).referenceFields = .ofTexts x.targets ↔
              x.firstTargets = x.targets)) := by
  obtain ⟨σ', ho, hdraft'⟩ := exists_readForeignKeys hs hanswer hrows hnames hkeys hσ hdraft
  refine ⟨σ', ho, hdraft', fun x hx => ⟨(hkeys x hx).firstTargets_perm, ?_⟩⟩
  exact (hkeys x hx).paired_iff

/-- What a database whose current schema has these foreign keys answers to the statements about
them. -/
def crossedAnswers (schema : String) (keys : List CrossedReference) : List (String × List Row) :=
  [(foreignKeysStatement .postgres, (listed keys (·.listing)).map fun e =>
      referenceRow (e.1.toReferenceReport, e.2)),
    (currentStatement .postgres, [.ofCells [("name", .text schema)]])]

theorem nodup_crossedAnswers (schema : String) (keys : List CrossedReference) :
    ((crossedAnswers schema keys).map (·.1)).Nodup :=
  show [foreignKeysStatement .postgres, currentStatement .postgres].Nodup by decide

theorem answers_crossedAnswers (schema : String) (keys : List CrossedReference)
    (params : Option (List Value)) :
    Answers (answering (crossedAnswers schema keys)) (foreignKeysStatement .postgres) params
      ((listed keys (·.listing)).map fun e => referenceRow (e.1.toReferenceReport, e.2)) :=
  answers_answering (nodup_crossedAnswers schema keys) (.head _) params

theorem readsFrom_crossedAnswers (schema : String) (keys : List CrossedReference) :
    ReadsFrom .postgres (answering (crossedAnswers schema keys)) .null (.text schema) := by
  have hanswer := answers_answering (nodup_crossedAnswers schema keys) (.tail _ (.head _)) none
  rw [ReadsFrom, if_pos (by simp [Value.same])]
  exact ⟨_, hanswer, .text schema, rfl, orEmpty_text schema⟩

theorem showsCrossed_referenceRow (keys : List CrossedReference) :
    ShowsCrossed ((listed keys (·.listing)).map fun e =>
      referenceRow (e.1.toReferenceReport, e.2)) keys :=
  forall₂_map_row (fun e => shows_referenceRow (e.1.toReferenceReport, e.2)) _

/-- A foreign key with two columns, and with the rows of the first one the other way round. -/
def ofCopy : CrossedReference where
  name := "of_copy"
  table := "copies"
  pairs := [("book", "isbn"), ("copy", "number")]
  onUpdate := ""
  onDelete := "CASCADE"
  listing := [("book", "number"), ("book", "isbn"), ("copy", "isbn"), ("copy", "number")]

theorem sound_ofCopy : ofCopy.Sound where
  some := by decide
  columns := by decide
  targets := by decide
  all := by decide
  sorted := by decide

theorem normalised_ofCopy : Normalised ofCopy.columns ∧ Normalised ofCopy.targets := by
  simp only [ofCopy, CrossedReference.columns, CrossedReference.targets, Normalised, Trimmed,
    List.map_cons, List.map_nil]
  decide

/-- The foreign key is read as one that refers to the columns in the wrong order. -/
theorem readForeignKeys_of_crossed_ofCopy : ∃ t st σ',
    Drafts .empty t { name := .text "loans" } st ∧
      outcome (readForeignKeys .postgres (answering (crossedAnswers "library" [ofCopy])) .null t)
        { store := st } = (.ok ⟨⟩, σ') ∧
      Drafts .empty t { name := .text "loans", constraints := [ofCopy.readSpec ofCopy.listing] }
        σ'.store ∧
      (ofCopy.readSpec ofCopy.listing).referenceFields = .ofTexts ["number", "isbn"] := by
  obtain ⟨t, st, -, hdraft⟩ := drafts_newTable_text (.refl .empty) "loans"
  obtain ⟨σ', ho, hdraft', hkeys⟩ := readForeignKeys_of_crossed
    (readsFrom_crossedAnswers "library" [ofCopy]) (answers_crossedAnswers _ _ _)
    (showsCrossed_referenceRow [ofCopy]) (List.nodup_singleton _)
    (List.forall_mem_singleton.mpr sound_ofCopy) { store := st } (.inl rfl) hdraft
  obtain ⟨-, hread⟩ := hkeys ofCopy (List.mem_singleton_self _)
  obtain ⟨-, htargets, -⟩ := hread normalised_ofCopy.1 normalised_ofCopy.2
  exact ⟨t, st, σ', hdraft, ho, hdraft', htargets⟩

/-- It is not so that foreign keys are read with their columns paired as they are, in whatever order
the rows of one column come. -/
theorem not_paired_ofCopy :
    ¬ ∀ (c : Connection) (given schema : Value) (b : Store) (t : TableId) (o : TableOutline)
      (rows : List Row) (x : CrossedReference) (σ σ' : Session), x.Sound →
      Normalised x.columns → Normalised x.targets → ReadsFrom .postgres c given schema →
      Answers c (foreignKeysStatement .postgres) (some [schema, o.name]) rows →
      ShowsCrossed rows [x] → Recalls schema σ.schemaName → Drafts b t o σ.store →
      outcome (readForeignKeys .postgres c given t) σ = (.ok ⟨⟩, σ') →
      ∃ spec, σ'.store.outline t = { o with constraints := o.constraints ++ [spec] } ∧
        spec.fields = .ofTexts x.columns ∧ spec.referenceFields = .ofTexts x.targets := by
  intro h
  obtain ⟨t, st, -, hdraft⟩ := drafts_newTable_text (.refl .empty) "loans"
  have hs := readsFrom_crossedAnswers "library" [ofCopy]
  have hanswer := answers_crossedAnswers "library" [ofCopy] (some [.text "library", .text "loans"])
  have hrows := showsCrossed_referenceRow [ofCopy]
  obtain ⟨σ', ho, hdraft'⟩ := exists_readForeignKeys (o := { name := .text "loans" }) hs hanswer
    hrows (List.nodup_singleton _) (List.forall_mem_singleton.mpr sound_ofCopy)
    (σ := { store := st }) (.inl rfl) hdraft
  obtain ⟨spec, houtline, -, htargets⟩ := h _ .null _ _ t { name := .text "loans" } _ ofCopy
    { store := st } σ' sound_ofCopy normalised_ofCopy.1 normalised_ofCopy.2 hs hanswer hrows
    (.inl rfl) hdraft ho
  rw [hdraft'.outline] at houtline
  have hspec : [ofCopy.readSpec ofCopy.listing] = [spec] :=
    congrArg TableOutline.constraints houtline
  rw [← List.singleton_inj.mp hspec] at htargets
  obtain ⟨-, -, hpaired⟩ := sound_ofCopy.paired_iff normalised_ofCopy.1 normalised_ofCopy.2
  have hswapped : ofCopy.firstTargets ≠ ofCopy.targets := by decide
  exact hswapped (hpaired.mp htargets)

end DbSchema.Source.StandardViews
