import DbSchema.Proofs.Model.Drafting
import DbSchema.Proofs.Source.Listing
import DbSchema.Proofs.Source.Steps

/-!
# Steps of reading that succeed

A database that answers every statement with the rows it should, and an operation on the store that
cannot be refused, make up steps that succeed.  What a table is at the end is then told by what each
of the steps adds to its outline.

## Main definitions

* `Answers c sql params rows` — the database gives these rows for the statement.
* `Draws I P step Q` — started where `P` holds of the store, the step succeeds, and `Q` holds of its
  result and of the store; what is remembered of the schema keeps `I`.
* `Yields I P step v` — the step succeeds with `v`, and `P` holds of the store as before.
* `Fails I P step E` — the step is refused with something that `E` holds of.

## Main results

* `Draws.bind`, `Yields.bind`, `Draws.forM`, `Fails.after`, `Fails.forM` — steps made of steps.
* `yields_fetchAll`, `yields_pureStep`, `yields_plain`, `draws_edit` — the building blocks.
-/

namespace DbSchema.Source

open Probe

variable {α β γ δ : Type} {c : Connection}

/-! ### Answers -/

/-- The database gives these rows for the statement, whatever it was asked before. -/
def Answers (c : Connection) (sql : String) (params : Option (List Value)) (rows : List Row) :
    Prop :=
  ∀ σ, (outcome (fetchAll c sql params) σ).1 = .ok rows

/-- A database without cursors gives the rows that it answers a query with. -/
theorem answers_of_respond {sql : String} {params : Option (List Value)} {rows : List Row}
    (hc : c.usesCursors = false) (h : ∀ past, c.respond past (.query sql params) = .rows rows) :
    Answers c sql params rows := by
  intro σ
  rw [fetchAll, hc, if_neg (by simp), outcome_bind, outcome_request, h]
  rfl

/-- The rows that some answers have for a statement, none if it is not among them. -/
def rowsFor (answers : List (String × List Row)) (sql : String) : List Row :=
  ((answers.find? fun e => e.1 = sql).map (·.2)).getD []

/-- A database that gives the rows that some answers have for a statement. -/
def answering (answers : List (String × List Row)) : Connection :=
  { usesCursors := false
    driver := ""
    respond := fun _ r =>
      match r with
      | .query sql _ => .rows (rowsFor answers sql)
      | _ => .done }

theorem answers_answering {answers : List (String × List Row)}
    (hn : (answers.map (·.1)).Nodup) {sql : String} {rows : List Row} (h : (sql, rows) ∈ answers)
    (params : Option (List Value)) : Answers (answering answers) sql params rows := by
  have hrows : rowsFor answers sql = rows := by
    rw [rowsFor, find?_fst_of_mem hn h]
    rfl
  exact answers_of_respond rfl fun _ => hrows ▸ rfl

/-! ### Steps that succeed -/

/-- Started where `P` holds of the store, the step succeeds, and `Q` holds of its result and of the
store; what is remembered of the schema keeps `I`. -/
def Draws (I : Option Value → Prop) (P : Store → Prop) (step : Probe α)
    (Q : α → Store → Prop) : Prop :=
  Ensures (fun σ => P σ.store ∧ I σ.schemaName) step
    (fun a σ => Q a σ.store ∧ I σ.schemaName) fun _ => False

/-- The step succeeds with the given result, and `P` holds of the store as before. -/
def Yields (I : Option Value → Prop) (P : Store → Prop) (step : Probe α) (v : α) : Prop :=
  Draws I P step fun a st => a = v ∧ P st

section

variable {I : Option Value → Prop} {P : Store → Prop} {step : Probe α} {f : α → Probe β}
  {Q : α → Store → Prop} {R : β → Store → Prop} {v : α}

namespace Draws

theorem pure {a : α} (h : ∀ st, P st → Q a st) : Draws I P (Pure.pure a) Q :=
  Ensures.pure fun _ hσ => ⟨h _ hσ.1, hσ.2⟩

theorem bind (h : Draws I P step Q) (hf : ∀ a, Draws I (Q a) (f a) R) :
    Draws I P (step >>= f) R :=
  Ensures.bind h hf

theorem weaken {P' : Store → Prop} {Q' : α → Store → Prop} (h : Draws I P step Q)
    (hP : ∀ st, P' st → P st) (hQ : ∀ a st, Q a st → Q' a st) : Draws I P' step Q' :=
  Ensures.weaken h (fun _ hσ => ⟨hP _ hσ.1, hσ.2⟩) (fun _ _ hσ => ⟨hQ _ _ hσ.1, hσ.2⟩)
    fun _ h => h

/-- A step may look at the state first. -/
theorem get_bind {f : Session → Probe β}
    (h : ∀ σ, P σ.store → I σ.schemaName → Draws I P (f σ) R) : Draws I P (get >>= f) R :=
  Ensures.get_bind fun σ hσ => h σ hσ.1 hσ.2

/-- The store at the start may be named. -/
theorem of_start (h : ∀ s, P s → Draws I (fun st => st = s) step Q) : Draws I P step Q :=
  fun σ hσ => h σ.store hσ.1 σ ⟨rfl, hσ.2⟩

/-- The part of a condition on the start that is not about the store is a fact. -/
theorem of_and {p : Prop} (h : p → Draws I P step Q) : Draws I (fun st => p ∧ P st) step Q := by
  rintro σ ⟨⟨hp, hP⟩, hI⟩
  exact h hp σ ⟨hP, hI⟩

theorem discard {Q : PUnit → Store → Prop} (h : Draws I P step fun _ => Q ⟨⟩) :
    Draws I P (Functor.discard step) Q :=
  Ensures.discard h

/-- A step for every member of a list that lists things: each goes on from what was done for the
things before. -/
theorem forM {S : γ → δ → Prop} {g : γ → Probe PUnit} {rows : List γ} {items : List δ}
    (h : List.Forall₂ S rows items) {P : List δ → Store → Prop}
    (hg : ∀ done row item rest, items = done ++ item :: rest → S row item →
      Draws I (P done) (g row) fun _ => P (done ++ [item])) :
    Draws I (P []) (rows.forM g) fun _ => P items := by
  have hall : ∀ {rows rest}, List.Forall₂ S rows rest → ∀ done, items = done ++ rest →
      Draws I (P done) (rows.forM g) fun _ => P items := by
    intro rows rest hrest
    induction hrest with
    | nil =>
      intro done hdone
      rw [List.append_nil] at hdone
      exact pure fun _ hP => hdone ▸ hP
    | @cons row item rows rest hrow _ ih =>
      intro done hdone
      refine bind (hg done row item rest hdone hrow) fun _ => ih _ ?_
      rwa [List.append_assoc]
  exact hall h [] rfl

end Draws

namespace Yields

theorem bind (h : Yields I P step v) (hf : Draws I P (f v) R) : Draws I P (step >>= f) R := by
  refine Draws.bind h fun a => .of_and ?_
  rintro rfl
  exact hf

theorem pure : Yields I P (Pure.pure v) v := Draws.pure fun _ h => ⟨rfl, h⟩

/-- A step for every member of a list that lists things gives what each of the things has. -/
theorem mapM {S : γ → δ → Prop} {g : γ → Probe β} {value : δ → β} {rows : List γ} {items : List δ}
    (h : List.Forall₂ S rows items) (hg : ∀ row i, S row i → Yields I P (g row) (value i)) :
    Yields I P (rows.mapM g) (items.map value) := by
  induction h with
  | nil => exact pure
  | cons hrow _ ih =>
    rw [List.mapM_cons]
    exact (hg _ _ hrow).bind (ih.bind pure)

end Yields

/-! ### Steps that fail -/

/-- Started where `P` holds of the store, the step is refused with something that `E` holds of. -/
def Fails (I : Option Value → Prop) (P : Store → Prop) (step : Probe α) (E : SourceError → Prop) :
    Prop :=
  ∀ σ, P σ.store → I σ.schemaName → ∃ e σ', outcome step σ = (.error e, σ') ∧ E e

namespace Fails

variable {E : SourceError → Prop}

theorem pureStep {r : Except Fault α} {fault : Fault} (h : r = .error fault)
    (hE : E (.model (.fault fault))) : Fails I P (pureStep r) E := by
  intro σ _ _
  rw [h]
  exact ⟨_, σ, rfl, hE⟩

theorem bind (h : Fails I P step E) : Fails I P (step >>= f) E := by
  intro σ hP hI
  obtain ⟨e, σ', ho, hE⟩ := h σ hP hI
  exact ⟨e, σ', outcome_bind_of_error ho f, hE⟩

/-- A step that succeeds before one that fails. -/
theorem after (h : Draws I P step Q) (hf : ∀ a, Fails I (Q a) (f a) E) :
    Fails I P (step >>= f) E := by
  intro σ hP hI
  obtain ⟨a, σ₁, ho, hQ, hI₁⟩ := Ensures.exists_ok h ⟨hP, hI⟩
  rw [outcome_bind_of_ok ho]
  exact hf a σ₁ hQ hI₁

theorem after_yields (h : Yields I P step v) (hf : Fails I P (f v) E) :
    Fails I P (step >>= f) E := by
  refine after h fun a σ ⟨ha, hP⟩ hI => ?_
  rw [ha]
  exact hf σ hP hI

/-- A step may look at the state first. -/
theorem get_bind {f : Session → Probe β}
    (h : ∀ σ, P σ.store → I σ.schemaName → Fails I P (f σ) E) : Fails I P (get >>= f) E := by
  intro σ hP hI
  rw [outcome_get_bind]
  exact h σ hP hI σ hP hI

/-- The store at the start may be named. -/
theorem of_start (h : ∀ s, P s → Fails I (fun st => st = s) step E) : Fails I P step E :=
  fun σ hP => h σ.store hP σ rfl

/-- An operation on the store that is refused, whatever was to be done with its result. -/
theorem edit_discard {e : Edit α}
    (h : ∀ st, P st → ∃ x st', outcome e st = (.error x, st') ∧ E (.model x)) :
    Fails I P (discard (edit e)) E := by
  intro σ hP _
  obtain ⟨x, st', ho, hE⟩ := h σ.store hP
  refine ⟨.model x, { σ with store := st', trace := σ.trace ++ [.edited st'] }, ?_, hE⟩
  rw [outcome_discard, outcome_edit, ho]
  rfl

/-- A step for every member of a list that lists things fails if it does at one of them, and
succeeds at all others. -/
theorem forM {S : γ → δ → Prop} {g : γ → Probe PUnit} {rows : List γ} {items : List δ}
    {G : δ → Prop} (h : List.Forall₂ S rows items) {P : List δ → Store → Prop}
    (hgood : ∀ done row, ∀ item ∈ items, G item → S row item →
      Draws I (P done) (g row) fun _ => P (done ++ [item]))
    (hbad : ∀ done row, ∀ item ∈ items, ¬ G item → S row item → Fails I (P done) (g row) E)
    (hex : ∃ item ∈ items, ¬ G item) : Fails I (P []) (rows.forM g) E := by
  generalize ([] : List δ) = done
  induction h generalizing done with
  | nil => simp at hex
  | @cons row item rows items hrow _ ih =>
    by_cases hitem : G item
    · have hrest : ∃ x ∈ items, ¬ G x := by
        obtain ⟨x, hx, hxbad⟩ := hex
        exact ⟨x, (List.mem_cons.mp hx).resolve_left fun heq => hxbad (heq ▸ hitem), hxbad⟩
      refine after (hgood done row item List.mem_cons_self hitem hrow) fun _ => ?_
      exact ih (fun done row x hx => hgood done row x (List.mem_cons_of_mem item hx))
        (fun done row x hx => hbad done row x (List.mem_cons_of_mem item hx)) hrest _
    · exact bind (hbad done row item List.mem_cons_self hitem hrow)

end Fails

/-! ### Texts and values -/

/-- A text as a value, null if there is none. -/
def textOrNull (s : Option String) : Value := s.elim .null .text

theorem textOrEmpty_text (operation s : String) : textOrEmpty operation (.text s) = .ok s := by
  by_cases hs : s = "" <;> simp [textOrEmpty, needText, Value.truthy, hs]

theorem textOrEmpty_textOrNull (operation : String) (s : Option String) :
    textOrEmpty operation (textOrNull s) = .ok (s.getD "") := by
  cases s with
  | none => rfl
  | some s => exact textOrEmpty_text operation s

theorem orEmpty_text (s : String) : orEmpty (some (.text s)) = .text s := by
  by_cases hs : s = "" <;> simp [orEmpty, Value.truthy, hs]

/-! ### Building blocks -/

/-- An operation on the store that cannot be refused. -/
theorem draws_edit {e : Edit α} (h : Ensures P e Q fun _ => False) : Draws I P (edit e) Q := by
  rintro σ ⟨hP, hI⟩
  have he := h σ.store hP
  rw [outcome_edit]
  rcases ho : outcome e σ.store with ⟨x | a, st⟩ <;> rw [ho] at he
  · exact he
  · exact ⟨he, hI⟩

/-- The same when what the operation gives is not needed. -/
theorem draws_edit_discard {e : Edit α} {P' : Store → Prop}
    (h : Ensures P e (fun _ => P') fun _ => False) :
    Draws I P (discard (edit e)) fun _ => P' :=
  Draws.discard (draws_edit h)

/-- A new table that is named by a text has nothing but its name. -/
theorem draws_newTable (b : Store) (name : String) :
    Draws I (fun st => st = b) (edit (Edit.newTable { name := .text name }))
      fun t => Drafts b t { name := .text name } := by
  refine draws_edit fun st hst => ?_
  subst hst
  obtain ⟨t, st', ho, hdraft⟩ := drafts_newTable_text (Store.Extends.refl _) name
  rw [ho]
  exact hdraft

/-- A question to the store that has an answer. -/
theorem draws_ask {question : Store → Except ModelError α}
    (h : ∀ st, P st → ∃ a, question st = .ok a ∧ Q a st) : Draws I P (ask question) Q := by
  refine draws_edit fun st hP => ?_
  obtain ⟨a, ha, hQ⟩ := h st hP
  rw [Edit.outcome_ask, ha]
  exact hQ

/-- A step for every row that adds the field of a column, when the names of the columns are new. -/
theorem draws_addFields {ξ : Type} {S : Row → ξ → Prop} {add : Row → Probe PUnit}
    {name : ξ → String} {spec : ξ → FieldSpec} {b : Store} {t : TableId} {o : TableOutline}
    {rows : List Row} {columns : List ξ} (hspec : ∀ x, (spec x).name = .text (name x))
    (hn : (columns.map name).Nodup) (hrows : List.Forall₂ S rows columns)
    (hadd : ∀ row, ∀ x ∈ columns, ∀ o : TableOutline, S row x →
      (∀ y ∈ o.fields, y.name ≠ .text (name x)) →
      Draws I (Drafts b t o) (add row)
        fun _ => Drafts b t { o with fields := o.fields ++ [spec x] }) :
    Draws I (Drafts b t { o with fields := [] }) (rows.forM add)
      fun _ => Drafts b t { o with fields := columns.map spec } := by
  refine Draws.forM hrows (P := fun done => Drafts b t { o with fields := done.map spec })
    fun done row x rest hsplit hrow => ?_
  have hx : x ∈ columns := hsplit ▸ List.mem_append_right done List.mem_cons_self
  have hnew : ∀ y ∈ done.map spec, y.name ≠ .text (name x) := by
    intro y hy heq
    obtain ⟨z, hz, rfl⟩ := List.mem_map.mp hy
    rw [hspec, Value.text.injEq] at heq
    rw [hsplit, List.map_append, List.nodup_append] at hn
    exact hn.2.2 (name z) (List.mem_map_of_mem hz) (name x) (by simp) heq
  refine (hadd row x hx { o with fields := done.map spec } hrow hnew).weaken (fun _ h => h)
    fun _ _ h => ?_
  simpa using h

/-- A step for everything that is listed which adds a constraint. -/
theorem draws_addConstraints {ξ : Type} {S : γ → ξ → Prop} {g : γ → Probe PUnit}
    {spec : ξ → ConstraintSpec} {b : Store} {t : TableId} {o : TableOutline} {rows : List γ}
    {items : List ξ} (hrows : List.Forall₂ S rows items)
    (hadd : ∀ row, ∀ x ∈ items, ∀ o : TableOutline, S row x → Draws I (Drafts b t o) (g row)
      fun _ => Drafts b t { o with constraints := o.constraints ++ [spec x] }) :
    Draws I (Drafts b t o) (rows.forM g)
      fun _ => Drafts b t { o with constraints := o.constraints ++ items.map spec } := by
  have hloop := Draws.forM (I := I) (g := g) hrows
    (P := fun done => Drafts b t { o with constraints := o.constraints ++ done.map spec })
    fun done row x rest hsplit hrow => ?_
  · simpa using hloop
  · have hx : x ∈ items := hsplit ▸ List.mem_append_right done List.mem_cons_self
    refine (hadd row x hx _ hrow).weaken (fun _ h => h) fun _ _ h => ?_
    simpa [List.append_assoc] using h

/-- Naming key columns of a table without a key, and then changing the key, adds the changed one. -/
theorem draws_changedKey {b : Store} {t : TableId} {o : TableOutline} {names : List String}
    {f : Constraint → Constraint} {g : ConstraintSpec → ConstraintSpec} (hn : Normalised names)
    (hne : names ≠ []) (hfields : ∀ n ∈ names, ∃ x ∈ o.fields, x.name = .text n)
    (hnone : ∀ x ∈ o.constraints, x.kind ≠ .constraintKind .primaryKey)
    (howner : ∀ x, (f x).owner = x.owner)
    (hspec : ∀ x, (f x).toConstraintSpec = g x.toConstraintSpec) :
    Draws I (Drafts b t o)
      (do
        let c ← edit (Edit.primaryKey t [.ofTexts names])
        edit (Edit.onConstraint c f)) fun _ =>
      Drafts b t { o with constraints := o.constraints ++ [g (Edit.keySpec names)] } :=
  (draws_edit (Drafts.primaryKey hn hne hfields hnone)).bind fun _ =>
    draws_edit (Drafts.onLast _ howner hspec)

theorem yields_fetchAll {sql : String} {params : Option (List Value)} {rows : List Row}
    (h : Answers c sql params rows) : Yields I P (fetchAll c sql params) rows := by
  rintro σ ⟨hP, hI⟩
  have hrows := h σ
  have hkept := Ensures.iff_outcome.mp
    (ensures_fetchAll (P := fun σ => P σ.store ∧ I σ.schemaName) (fun _ h => h) c sql params)
    σ ⟨hP, hI⟩
  rcases ho : outcome (fetchAll c sql params) σ with ⟨e | rows', σ'⟩ <;> rw [ho] at hrows hkept
  · cases hrows
  · cases hrows
    exact ⟨⟨rfl, hkept.1⟩, hkept.2⟩

theorem yields_pureStep {r : Except Fault α} (h : r = .ok v) : Yields I P (pureStep r) v := by
  rw [h]
  exact .pure

theorem yields_plain {s : String} : Yields I P (plain (.text s)) s :=
  Draws.get_bind fun _ _ _ => .pure fun _ hP => ⟨rfl, hP⟩

theorem yields_tell (level : Level) (line : String) : Yields I P (tell level line) ⟨⟩ :=
  fun _ hσ => ⟨⟨rfl, hσ.1⟩, hσ.2⟩

end

end DbSchema.Source
