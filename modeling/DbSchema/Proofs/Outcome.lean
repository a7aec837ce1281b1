import DbSchema.Model.Basic

/-!
# What a step gives and leaves

Operations on a store, the reading of documents into one and the reading of databases are steps of
one shape: they start in a state, and they give a result or a reason why there is none, and leave a
state in both cases.  This module says what the building blocks of steps give and leave, so that
no other proof has to open them.

## Main definitions

* `outcome e s` — what the step `e` gives and leaves when it starts in `s`.
* `Concludes P e Q E` — started where `P` holds, `e` leaves a state with `Q` of its result when it
  succeeds and one with `E` of the reason when it is refused.
* `Ensures P e Q E` — the same, where the reason is of no matter.
* `RefusesWith R e` — wherever it is started, `e` is refused for reasons in `R` only.

## Main results

* `outcome_bind`, `outcome_bind_of_ok`, `outcome_bind_of_error` — steps one after the other.
* `Concludes.bind`, `Ensures.bind` — the same for conditions.
* `Edit.outcome_ask`, `Edit.outcome_onTable` and their like — the steps on a store.
-/

namespace DbSchema

variable {ε δ σ α β : Type}

/-- What a step gives and the state that it leaves. -/
def outcome (e : ExceptT ε (StateM σ) α) (s : σ) : Except ε α × σ := e.run.run s

/-! ### Building blocks -/

@[simp] theorem outcome_pure (a : α) (s : σ) :
    outcome (pure a : ExceptT ε (StateM σ) α) s = (.ok a, s) := rfl

@[simp] theorem outcome_throw (x : ε) (s : σ) :
    outcome (throw x : ExceptT ε (StateM σ) α) s = (.error x, s) := rfl

@[simp] theorem outcome_get (s : σ) :
    outcome (get : ExceptT ε (StateM σ) σ) s = (.ok s, s) := rfl

@[simp] theorem outcome_set (s s' : σ) :
    outcome (set s' : ExceptT ε (StateM σ) PUnit) s = (.ok ⟨⟩, s') := rfl

@[simp] theorem outcome_modify (f : σ → σ) (s : σ) :
    outcome (modify f : ExceptT ε (StateM σ) PUnit) s = (.ok ⟨⟩, f s) := rfl

/-- The second step starts where the first one ends, unless that is refused. -/
theorem outcome_bind (e : ExceptT ε (StateM σ) α) (f : α → ExceptT ε (StateM σ) β) (s : σ) :
    outcome (e >>= f) s =
      match outcome e s with
      | (.ok a, s') => outcome (f a) s'
      | (.error x, s') => (.error x, s') := by
  change (ExceptT.run (e >>= f)).run s = _
  rw [ExceptT.run_bind]
  simp only [StateT.run_bind]
  unfold outcome
  rcases e.run.run s with ⟨r | a, s'⟩ <;> rfl

theorem outcome_bind_of_ok {e : ExceptT ε (StateM σ) α} {s s' : σ} {a : α}
    (h : outcome e s = (.ok a, s')) (f : α → ExceptT ε (StateM σ) β) :
    outcome (e >>= f) s = outcome (f a) s' := by
  rw [outcome_bind, h]

theorem outcome_bind_of_error {e : ExceptT ε (StateM σ) α} {s s' : σ} {x : ε}
    (h : outcome e s = (.error x, s')) (f : α → ExceptT ε (StateM σ) β) :
    outcome (e >>= f) s = (.error x, s') := by
  rw [outcome_bind, h]

@[simp] theorem outcome_throw_bind (x : ε) (f : α → ExceptT ε (StateM σ) β) (s : σ) :
    outcome (throw x >>= f) s = (.error x, s) := by
  rw [outcome_bind, outcome_throw]

@[simp] theorem outcome_pure_bind (a : α) (f : α → ExceptT ε (StateM σ) β) (s : σ) :
    outcome (pure a >>= f) s = outcome (f a) s := by
  rw [outcome_bind, outcome_pure]

@[simp] theorem outcome_get_bind (f : σ → ExceptT ε (StateM σ) β) (s : σ) :
    outcome (get >>= f) s = outcome (f s) s := by
  rw [outcome_bind, outcome_get]

@[simp] theorem outcome_map (g : α → β) (e : ExceptT ε (StateM σ) α) (s : σ) :
    outcome (g <$> e) s = ((outcome e s).1.map g, (outcome e s).2) := by
  rw [← bind_pure_comp, outcome_bind]
  rcases outcome e s with ⟨x | a, s'⟩ <;> rfl

@[simp] theorem outcome_discard (e : ExceptT ε (StateM σ) α) (s : σ) :
    outcome (discard e) s = ((outcome e s).1.map fun _ => ⟨⟩, (outcome e s).2) := by
  change outcome (Functor.mapConst PUnit.unit e) s = _
  rw [map_const]
  exact outcome_map _ e s

@[simp] theorem outcome_adapt (g : ε → δ) (e : ExceptT ε (StateM σ) α) (s : σ) :
    outcome (ExceptT.adapt g e) s = ((outcome e s).1.mapError g, (outcome e s).2) := by
  change (Except.mapError g <$> e.run).run s = _
  rw [StateT.run_map]
  rfl

theorem outcome_ite (c : Prop) [Decidable c] (e e' : ExceptT ε (StateM σ) α) (s : σ) :
    outcome (if c then e else e') s = if c then outcome e s else outcome e' s :=
  apply_ite (outcome · s) c e e'

/-! ### Conditions on steps -/

/-- Started where `P` holds, the step leaves a state with `Q` of its result when it succeeds, and a
state with `E` of the reason when it is refused. -/
def Concludes (P : σ → Prop) (e : ExceptT ε (StateM σ) α) (Q : α → σ → Prop)
    (E : ε → σ → Prop) : Prop :=
  ∀ s, P s →
    match outcome e s with
    | (.ok a, s') => Q a s'
    | (.error x, s') => E x s'

namespace Concludes

variable {P P' : σ → Prop} {Q Q' : α → σ → Prop} {R : β → σ → Prop} {E E' : ε → σ → Prop}
  {e : ExceptT ε (StateM σ) α} {f : α → ExceptT ε (StateM σ) β}

theorem pure {a : α} (h : ∀ s, P s → Q a s) : Concludes P (Pure.pure a : ExceptT ε _ α) Q E :=
  fun s hs => h s hs

theorem throw {x : ε} (h : ∀ s, P s → E x s) :
    Concludes P (MonadExcept.throw x : ExceptT ε (StateM σ) α) Q E :=
  fun s hs => h s hs

/-- One step after the other. -/
theorem bind (he : Concludes P e Q E) (hf : ∀ a, Concludes (Q a) (f a) R E) :
    Concludes P (e >>= f) R E := by
  intro s hs
  have h := he s hs
  rw [outcome_bind]
  rcases ho : outcome e s with ⟨x | a, s'⟩ <;> rw [ho] at h
  · exact h
  · exact hf a s' h

/-- What follows a refusal is of no matter. -/
theorem throw_bind {γ : Type} {x : ε} {g : γ → ExceptT ε (StateM σ) β} (h : ∀ s, P s → E x s) :
    Concludes P (MonadExcept.throw x >>= g) R E := by
  intro s hs
  rw [outcome_throw_bind]
  exact h s hs

/-- A step may look at the state first. -/
theorem get_bind {f : σ → ExceptT ε (StateM σ) β} (hf : ∀ a, P a → Concludes P (f a) R E) :
    Concludes P (get >>= f) R E := by
  intro s hs
  rw [outcome_get_bind]
  exact hf s hs s hs

/-- A stronger condition at the start, weaker ones at the end. -/
theorem weaken (h : Concludes P e Q E) (hP : ∀ s, P' s → P s) (hQ : ∀ a s, Q a s → Q' a s)
    (hE : ∀ x s, E x s → E' x s) : Concludes P' e Q' E' := by
  intro s hs
  have h' := h s (hP s hs)
  rcases ho : outcome e s with ⟨x | a, s'⟩ <;> rw [ho] at h'
  · exact hE x s' h'
  · exact hQ a s' h'

theorem discard {R : PUnit → σ → Prop} (h : Concludes P e (fun _ => R ⟨⟩) E) :
    Concludes P (Functor.discard e) R E := by
  intro s hs
  have h' := h s hs
  have hd := outcome_discard e s
  rw [show outcome (Functor.discard e) s = _ from hd]
  rcases ho : outcome e s with ⟨x | a, s'⟩ <;> rw [ho] at h' <;> exact h'

/-- A step for every member of a list, each of which keeps the condition. -/
theorem forM {g : β → ExceptT ε (StateM σ) PUnit} (l : List β)
    (h : ∀ b ∈ l, Concludes P (g b) (fun _ => P) E) : Concludes P (l.forM g) (fun _ => P) E := by
  induction l with
  | nil => exact pure fun _ hs => hs
  | cons b r ih =>
    exact bind (h b List.mem_cons_self) fun _ => ih fun c hc => h c (List.mem_cons_of_mem b hc)

theorem mapM {γ : Type} {g : β → ExceptT ε (StateM σ) γ} (l : List β)
    (h : ∀ b ∈ l, Concludes P (g b) (fun _ => P) E) : Concludes P (l.mapM g) (fun _ => P) E := by
  induction l with
  | nil => exact pure fun _ hs => hs
  | cons b r ih =>
    rw [List.mapM_cons]
    exact bind (h b List.mem_cons_self) fun _ =>
      bind (ih fun c hc => h c (List.mem_cons_of_mem b hc)) fun _ => pure fun _ hs => hs

end Concludes

/-- Started where `P` holds, the step leaves a state with `Q` of its result when it succeeds, and a
state with `E` when it is refused, for whatever reason. -/
def Ensures (P : σ → Prop) (e : ExceptT ε (StateM σ) α) (Q : α → σ → Prop) (E : σ → Prop) :
    Prop := Concludes P e Q fun _ => E

namespace Ensures

variable {P P' : σ → Prop} {Q Q' : α → σ → Prop} {R : β → σ → Prop} {E E' : σ → Prop}
  {e : ExceptT ε (StateM σ) α} {f : α → ExceptT ε (StateM σ) β}

theorem pure {a : α} (h : ∀ s, P s → Q a s) : Ensures P (Pure.pure a : ExceptT ε _ α) Q E :=
  Concludes.pure h

theorem throw {x : ε} (h : ∀ s, P s → E s) :
    Ensures P (MonadExcept.throw x : ExceptT ε (StateM σ) α) Q E := Concludes.throw h

/-- One step after the other. -/
theorem bind (he : Ensures P e Q E) (hf : ∀ a, Ensures (Q a) (f a) R E) :
    Ensures P (e >>= f) R E := Concludes.bind he hf

/-- What follows a refusal is of no matter. -/
theorem throw_bind {γ : Type} {x : ε} {g : γ → ExceptT ε (StateM σ) β} (h : ∀ s, P s → E s) :
    Ensures P (MonadExcept.throw x >>= g) R E := Concludes.throw_bind h

/-- A condition that holds in any case afterwards. -/
theorem iff_outcome :
    Ensures P e (fun _ => P') P' ↔ ∀ s, P s → P' (outcome e s).2 := by
  refine forall₂_congr fun s _ => ?_
  rcases outcome e s with ⟨x | a, s'⟩ <;> exact Iff.rfl

/-- A step may look at the state first. -/
theorem get_bind {f : σ → ExceptT ε (StateM σ) β} (hf : ∀ a, P a → Ensures P (f a) R E) :
    Ensures P (get >>= f) R E := Concludes.get_bind hf

/-- A stronger condition at the start, weaker ones at the end. -/
theorem weaken (h : Ensures P e Q E) (hP : ∀ s, P' s → P s) (hQ : ∀ a s, Q a s → Q' a s)
    (hE : ∀ s, E s → E' s) : Ensures P' e Q' E' := Concludes.weaken h hP hQ fun _ => hE

/-- A condition on the start that something exists gives it by name. -/
theorem of_exists {ι : Type} {P : ι → σ → Prop} (h : ∀ i, Ensures (P i) e Q E) :
    Ensures (fun s => ∃ i, P i s) e Q E := by
  rintro s ⟨i, hs⟩
  exact h i s hs

/-- The part of a condition on the start that is not about the state is a fact. -/
theorem of_and {c : Prop} (h : c → Ensures P e Q E) : Ensures (fun s => c ∧ P s) e Q E := by
  rintro s ⟨hc, hs⟩
  exact h hc s hs

/-- A step that is never refused has a result. -/
theorem exists_ok (h : Ensures P e Q fun _ => False) {s : σ} (hs : P s) :
    ∃ a s', outcome e s = (.ok a, s') ∧ Q a s' := by
  have h' := h s hs
  rcases ho : outcome e s with ⟨x | a, s'⟩ <;> rw [ho] at h'
  · exact h'.elim
  · exact ⟨a, s', rfl, h'⟩

theorem adapt {g : ε → δ} (h : Ensures P e Q E) : Ensures P (ExceptT.adapt g e) Q E := by
  intro s hs
  have h' := h s hs
  rw [outcome_adapt]
  rcases ho : outcome e s with ⟨x | a, s'⟩ <;> rw [ho] at h' <;> exact h'

theorem discard {R : PUnit → σ → Prop} (h : Ensures P e (fun _ => R ⟨⟩) E) :
    Ensures P (Functor.discard e) R E := Concludes.discard h

/-- A step for every member of a list, each of which keeps the condition. -/
theorem forM {g : β → ExceptT ε (StateM σ) PUnit} (l : List β)
    (h : ∀ b ∈ l, Ensures P (g b) (fun _ => P) E) : Ensures P (l.forM g) (fun _ => P) E :=
  Concludes.forM l h

end Ensures

/-! ### Reasons for refusals -/

/-- Wherever the step is started, it is refused for reasons of the given kind only. -/
def RefusesWith (R : ε → Prop) (e : ExceptT ε (StateM σ) α) : Prop :=
  ∀ s x s', outcome e s = (.error x, s') → R x

namespace RefusesWith

variable {R R' : ε → Prop} {e : ExceptT ε (StateM σ) α} {f : α → ExceptT ε (StateM σ) β}

theorem pure {a : α} : RefusesWith R (Pure.pure a : ExceptT ε (StateM σ) α) := by
  rintro s x s' ⟨⟩

theorem throw {x : ε} (h : R x) : RefusesWith R (MonadExcept.throw x : ExceptT ε (StateM σ) α) := by
  rintro s x s' ⟨⟩
  exact h

theorem bind (he : RefusesWith R e)
    (hf : ∀ a, RefusesWith R (f a)) : RefusesWith R (e >>= f) := by
  intro s x s' h
  rw [outcome_bind] at h
  rcases ho : outcome e s with ⟨y | a, s''⟩ <;> rw [ho] at h
  · cases h
    exact he s _ _ ho
  · exact hf _ _ x s' h

theorem adapt {δ : Type} {g : ε → δ} {R : δ → Prop} (h : RefusesWith (fun x => R (g x)) e) :
    RefusesWith R (ExceptT.adapt g e) := by
  intro s x s' ho
  rw [outcome_adapt] at ho
  rcases he : outcome e s with ⟨y | a, s''⟩ <;> rw [he] at ho <;> cases ho
  exact h s _ _ he

theorem discard (h : RefusesWith R e) : RefusesWith R (Functor.discard e) := by
  intro s x s' ho
  rw [show outcome (Functor.discard e) s = _ from outcome_discard e s] at ho
  rcases he : outcome e s with ⟨y | a, s''⟩ <;> rw [he] at ho <;> cases ho
  exact h s _ _ he

theorem mono (h : RefusesWith R e) (hR : ∀ x, R x → R' x) : RefusesWith R' e :=
  fun s x s' ho => hR x (h s x s' ho)

/-- A step that is never refused has no reasons. -/
theorem of_ensures {Q : σ → α → σ → Prop}
    (h : ∀ s, Ensures (· = s) e (Q s) fun _ => False) : RefusesWith R e := by
  intro s x s' ho
  have hs := h s s rfl
  rw [ho] at hs
  exact hs.elim

end RefusesWith

/-! ### Steps on a store -/

namespace Edit

variable (st : Store)

@[simp] theorem outcome_ask (question : Store → Except ModelError α) :
    outcome (ask question) st = (question st, st) := by
  rw [ask, outcome_get_bind]
  rcases question st with x | a <;> rfl

@[simp] theorem outcome_onSchema (s : SchemaId) (f : Schema → Schema) :
    outcome (onSchema s f) st = (.ok ⟨⟩, st.setSchema s (f (st.schema s))) := rfl

@[simp] theorem outcome_onTable (t : TableId) (f : Table → Table) :
    outcome (onTable t f) st = (.ok ⟨⟩, st.setTable t (f (st.table t))) := rfl

@[simp] theorem outcome_onField (i : FieldId) (f : Field → Field) :
    outcome (onField i f) st = (.ok ⟨⟩, st.setField i (f (st.field i))) := rfl

@[simp] theorem outcome_onIndex (i : IndexId) (f : Index → Index) :
    outcome (onIndex i f) st = (.ok ⟨⟩, st.setIndex i (f (st.index i))) := rfl

@[simp] theorem outcome_onConstraint (c : ConstraintId) (f : Constraint → Constraint) :
    outcome (onConstraint c f) st = (.ok ⟨⟩, st.setConstraint c (f (st.constraint c))) := rfl

@[simp] theorem outcome_addSchemaCell (x : Schema) :
    outcome (addSchemaCell x) st =
      (.ok ⟨st.schemas.size⟩, st.setSchema ⟨st.schemas.size⟩ x) := rfl

@[simp] theorem outcome_addTableCell (x : Table) :
    outcome (addTableCell x) st = (.ok ⟨st.tables.size⟩, st.setTable ⟨st.tables.size⟩ x) := rfl

@[simp] theorem outcome_addFieldCell (x : Field) :
    outcome (addFieldCell x) st = (.ok ⟨st.fields.size⟩, st.setField ⟨st.fields.size⟩ x) := rfl

@[simp] theorem outcome_addIndexCell (x : Index) :
    outcome (addIndexCell x) st = (.ok ⟨st.indices.size⟩, st.setIndex ⟨st.indices.size⟩ x) := rfl

@[simp] theorem outcome_addConstraintCell (x : Constraint) :
    outcome (addConstraintCell x) st =
      (.ok ⟨st.constraints.size⟩, st.setConstraint ⟨st.constraints.size⟩ x) := rfl

end Edit

end DbSchema
