import DbSchema.Model.Spec
import DbSchema.Proofs.Model.Tidy
import Mathlib.Data.List.Nodup
import Mathlib.Tactic.FinCases

/-!
# The forms of attributes

Some attributes of a child must have a form: texts, lists of names, sizes and kinds.  Parameters
make a description exactly when each of them has the form of its attribute, and when they do not,
the refusal is that of one of these parameters.

## Main definitions

* `AttributeForm` — the forms; `AttributeForm.check f v` is why `v` has not the form `f`, if so.
* `FieldSpec.formed`, `IndexSpec.formed`, `ConstraintSpec.formed` — the attributes that have one.
* `RefusedFirst forms ps key form v` — the value `v` of `key` is the first that has not its form.

## Main results

* `TidiesBy.check_of_specOf` — parameters that make a description have the forms.
* `TidiesBy.specOf_error` — a refusal comes from the form of one parameter.
* `TidiesBy.specOf_error_iff` — it is the first parameter that does not have its form.
* `FieldSpec.tidiesBy`, `IndexSpec.tidiesBy`, `ConstraintSpec.tidiesBy` — this is how descriptions
  are tidied.
-/

namespace DbSchema

/-! ### Filling in parameters -/

/-- The attributes with the one of a name changed. -/
def replaceAttribute (name : String) (v : Value) (ps : Params) : Params :=
  ps.map fun p => if p.1 = name then (name, v) else p

theorem mem_of_mem_replaceAttribute {name : String} {v : Value} {ps : Params} {p : String × Value}
    (h : p ∈ replaceAttribute name v ps) : p = (name, v) ∨ p ∈ ps := by
  obtain ⟨q, hq, rfl⟩ := List.mem_map.mp h
  split
  · exact .inl rfl
  · exact .inr hq

theorem mem_replaceAttribute_of_ne {name : String} {v : Value} {ps : Params} {p : String × Value}
    (h : p ∈ ps) (hne : p.1 ≠ name) : p ∈ replaceAttribute name v ps :=
  List.mem_map.mpr ⟨p, h, if_neg hne⟩

theorem mem_replaceAttribute_self {name : String} {v : Value} {ps : Params}
    (h : name ∈ ps.map (·.1)) : (name, v) ∈ replaceAttribute name v ps := by
  obtain ⟨p, hp, hname⟩ := List.mem_map.mp h
  exact List.mem_map.mpr ⟨p, hp, if_pos hname⟩

section Filling

variable {σ : Type} {fill : σ → String → Value → Option σ} {attributes : σ → Params}

/-- Filling in an attribute changes this one and no other, and there is one for every known name. -/
structure FillsIn (fill : σ → String → Value → Option σ) (attributes : σ → Params)
    (names : List String) : Prop where
  names_eq : ∀ spec, (attributes spec).map (·.1) = names
  nodup : names.Nodup
  known : ∀ {name}, name ∈ names → ∀ spec v, (fill spec name v).isSome
  replaced : ∀ {spec name v spec'}, fill spec name v = some spec' →
    name ∈ names ∧ attributes spec' = replaceAttribute name v (attributes spec)

variable {names : List String} {spec raw : σ} {ps : Params}

/-- An attribute has one value. -/
theorem FillsIn.value_eq (h : FillsIn fill attributes names) {key : String} {v w : Value}
    (hv : (key, v) ∈ attributes spec) (hw : (key, w) ∈ attributes spec) : v = w :=
  congrArg Prod.snd
    (List.inj_on_of_nodup_map (by rw [h.names_eq]; exact h.nodup) hv hw rfl)

/-- Parameters with known names can be filled in. -/
theorem FillsIn.exists_fillParams (h : FillsIn fill attributes names)
    (hps : ∀ p ∈ ps, p.1 ∈ names) (spec : σ) : ∃ raw, fillParams fill spec ps = some raw := by
  induction ps generalizing spec with
  | nil => exact ⟨spec, rfl⟩
  | cons p r ih =>
    obtain ⟨spec', hfill⟩ := Option.isSome_iff_exists.mp
      (h.known (hps p List.mem_cons_self) spec p.2)
    rw [fillParams, hfill]
    exact ih (fun q hq => hps q (List.mem_cons_of_mem p hq)) spec'

/-- What is filled in is a parameter, what is not was there before. -/
theorem FillsIn.mem_attributes (h : FillsIn fill attributes names)
    (hraw : fillParams fill spec ps = some raw) {p : String × Value} (hp : p ∈ attributes raw) :
    p ∈ attributes spec ∨ p ∈ ps := by
  induction ps generalizing spec with
  | nil => cases hraw; exact .inl hp
  | cons q r ih =>
    rw [fillParams] at hraw
    rcases hfill : fill spec q.1 q.2 with _ | spec' <;> rw [hfill] at hraw
    · cases hraw
    rcases ih hraw with hold | hnew
    · rw [(h.replaced hfill).2] at hold
      rcases mem_of_mem_replaceAttribute hold with rfl | hold
      · exact .inr List.mem_cons_self
      · exact .inl hold
    · exact .inr (List.mem_cons_of_mem q hnew)

/-- An attribute that no parameter names stays. -/
theorem FillsIn.mem_of_notMem (h : FillsIn fill attributes names)
    (hraw : fillParams fill spec ps = some raw) {p : String × Value} (hp : p ∈ attributes spec)
    (hne : ∀ q ∈ ps, q.1 ≠ p.1) : p ∈ attributes raw := by
  induction ps generalizing spec with
  | nil => cases hraw; exact hp
  | cons q r ih =>
    rw [fillParams] at hraw
    rcases hfill : fill spec q.1 q.2 with _ | spec' <;> rw [hfill] at hraw
    · cases hraw
    refine ih hraw ?_ fun x hx => hne x (List.mem_cons_of_mem q hx)
    rw [(h.replaced hfill).2]
    exact mem_replaceAttribute_of_ne hp (hne q List.mem_cons_self).symm

/-- Every parameter is filled in when no name is given twice. -/
theorem FillsIn.mem_of_param (h : FillsIn fill attributes names)
    (hraw : fillParams fill spec ps = some raw) (hnodup : (ps.map (·.1)).Nodup)
    {p : String × Value} (hp : p ∈ ps) : p ∈ attributes raw := by
  induction ps generalizing spec with
  | nil => cases hp
  | cons q r ih =>
    rw [fillParams] at hraw
    rcases hfill : fill spec q.1 q.2 with _ | spec' <;> rw [hfill] at hraw
    · cases hraw
    obtain ⟨hnot, hnodup⟩ := List.nodup_cons.mp hnodup
    rcases List.mem_cons.mp hp with rfl | hp
    · refine h.mem_of_notMem hraw ?_ fun x hx hname => hnot (List.mem_map.mpr ⟨x, hx, hname⟩)
      obtain ⟨hname, hattributes⟩ := h.replaced hfill
      rw [hattributes]
      exact mem_replaceAttribute_self (by rwa [h.names_eq])
    · exact ih hraw hnodup hp

end Filling

theorem FieldSpec.fillsIn :
    FillsIn FieldSpec.fill FieldSpec.attributes FieldSpec.parameters where
  names_eq _ := rfl
  nodup := by decide
  known h spec v := by
    simp only [parameters, List.mem_cons, List.not_mem_nil, or_false] at h
    rcases h with rfl | rfl | rfl | rfl | rfl | rfl | rfl | rfl <;> rfl
  replaced h := by
    unfold fill at h
    split at h <;> cases h <;> exact ⟨by decide, rfl⟩

theorem IndexSpec.fillsIn :
    FillsIn IndexSpec.fill IndexSpec.attributes IndexSpec.parameters where
  names_eq _ := rfl
  nodup := by decide
  known h spec v := by
    simp only [parameters, List.mem_cons, List.not_mem_nil, or_false] at h
    rcases h with rfl | rfl | rfl | rfl <;> rfl
  replaced h := by
    unfold fill at h
    split at h <;> cases h <;> exact ⟨by decide, rfl⟩

theorem ConstraintSpec.fillsIn :
    FillsIn ConstraintSpec.fill ConstraintSpec.attributes ConstraintSpec.parameters where
  names_eq _ := rfl
  nodup := by decide
  known h spec v := by
    simp only [parameters, List.mem_cons, List.not_mem_nil, or_false] at h
    rcases h with rfl | rfl | rfl | rfl | rfl | rfl | rfl | rfl | rfl | rfl | rfl <;> rfl
  replaced h := by
    unfold fill at h
    split at h <;> cases h <;> exact ⟨by decide, rfl⟩

/-! ### Forms -/

/-- The forms that attributes may have to have; a text is named in the refusal. -/
inductive AttributeForm
  | text (what : String)
  | names
  | size
  | indexKind
  | constraintKind
deriving DecidableEq, Repr

/-- Why a value does not have a form, unless it has. -/
def AttributeForm.check : AttributeForm → Value → Except ModelError Unit
  | text what, v => (cleanText what v).map fun _ => ()
  | names, v => (nameList v).map fun _ => ()
  | size, v => (parseSize v).map fun _ => ()
  | indexKind, v =>
    match IndexKind.ofValue? v with
    | some _ => .ok ()
    | none => .error (.childInvalid (.invalidIndexKind v))
  | constraintKind, v => (ConstraintSpec.readKind v).map fun _ => ()

/-- An attribute that must have a form. -/
structure FormedAttribute (σ : Type) where
  key : String
  form : AttributeForm
  value : σ → Value

/-- The attributes of a field that must have a form, in the order in which they are looked at. -/
def FieldSpec.formed : List (FormedAttribute FieldSpec) :=
  [⟨"name", .text "field name", name⟩, ⟨"data_type", .text "data type", dataType⟩,
    ⟨"size", .size, size⟩]

/-- The attributes of an index that must have a form. -/
def IndexSpec.formed : List (FormedAttribute IndexSpec) :=
  [⟨"name", .text "index name", name⟩, ⟨"fields", .names, fields⟩, ⟨"options", .names, options⟩,
    ⟨"type", .indexKind, kind⟩]

/-- The attributes of a constraint that must have a form. -/
def ConstraintSpec.formed : List (FormedAttribute ConstraintSpec) :=
  [⟨"name", .text "constraint name", name⟩, ⟨"fields", .names, fields⟩,
    ⟨"reference_fields", .names, referenceFields⟩, ⟨"options", .names, options⟩,
    ⟨"type", .constraintKind, kind⟩]

/-- The first attribute that does not have its form refuses the description. -/
def checkFormed {σ : Type} (spec : σ) : List (FormedAttribute σ) → Except ModelError Unit
  | [] => .ok ()
  | x :: r =>
    match x.form.check (x.value spec) with
    | .error e => .error e
    | .ok () => checkFormed spec r

section Formed

variable {σ : Type} {spec : σ} {formed : List (FormedAttribute σ)}

/-- The error is that of the first attribute that does not have its form. -/
theorem checkFormed_error_iff {e : ModelError} :
    checkFormed spec formed = .error e ↔ ∃ before x after, formed = before ++ x :: after ∧
      (∀ y ∈ before, y.form.check (y.value spec) = .ok ()) ∧
      x.form.check (x.value spec) = .error e := by
  induction formed with
  | nil =>
    refine iff_of_false (by simp [checkFormed]) ?_
    rintro ⟨before, x, after, h, -⟩
    cases before <;> cases h
  | cons z r ih =>
    rw [checkFormed]
    rcases hz : z.form.check (z.value spec) with e' | ⟨⟩
    · constructor
      · rintro ⟨⟩
        exact ⟨[], z, r, rfl, List.forall_mem_nil _, hz⟩
      · rintro ⟨_ | ⟨y, before⟩, x, after, heq, hbefore, hx⟩ <;> cases heq
        · exact hz.symm.trans hx
        · cases hz.symm.trans (hbefore z List.mem_cons_self)
    · dsimp only
      rw [ih]
      constructor
      · rintro ⟨before, x, after, rfl, hbefore, hx⟩
        exact ⟨z :: before, x, after, rfl, List.forall_mem_cons.mpr ⟨hz, hbefore⟩, hx⟩
      · rintro ⟨_ | ⟨y, before⟩, x, after, heq, hbefore, hx⟩ <;> cases heq
        · cases hz.symm.trans hx
        · exact ⟨before, x, after, rfl, (List.forall_mem_cons.mp hbefore).2, hx⟩

theorem check_of_checkFormed_ok (h : checkFormed spec formed = .ok ()) :
    ∀ x ∈ formed, x.form.check (x.value spec) = .ok () := by
  induction formed with
  | nil => simp
  | cons x r ih =>
    rw [checkFormed] at h
    rcases hx : x.form.check (x.value spec) with e' | u <;> rw [hx] at h
    · cases h
    · exact List.forall_mem_cons.mpr ⟨hx, ih h⟩

variable {fill : σ → String → Value → Option σ} {attributes : σ → Params}
  {tidy : σ → Except ModelError σ} {default : σ} {names : List String} {ps : Params}

/-- Tidying refuses what the forms of the attributes refuse, and the standard description has
them. -/
structure TidiesBy (tidy : σ → Except ModelError σ) (attributes : σ → Params)
    (formed : List (FormedAttribute σ)) (default : σ) : Prop where
  checked : ∀ spec, (tidy spec).map (fun _ => ()) = checkFormed spec formed
  listed : ∀ spec, ∀ x ∈ formed, (x.key, x.value spec) ∈ attributes spec
  standard : checkFormed default formed = .ok ()

/-- A refusal of parameters with known names comes from the form of one of them. -/
theorem TidiesBy.specOf_error (h : TidiesBy tidy attributes formed default)
    (hfill : FillsIn fill attributes names) (hps : ∀ p ∈ ps, p.1 ∈ names) {e : ModelError}
    (he : specOf fill tidy default ps = .error e) :
    ∃ x ∈ formed, ∃ v, (x.key, v) ∈ ps ∧ x.form.check v = .error e := by
  obtain ⟨raw, hraw⟩ := hfill.exists_fillParams hps default
  rw [specOf, hraw] at he
  dsimp only at he
  have hchecked : checkFormed raw formed = .error e := by rw [← h.checked, he]; rfl
  obtain ⟨before, x, after, hformed, -, hcheck⟩ := checkFormed_error_iff.mp hchecked
  have hx : x ∈ formed := hformed ▸ List.mem_append_right before List.mem_cons_self
  rcases hfill.mem_attributes hraw (h.listed raw x hx) with hdefault | hparam
  -- a standard value has its form
  · have hvalue := hfill.value_eq hdefault (h.listed default x hx)
    rw [hvalue, check_of_checkFormed_ok h.standard x hx] at hcheck
    cases hcheck
  · exact ⟨x, hx, _, hparam, hcheck⟩

/-- Parameters that make a description have their forms. -/
theorem TidiesBy.check_of_specOf (h : TidiesBy tidy attributes formed default)
    (hfill : FillsIn fill attributes names) (hnodup : (ps.map (·.1)).Nodup)
    (hspec : specOf fill tidy default ps = .ok spec) {x : FormedAttribute σ} (hx : x ∈ formed)
    {v : Value} (hv : (x.key, v) ∈ ps) : x.form.check v = .ok () := by
  rw [specOf] at hspec
  rcases hraw : fillParams fill default ps with _ | raw <;> rw [hraw] at hspec
  · cases hspec
  dsimp only at hspec
  have hchecked : checkFormed raw formed = .ok () := by rw [← h.checked, hspec]; rfl
  have hvalue := hfill.value_eq (hfill.mem_of_param hraw hnodup hv) (h.listed raw x hx)
  rw [hvalue]
  exact check_of_checkFormed_ok hchecked x hx

section Filled

variable (h : TidiesBy tidy attributes formed default) (hfill : FillsIn fill attributes names)
  (hnodup : (ps.map (·.1)).Nodup) {raw : σ} (hraw : fillParams fill default ps = some raw)
  {x : FormedAttribute σ} (hx : x ∈ formed) {e : ModelError}
include h hfill hnodup hraw hx

/-- An attribute is what its only parameter says, or else the standard one, which has its form. -/
theorem TidiesBy.value_cases :
    (∃ v, (x.key, v) ∈ ps ∧ (∀ w, (x.key, w) ∈ ps → w = v) ∧ x.value raw = v) ∨
      (∀ v, (x.key, v) ∉ ps) ∧ x.form.check (x.value raw) = .ok () := by
  by_cases hgiven : ∃ v, (x.key, v) ∈ ps
  · obtain ⟨v, hv⟩ := hgiven
    have hparam : ∀ {w}, (x.key, w) ∈ ps → (x.key, w) ∈ attributes raw :=
      fun hw => hfill.mem_of_param hraw hnodup hw
    exact .inl ⟨v, hv, fun w hw => hfill.value_eq (hparam hw) (hparam hv),
      hfill.value_eq (h.listed raw x hx) (hparam hv)⟩
  · have hnone := not_exists.mp hgiven
    refine .inr ⟨hnone, ?_⟩
    have hstandard : (x.key, x.value raw) ∈ attributes default :=
      (hfill.mem_attributes hraw (h.listed raw x hx)).resolve_right (hnone _)
    rw [hfill.value_eq hstandard (h.listed default x hx)]
    exact check_of_checkFormed_ok h.standard x hx

/-- An attribute has its form when the parameter for it does, if there is one. -/
theorem TidiesBy.check_value_ok_iff :
    x.form.check (x.value raw) = .ok () ↔ ∀ v, (x.key, v) ∈ ps → x.form.check v = .ok () := by
  obtain ⟨v, hv, honly, hvalue⟩ | ⟨hnone, hcheck⟩ := h.value_cases hfill hnodup hraw hx
  · rw [hvalue]
    exact ⟨fun hcheck w hw => honly w hw ▸ hcheck, fun hall => hall v hv⟩
  · exact iff_of_true hcheck fun v hv => absurd hv (hnone v)

theorem TidiesBy.check_value_error_iff :
    x.form.check (x.value raw) = .error e ↔
      ∃ v, (x.key, v) ∈ ps ∧ x.form.check v = .error e := by
  obtain ⟨v, hv, honly, hvalue⟩ | ⟨hnone, hcheck⟩ := h.value_cases hfill hnodup hraw hx
  · rw [hvalue]
    exact ⟨fun hcheck => ⟨v, hv, hcheck⟩, fun ⟨w, hw, hcheck⟩ => honly w hw ▸ hcheck⟩
  · exact iff_of_false (fun herror => by cases hcheck.symm.trans herror)
      fun ⟨v, hv, _⟩ => hnone v hv

end Filled

/-- The first of the forms that a parameter does not have refuses the parameters. -/
def RefusedFirst (forms : List (String × AttributeForm)) (ps : Params) (key : String)
    (form : AttributeForm) (v : Value) : Prop :=
  (key, v) ∈ ps ∧ ∃ before after, forms = before ++ (key, form) :: after ∧
    ∀ x ∈ before, ∀ w, (x.1, w) ∈ ps → x.2.check w = .ok ()

/-- **A refusal is that of the first parameter that does not have its form.** -/
theorem TidiesBy.specOf_error_iff (h : TidiesBy tidy attributes formed default)
    (hfill : FillsIn fill attributes names) (hnodup : (ps.map (·.1)).Nodup)
    (hps : ∀ p ∈ ps, p.1 ∈ names) {e : ModelError} :
    specOf fill tidy default ps = .error e ↔ ∃ key form v,
      RefusedFirst (formed.map fun x => (x.key, x.form)) ps key form v ∧
        form.check v = .error e := by
  obtain ⟨raw, hraw⟩ := hfill.exists_fillParams hps default
  -- what a description is refused for is found by checking its attributes in order
  have hchecked : specOf fill tidy default ps = .error e ↔ checkFormed raw formed = .error e := by
    rw [specOf, hraw, ← h.checked]
    dsimp only
    rcases tidy raw with e' | spec
    · exact ⟨fun heq => congrArg Except.error (Except.error.inj heq), fun heq =>
        congrArg Except.error (Except.error.inj heq)⟩
    · simp [Except.map]
  rw [hchecked, checkFormed_error_iff]
  constructor
  · rintro ⟨before, x, after, rfl, hbefore, hx⟩
    obtain ⟨v, hv, hcheck⟩ := (h.check_value_error_iff hfill hnodup hraw (by simp)).mp hx
    refine ⟨x.key, x.form, v, ⟨hv, before.map fun y => (y.key, y.form),
      after.map fun y => (y.key, y.form), by simp, ?_⟩, hcheck⟩
    simp only [List.forall_mem_map]
    exact fun y hy => (h.check_value_ok_iff hfill hnodup hraw (by simp [hy])).mp (hbefore y hy)
  · rintro ⟨key, form, v, ⟨hv, before, after, hforms, hbefore⟩, hcheck⟩
    obtain ⟨before, rest, rfl, rfl, hrest⟩ := List.map_eq_append_iff.mp hforms
    obtain ⟨x, after, rfl, hx, rfl⟩ := List.map_eq_cons_iff.mp hrest
    cases hx
    simp only [List.forall_mem_map] at hbefore
    refine ⟨before, x, after, rfl, fun y hy => ?_, ?_⟩
    · exact (h.check_value_ok_iff hfill hnodup hraw (by simp [hy])).mpr (hbefore y hy)
    · exact (h.check_value_error_iff hfill hnodup hraw (by simp)).mpr ⟨v, hv, hcheck⟩

end Formed

theorem FieldSpec.tidiesBy : TidiesBy FieldSpec.tidy FieldSpec.attributes FieldSpec.formed {} where
  checked spec := by
    simp only [tidy, formed, checkFormed, AttributeForm.check, bind, Except.bind]
    rcases cleanText "field name" spec.name with e | name
    · rfl
    rcases cleanText "data type" spec.dataType with e | dataType
    · rfl
    rcases parseSize spec.size with e | size <;> rfl
  listed spec x hx := by
    fin_cases hx <;> simp [attributes]
  standard := rfl

theorem IndexSpec.tidiesBy : TidiesBy IndexSpec.tidy IndexSpec.attributes IndexSpec.formed {} where
  checked spec := by
    simp only [tidy, formed, checkFormed, AttributeForm.check, bind, Except.bind]
    rcases cleanText "index name" spec.name with e | name
    · rfl
    rcases nameList spec.fields with e | fields
    · rfl
    rcases nameList spec.options with e | options
    · rfl
    rcases IndexKind.ofValue? spec.kind with _ | kind <;> rfl
  listed spec x hx := by
    fin_cases hx <;> simp [attributes]
  standard := rfl

theorem ConstraintSpec.tidiesBy :
    TidiesBy ConstraintSpec.tidy ConstraintSpec.attributes ConstraintSpec.formed {} where
  checked spec := by
    simp only [tidy, formed, checkFormed, AttributeForm.check, bind, Except.bind]
    rcases cleanText "constraint name" spec.name with e | name
    · rfl
    rcases nameList spec.fields with e | fields
    · rfl
    rcases nameList spec.referenceFields with e | referenceFields
    · rfl
    rcases nameList spec.options with e | options
    · rfl
    rcases readKind spec.kind with e | kind <;> rfl
  listed spec x hx := by
    fin_cases hx <;> simp [attributes]
  standard := rfl

end DbSchema
