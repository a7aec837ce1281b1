import DbSchema.Proofs.Document.Definitions
import DbSchema.Proofs.Model.Faults

/-!
# Faults of definitions

A definition that cannot be accepted is refused with an error of loading, unless the refusal runs
into a fault of its own.  There are three ways for it to do so: the definition has a key that is no
text, the list of a size in it holds an infinity, or the refusal would show an integer that has too
many digits to be written.

## Main definitions

* `LoadError.IsLoad e` — `e` is reported as an error of loading.
* `LoadError.LoadOr C e` — `e` is such an error, or a fault in `C` is behind it.
* `Misfit part v w` — a refusal of the definition `v` shows `w`.
* `Escapes part v f` — a refusal of the definition `v` may run into the fault `f`.

## Main results

* `escapes_of_check` — the fault behind the refusal of a value without its form.
* `loadOr_of_partEntries`, `loadOr_of_sectionItems` and their like — the refusals of one definition.
-/

namespace DbSchema

/-! ### Errors of loading -/

namespace LoadError

/-- The error is reported as an error of loading. -/
def IsLoad (e : LoadError) : Prop :=
  e.fault? = none ∧ ∀ shown, e.report? shown = some ⟨.load, e.message shown, []⟩

/-- Every fault behind the error is one of the given ones. -/
def FaultsIn (C : Fault → Prop) (e : LoadError) : Prop := ∀ f, e.fault? = some f → C f

/-- The error is one of loading, or one of the given faults is behind it. -/
def LoadOr (C : Fault → Prop) (e : LoadError) : Prop := e.IsLoad ∨ ∃ f, e.fault? = some f ∧ C f

variable {C C' : Fault → Prop} {e : LoadError}

/-- Whether the error is one of the model by itself. -/
def isModel : LoadError → Bool
  | model _ => true
  | _ => false

/-- Only errors of the model are reported under categories of their own. -/
theorem isLoad_of_fault? (hmodel : e.isModel = false) (hf : e.fault? = none) : e.IsLoad := by
  refine ⟨hf, fun shown => ?_⟩
  cases e with
  | model me => cases hmodel
  | fault f => cases hf
  | _ => rfl

theorem loadOr_of_fault? (hmodel : e.isModel = false) (hf : e.fault? = none) : e.LoadOr C :=
  .inl (isLoad_of_fault? hmodel hf)

theorem loadOr_of_faultsIn (hmodel : e.isModel = false) (h : e.FaultsIn C) : e.LoadOr C := by
  rcases hf : e.fault? with _ | f
  · exact loadOr_of_fault? hmodel hf
  · exact .inr ⟨f, hf, h f hf⟩

/-- A fault is behind itself only. -/
theorem loadOr_fault {f : Fault} (h : C f) : (LoadError.fault f).LoadOr C := .inr ⟨f, rfl, h⟩

theorem LoadOr.faultsIn (h : e.LoadOr C) : e.FaultsIn C := by
  intro f hf
  obtain hload | ⟨g, hg, hC⟩ := h
  · cases hf.symm.trans hload.1
  · cases hf.symm.trans hg
    exact hC

theorem LoadOr.mono (h : e.LoadOr C) (hC : ∀ f, C f → C' f) : e.LoadOr C' :=
  h.imp_right fun ⟨f, hf, hc⟩ => ⟨f, hf, hC f hc⟩

/-- With the name of its table, every error is one of loading or a fault. -/
theorem loadOr_within {name : String} (h : e.FaultsIn C) : (e.within name).LoadOr C := by
  rw [within]
  rcases hf : e.fault? with _ | f
  · exact loadOr_of_fault? rfl rfl
  · refine loadOr_of_faultsIn rfl fun g hg => ?_
    cases hg
    exact h f hf

end LoadError

/-! ### Definitions whose refusal runs into a fault -/

/-- The value `w` is what a refusal of a definition shows: the definition itself when it is no
mapping, a section that is no list, the name of a table that is no text, or what does not have the
form that it must have under its key. -/
inductive Misfit : Part → Value → Value → Prop
  | definition {part : Part} {v : Value} (h : ∀ entries m, v ≠ .map entries m) : Misfit part v v
  | section {part inner : Part} {entries : List (Value × Value)} {m : Mark} {key : String}
      (hsection : (key, inner) ∈ part.sections) (htrue : (valueAt key entries).truthy)
      (h : ∀ items m', valueAt key entries ≠ .list items m') :
      Misfit part (.map entries m) (valueAt key entries)
  | tableName {entries : List (Value × Value)} {m : Mark} (h : ¬ IsText (valueAt "table" entries)) :
      Misfit .table (.map entries m) (valueAt "table" entries)
  | attribute {part : Part} {entries : List (Value × Value)} {m : Mark} {key : String}
      {form : AttributeForm} {v w : Value} {e : ModelError} (hform : (key, form) ∈ part.formed)
      (hv : (.text key, v) ∈ entries) (h : form.check v = .error e) (hw : e.value? = some w) :
      Misfit part (.map entries m) w

/-- Refusing the definition may run into a fault: it has a key that is no text, it is a field with
an infinity in its size, or what a refusal shows holds an integer with too many digits. -/
inductive Escapes : Part → Value → Fault → Prop
  | oddKey {part : Part} {entries : List (Value × Value)} {m : Mark} {x : Value × Value}
      (hx : x ∈ entries) (hkey : ¬ IsText x.1) : Escapes part (.map entries m) .unlistable
  | infiniteSize {entries : List (Value × Value)} {m m' : Mark} {v : Value} {items : List Value}
      {negative : Bool} (hv : (.text "size", v) ∈ entries)
      (hitems : v = .list items m' ∨ v = .tuple items m')
      (hinfinite : .float (.infinite negative) ∈ items) :
      Escapes .field (.map entries m) .infiniteInteger
  | longInteger {part : Part} {v w : Value} (h : Misfit part v w)
      (hw : w.showFault? = some .unwritableInteger) : Escapes part v .unwritableInteger

theorem Misfit.escapes {part : Part} {v w : Value} {f : Fault} (h : Misfit part v w)
    (hw : w.showFault? = some f) : Escapes part v f := by
  cases eq_of_showFault? hw
  exact .longInteger h hw

/-! ### Refusals of one definition -/

/-- A fault behind the refusal of a value that does not have its form. -/
theorem escapes_of_check {part : Part} {entries : List (Value × Value)} {m : Mark} {key : String}
    {form : AttributeForm} {v : Value} {e : ModelError} {f : Fault}
    (hform : (key, form) ∈ part.formed) (hv : (.text key, v) ∈ entries)
    (hcheck : form.check v = .error e) (hf : e.fault? = some f) :
    Escapes part (.map entries m) f := by
  cases AttributeForm.escapes_iff.mpr ⟨e, hcheck, hf⟩ with
  | infiniteSize hitems hfirst =>
    -- only fields have a size
    obtain ⟨rfl, rfl⟩ : part = .field ∧ key = "size" := by
      cases part <;> simp_all [Part.formed, FieldSpec.formed, IndexSpec.formed,
        ConstraintSpec.formed]
    obtain ⟨negative, hinfinite⟩ := hfirst.mem
    exact .infiniteSize hv hitems hinfinite
  | longInteger hcheck hshown hlong =>
    exact .longInteger (.attribute hform hv hcheck hshown) hlong

section Causes

variable {part inner : Part} {entries : List (Value × Value)} {m : Mark} {e : LoadError}
  {key : String}

theorem loadOr_of_checkKeys (h : checkKeys part entries = .error e) :
    e.LoadOr (Escapes part (.map entries m)) := by
  obtain ⟨keys, rfl⟩ | ⟨rfl, x, hx, hkey⟩ := checkKeys_error h
  · exact LoadError.loadOr_of_fault? rfl rfl
  · exact LoadError.loadOr_fault (.oddKey hx hkey)

theorem loadOr_of_partEntries {v : Value} (h : partEntries part v = .error e) :
    e.LoadOr (Escapes part v) := by
  obtain ⟨entries, m, rfl, hkeys⟩ | ⟨rfl, hmap⟩ := partEntries_error h
  · exact loadOr_of_checkKeys hkeys
  · exact LoadError.loadOr_of_faultsIn rfl fun f hf => (Misfit.definition hmap).escapes hf

theorem loadOr_of_sectionItems (hsection : (key, inner) ∈ part.sections)
    (h : sectionItems key entries = .error e) : e.LoadOr (Escapes part (.map entries m)) := by
  obtain ⟨rfl, htrue, hlist⟩ := sectionItems_error h
  exact LoadError.loadOr_of_faultsIn rfl fun f hf =>
    (Misfit.section hsection htrue hlist).escapes hf

theorem loadOr_of_tableName (h : tableName entries = .error e) :
    e.LoadOr (Escapes .table (.map entries m)) := by
  obtain rfl | ⟨rfl, htext⟩ := tableName_error h
  · exact LoadError.loadOr_of_fault? rfl rfl
  · exact LoadError.loadOr_of_faultsIn rfl fun f hf => (Misfit.tableName htext).escapes hf

theorem loadOr_of_fieldParams {v : Value} (h : fieldParams v = .error e) :
    e.LoadOr (Escapes .field v) := by
  rw [fieldParams] at h
  rcases hentries : partEntries .field v with e' | entries <;> rw [hentries] at h
  · cases h
    exact loadOr_of_partEntries hentries
  · simp only [bind, Except.bind] at h
    split at h <;> cases h
    exact LoadError.loadOr_of_fault? rfl rfl

theorem loadOr_of_childParams {v : Value} (h : childParams part v = .error e) :
    e.LoadOr (Escapes part v) := by
  rw [childParams] at h
  rcases hentries : partEntries part v with e' | entries <;> rw [hentries] at h <;> cases h
  exact loadOr_of_partEntries hentries

end Causes

end DbSchema
