import DbSchema.Value.Basic
import Mathlib.Data.List.Basic
import Mathlib.Tactic.Common

/-!
# Plain values

A document consists of plain values: null, truth values, numbers, texts, bytes, dates, and
collections of them.  Every plain value equals itself, because the one number that differs from
itself is not counted among them, and a mark does not change what a value equals.

## Main definitions

* `Value.isPlain v` — `v` is a plain value.

## Main results

* `Value.same_self` — a plain value equals itself.
* `Value.same_markedAs` — marking a value does not change what equals it.
* `Value.same_null` — only null equals null.
-/

namespace DbSchema

theorem Binary64.same_self {x : Binary64} (h : x ≠ .nan) : x.same x := by
  cases x with
  | nan => exact absurd rfl h
  | _ => simp [same]

namespace Value

mutual

/-- Whether a value is null, a truth value, a number, a text, bytes, a date, or a collection of
such values. -/
def isPlain : Value → Bool
  | .null | .bool _ | .int _ | .text _ | .bytes _ | .date .. | .datetime .. => true
  | .float x => x != .nan
  | .list items _ | .tuple items _ | .set items _ => allPlain items
  | .map entries _ => entriesPlain entries
  | .indexKind _ | .constraintKind _ | .object _ => false

/-- Whether every value of a list is plain. -/
def allPlain : List Value → Bool
  | [] => true
  | v :: r => isPlain v && allPlain r

/-- Whether every key and every value of a mapping is plain. -/
def entriesPlain : List (Value × Value) → Bool
  | [] => true
  | (k, v) :: r => isPlain k && isPlain v && entriesPlain r

end

theorem eq_text_of_asText? {v : Value} {s : String} (h : v.asText? = some s) : v = .text s := by
  cases v <;> cases h
  rfl

theorem isPlain_ofTexts (texts : List String) : (ofTexts texts).isPlain := by
  rw [ofTexts, ofList, isPlain]
  induction texts with
  | nil => rfl
  | cons s r ih => rw [List.map_cons, allPlain, ih]; rfl

theorem isPlain_ofInts (ints : List Int) : (ofInts ints).isPlain := by
  rw [ofInts, ofList, isPlain]
  induction ints with
  | nil => rfl
  | cons i r ih => rw [List.map_cons, allPlain, ih]; rfl

/-! ### Equality in collections -/

theorem sameAll_self {vs : List Value} (h : ∀ v ∈ vs, v.same v) : sameAll vs vs := by
  induction vs with
  | nil => rw [sameAll]
  | cons v r ih =>
    rw [sameAll, h v List.mem_cons_self, ih fun w hw => h w (List.mem_cons_of_mem v hw)]
    rfl

theorem eachIn_of_subset {vs ws : List Value} (h : ∀ v ∈ vs, v.same v) (hsub : vs ⊆ ws) :
    eachIn vs ws := by
  induction vs with
  | nil => rw [eachIn]
  | cons v r ih =>
    have hv : ws.any (fun w => v.same w) :=
      List.any_eq_true.mpr ⟨v, hsub List.mem_cons_self, h v List.mem_cons_self⟩
    rw [eachIn, hv, ih (fun w hw => h w (List.mem_cons_of_mem v hw))
      (List.subset_of_cons_subset hsub)]
    rfl

theorem eachEntryIn_of_subset {es fs : List (Value × Value)}
    (h : ∀ e ∈ es, e.1.same e.1 ∧ e.2.same e.2) (hsub : es ⊆ fs) : eachEntryIn es fs := by
  induction es with
  | nil => rw [eachEntryIn]
  | cons e r ih =>
    have he : fs.any (fun f => e.1.same f.1 && e.2.same f.2) :=
      List.any_eq_true.mpr ⟨e, hsub List.mem_cons_self, by simp [h e List.mem_cons_self]⟩
    rw [eachEntryIn, he,
      ih (fun f hf => h f (List.mem_cons_of_mem e hf)) (List.subset_of_cons_subset hsub)]
    rfl

/-! ### Equality of plain values -/

mutual

/-- A plain value equals itself. -/
theorem same_self : ∀ {v : Value}, v.isPlain → v.same v
  | .null, _ | .bool _, _ | .int _, _ | .text _, _ | .bytes _, _ | .date .., _ => by
    simp [same, sameNumber, asInt?]
  | .datetime t _, _ => by simp [same, DateTime.same]
  | .float x, h => by
    rw [isPlain, bne_iff_ne] at h
    simp [same, sameNumber, asInt?, Binary64.same_self h]
  | .list items _, h | .tuple items _, h => by
    rw [same]
    exact sameAll_self (all_same_self h)
  | .set items _, h => by
    rw [same, eachIn_of_subset (all_same_self h) (List.Subset.refl _)]
    simp
  | .map entries _, h => by
    rw [same, eachEntryIn_of_subset (entries_same_self h) (List.Subset.refl _)]
    simp

theorem all_same_self : ∀ {vs : List Value}, allPlain vs → ∀ v ∈ vs, v.same v
  | [], _ => by simp
  | w :: r, h => by
    rw [allPlain, Bool.and_eq_true] at h
    have hw := same_self h.1
    have hr := all_same_self h.2
    intro v hv
    rcases List.mem_cons.mp hv with rfl | hv
    · exact hw
    · exact hr v hv

theorem entries_same_self :
    ∀ {es : List (Value × Value)}, entriesPlain es → ∀ e ∈ es, e.1.same e.1 ∧ e.2.same e.2
  | [], _ => by simp
  | (k, w) :: r, h => by
    rw [entriesPlain, Bool.and_eq_true, Bool.and_eq_true] at h
    have hk := same_self h.1.1
    have hw := same_self h.1.2
    have hr := entries_same_self h.2
    intro e he
    rcases List.mem_cons.mp he with rfl | he
    · exact ⟨hk, hw⟩
    · exact hr e he

end

/-- Marking a value does not change what equals it. -/
theorem same_markedAs (v w : Value) (m : Mark) : v.same (w.markedAs m) = v.same w := by
  have hmark : ∀ n, (∀ items, v.same (.list items n) = v.same (.list items .own)) ∧
      (∀ items, v.same (.tuple items n) = v.same (.tuple items .own)) ∧
      (∀ items, v.same (.set items n) = v.same (.set items .own)) ∧
      (∀ entries, v.same (.map entries n) = v.same (.map entries .own)) ∧
      (∀ d, v.same (.date d n) = v.same (.date d .own)) ∧
      ∀ t, v.same (.datetime t n) = v.same (.datetime t .own) := by
    intro n
    cases v <;> simp [same, sameNumber, asInt?]
  obtain ⟨hlist, htuple, hset, hmap, hdate, hdatetime⟩ := hmark m
  unfold markedAs
  split
  · exact hlist _
  · exact htuple _
  · exact hset _
  · exact hmap _
  · exact hdate _
  · exact hdatetime _
  · rfl

/-- Only null equals null. -/
theorem same_null (v : Value) : v.same .null = true ↔ v = .null := by
  cases v <;> simp [same, sameNumber, asInt?]

/-- A text equals that text only. -/
theorem text_same_iff (s : String) (v : Value) : (text s).same v = true ↔ v = .text s := by
  cases v with
  | text r => rw [same, beq_iff_eq, text.injEq, eq_comm]
  | _ => simp [same, sameNumber, asInt?]

/-- A list of texts tells the texts. -/
theorem ofTexts_injective : Function.Injective ofTexts := by
  intro texts texts' h
  rw [ofTexts, ofTexts, ofList, ofList] at h
  exact List.map_injective_iff.mpr (fun _ _ => text.inj) (list.inj h).1

theorem same_text_iff (v : Value) (s : String) : v.same (text s) = true ↔ v = .text s := by
  cases v <;> simp [same, sameNumber, asInt?]

@[simp] theorem markedAs_text (m : Mark) (s : String) : (text s).markedAs m = .text s := rfl

end Value

end DbSchema
