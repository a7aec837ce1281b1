import DbSchema.Proofs.Model.Forms

/-!
# Faults of forms

The check of a form refuses what does not have it, with an error that can be reported.  There are
two ways around this: the list of a size has an infinity before anything else that is no integer, or
the refusal would show an integer that has too many digits to be written.

## Main definitions

* `InfiniteFirst vs` — the first of the values that is no integer is an infinity.
* `AttributeForm.Escapes form v f` — the check of the form runs into the fault `f` on `v`.

## Main results

* `eq_of_showFault?` — only an integer of too many digits keeps a value out of messages.
* `parseSize_fault_iff` — when reading a size runs into a fault.
* `AttributeForm.escapes_iff` — a fault is behind the refusal of a value exactly in these two ways.
-/

namespace DbSchema

/-! ### Values without a text -/

/-- Only an integer keeps a value out of messages, as a collection inside itself is cut there. -/
theorem walkFaults_none {f : Fault} :
    (∀ inside v, Value.walkFault? none inside v = some f → f = .unwritableInteger) ∧
    (∀ inside es, Value.walkFaultEntries none inside es = some f → f = .unwritableInteger) ∧
    ∀ inside vs, Value.walkFaultAll none inside vs = some f → f = .unwritableInteger := by
  -- the first case is the integer of too many digits, all others look at parts or at nothing
  apply Value.walkFault?.mutual_induct
  case case1 =>
    intro inside i hlong h
    rw [Value.walkFault?, if_pos hlong] at h
    exact (Option.some.inj h).symm
  case case2 =>
    intro inside i hshort h
    rw [Value.walkFault?, if_neg hshort] at h
    cases h
  case case3 | case5 | case7 | case9 =>
    intro inside items m hin h
    rw [Value.walkFault?, if_pos hin] at h
    cases h
  case case4 | case6 | case8 | case10 =>
    intro inside items m hout ih h
    rw [Value.walkFault?, if_neg hout] at h
    exact ih h
  case case11 =>
    intro v inside hint hlist htuple hset hmap h
    rw [Value.walkFault?.eq_6 _ _ _ hint hlist htuple hset hmap] at h
    cases h
  case case12 | case14 =>
    intro inside h
    cases h
  case case13 =>
    intro inside v r ihv ihr h
    rw [Value.walkFaultAll, Option.or_eq_some_iff] at h
    obtain h | ⟨-, h⟩ := h
    · exact ihv h
    · exact ihr h
  case case15 =>
    intro inside k v r ihk ihv ihr h
    rw [Value.walkFaultEntries, Option.or_eq_some_iff, Option.or_eq_some_iff] at h
    obtain (h | ⟨-, h⟩) | ⟨-, h⟩ := h
    · exact ihk h
    · exact ihv h
    · exact ihr h

theorem eq_of_showFault? {v : Value} {f : Fault} (h : v.showFault? = some f) :
    f = .unwritableInteger := walkFaults_none.1 [] v h

/-- What is behind an error is the fault that it is, or that of a value that it shows. -/
theorem ModelError.fault?_eq_some_iff {e : ModelError} {f : Fault} :
    e.fault? = some f ↔ e = .fault f ∨ ∃ w, e.value? = some w ∧ w.showFault? = some f := by
  cases e with
  | fault g => simp [fault?, value?]
  | _ => simp [fault?, Option.bind_eq_some_iff]

/-! ### Sizes -/

theorem integerOfText_ne_infinite (v : Value) (s : String) :
    integerOfText v s ≠ .error .infiniteInteger := by
  rw [integerOfText]
  split
  · simp
  · split <;> simp

/-- Only an infinity has no integer part in the way that a size does not expect. -/
theorem eq_infinite_of_toInteger {v : Value} (h : v.toInteger = .error .infiniteInteger) :
    ∃ negative, v = .float (.infinite negative) := by
  cases v with
  | float x =>
    cases x with
    | infinite negative => exact ⟨negative, rfl⟩
    | _ => cases h
  | text s => exact absurd h (integerOfText_ne_infinite _ s)
  | bytes bs =>
    rw [Value.toInteger] at h
    split at h
    · exact absurd h (integerOfText_ne_infinite _ _)
    · cases h
  | _ => cases h

/-- The first of the values that is no integer is an infinity. -/
def InfiniteFirst (vs : List Value) : Prop :=
  ∃ before negative after, vs = before ++ .float (.infinite negative) :: after ∧
    ∀ w ∈ before, ∃ i, w.toInteger = .ok i

theorem InfiniteFirst.mem {vs : List Value} (h : InfiniteFirst vs) :
    ∃ negative, .float (.infinite negative) ∈ vs := by
  obtain ⟨before, negative, after, rfl, -⟩ := h
  exact ⟨negative, List.mem_append_right before List.mem_cons_self⟩

theorem not_infiniteFirst_nil : ¬ InfiniteFirst [] := by
  rintro ⟨before, negative, after, h, -⟩
  cases before <;> cases h

theorem infiniteFirst_cons {v : Value} {r : List Value} :
    InfiniteFirst (v :: r) ↔ (∃ negative, v = .float (.infinite negative)) ∨
      (∃ i, v.toInteger = .ok i) ∧ InfiniteFirst r := by
  constructor
  · rintro ⟨_ | ⟨w, before⟩, negative, after, heq, hbefore⟩
    · cases heq
      exact .inl ⟨negative, rfl⟩
    · cases heq
      rw [List.forall_mem_cons] at hbefore
      exact .inr ⟨hbefore.1, before, negative, after, rfl, hbefore.2⟩
  · rintro (⟨negative, rfl⟩ | ⟨hv, before, negative, after, rfl, hbefore⟩)
    · exact ⟨[], negative, r, rfl, List.forall_mem_nil _⟩
    · exact ⟨v :: before, negative, after, rfl, List.forall_mem_cons.mpr ⟨hv, hbefore⟩⟩

/-- The parts of a size run into a fault when the first that is no integer is an infinity. -/
theorem sizeParts_fault_iff {whole : Value} {vs : List Value} {f : Fault} :
    sizeParts whole vs = .error (.fault f) ↔ f = .infiniteInteger ∧ InfiniteFirst vs := by
  induction vs with
  | nil => simp [sizeParts, not_infiniteFirst_nil]
  | cons v r ih =>
    rw [infiniteFirst_cons, sizeParts]
    split
    · next i hv =>
      have hfinite : ¬ ∃ negative, v = .float (.infinite negative) := by
        rintro ⟨negative, rfl⟩
        cases hv
      have hinteger : ∃ i, v.toInteger = .ok i := ⟨i, hv⟩
      rw [or_iff_right hfinite, and_iff_right hinteger, ← ih]
      rcases sizeParts whole r with e | is
      · exact Iff.rfl
      · simp [Except.map]
    · next hv =>
      have hinfinite := eq_infinite_of_toInteger hv
      simp [hinfinite, eq_comm]
    · next x hother hv =>
      refine iff_of_false (by simp) ?_
      rintro ⟨-, ⟨negative, rfl⟩ | ⟨⟨i, hi⟩, -⟩⟩
      · cases hv
        exact hother rfl
      · cases hv.symm.trans hi

/-- **Only a list with an infinity** makes a size run into a fault. -/
theorem parseSize_fault_iff {v : Value} {f : Fault} :
    parseSize v = .error (.fault f) ↔ f = .infiniteInteger ∧ ∃ items m,
      (v = .list items m ∨ v = .tuple items m) ∧ InfiniteFirst items := by
  unfold parseSize
  split
  · simp
  · simp
  · next s =>
    refine iff_of_false ?_ (by simp)
    split
    · simp
    -- the parts of a text are texts
    · intro h
      obtain ⟨negative, hmem⟩ := (sizeParts_fault_iff.mp h).2.mem
      obtain ⟨s, -, hs⟩ := List.mem_map.mp hmem
      cases hs
  · next items m =>
    rw [sizeParts_fault_iff]
    simp
  · next items m =>
    rw [sizeParts_fault_iff]
    simp
  · next hlist htuple =>
    refine iff_of_false (by simp) ?_
    rintro ⟨-, items, m, rfl | rfl, -⟩
    · exact hlist items m rfl
    · exact htuple items m rfl

/-! ### Forms -/

/-- The check of the form runs into a fault on the value: it is a size, and the first item of its
list that is no integer is an infinity, or its refusal shows an integer of too many digits. -/
inductive AttributeForm.Escapes : AttributeForm → Value → Fault → Prop
  | infiniteSize {v : Value} {items : List Value} {m : Mark}
      (hitems : v = .list items m ∨ v = .tuple items m) (hfirst : InfiniteFirst items) :
      Escapes .size v .infiniteInteger
  | longInteger {form : AttributeForm} {v w : Value} {e : ModelError}
      (hcheck : form.check v = .error e) (hshown : e.value? = some w)
      (hlong : w.showFault? = some .unwritableInteger) : Escapes form v .unwritableInteger

/-- The only form whose check is refused with a fault is that of a size. -/
theorem AttributeForm.check_eq_fault_iff {form : AttributeForm} {v : Value} {f : Fault} :
    form.check v = .error (.fault f) ↔ form = .size ∧ parseSize v = .error (.fault f) := by
  cases form with
  | text what =>
    refine iff_of_false (fun h => ?_) (by simp)
    cases v <;> cases h
  | names =>
    refine iff_of_false (fun h => ?_) (by simp)
    rw [check, nameList] at h
    rcases hs : splitNames [v] with r | ns <;> rw [hs] at h <;> cases h
  | indexKind =>
    refine iff_of_false (fun h => ?_) (by simp)
    rw [check] at h
    split at h <;> cases h
  | constraintKind =>
    refine iff_of_false (fun h => ?_) (by simp)
    rw [check] at h
    rcases hk : ConstraintSpec.readKind v with e | k <;> rw [hk] at h <;> cases h
    unfold ConstraintSpec.readKind at hk
    split at hk
    · cases hk
    · cases hk
    · split at hk <;> cases hk
  | size =>
    rw [check, and_iff_right rfl]
    rcases parseSize v with e | ns
    · exact ⟨fun h => congrArg Except.error (Except.error.inj h), fun h =>
        congrArg Except.error (Except.error.inj h)⟩
    · simp [Except.map]

/-- **The faults behind the refusals of a form.** -/
theorem AttributeForm.escapes_iff {form : AttributeForm} {v : Value} {f : Fault} :
    form.Escapes v f ↔ ∃ e, form.check v = .error e ∧ e.fault? = some f := by
  constructor
  · intro h
    cases h with
    | infiniteSize hitems hfirst =>
      have hsize := parseSize_fault_iff.mpr ⟨rfl, _, _, hitems, hfirst⟩
      exact ⟨_, check_eq_fault_iff.mpr ⟨rfl, hsize⟩, rfl⟩
    | longInteger hcheck hshown hlong =>
      exact ⟨_, hcheck, ModelError.fault?_eq_some_iff.mpr (.inr ⟨_, hshown, hlong⟩)⟩
  · rintro ⟨e, hcheck, hf⟩
    obtain rfl | ⟨w, hshown, hw⟩ := ModelError.fault?_eq_some_iff.mp hf
    · obtain ⟨rfl, hsize⟩ := check_eq_fault_iff.mp hcheck
      obtain ⟨rfl, items, m, hitems, hfirst⟩ := parseSize_fault_iff.mp hsize
      exact .infiniteSize hitems hfirst
    · cases eq_of_showFault? hw
      exact .longInteger hcheck hshown hw

end DbSchema
