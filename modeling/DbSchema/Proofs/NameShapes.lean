import DbSchema.Model.Children
import DbSchema.Proofs.Model.Faults
import DbSchema.Proofs.Names

/-!
# Shapes of name lists

Names without commas may be given as one text with commas between them, as several texts, or as one
list or tuple of texts: all of these are read as the same names, and so the operations that take
names do the same with them.  What is refused is refused for the first value that holds no names, or
for the first item of it that is no text, with an error of wrong type unless that would show an
integer that has too many digits to be written.

## Main definitions

* `NameShape xs values` — the arguments give the names `xs` in one of the shapes.
* `Value.HoldsNames` — text, null, or a list or tuple of texts.
* `offence?` — what keeps an argument from being read as names.
* `WronglyTyped values` — the arguments are refused with an error of wrong type.

## Main results

* `splitNames_of_shape` — every shape is read as the normalised names.
* `splitNames_append` — arguments are read one after the other.
* `splitNames_isOk_iff`, `wronglyTyped_iff` — which arguments are read, and how the others are
  refused.
* `nameShapes_agree` — these together, with the operations that take names.
-/

namespace DbSchema

open Text

/-! ### Shapes -/

/-- The arguments give the names in one of the shapes. -/
inductive NameShape (xs : List String) : List Value → Prop
  | joined : NameShape xs [.text (",".intercalate xs)]
  | apart : NameShape xs (xs.map .text)
  | list (m : Mark) : NameShape xs [.list (xs.map .text) m]
  | tuple (m : Mark) : NameShape xs [.tuple (xs.map .text) m]

theorem splitNames_eq_of_gatherNames {values : List Value} {names : List String}
    (h : gatherNames values = .ok names) : splitNames values = .ok (normalizeNames names) := by
  rw [splitNames, h]
  rfl

/-- One argument alone. -/
theorem gatherNames_singleton (v : Value) : gatherNames [v] = namesOf v := by
  unfold gatherNames gatherNames
  cases namesOf v with
  | error r => rfl
  | ok names => simp [bind, Except.bind, pure, Except.pure]

/-- Several texts without commas. -/
theorem gatherNames_map_text {xs : List String} (h : ∀ x ∈ xs, ',' ∉ x.toList) :
    gatherNames (xs.map .text) = .ok xs := by
  induction xs with
  | nil => rfl
  | cons x r ih =>
    have hx : splitOn ',' x = [x] := by
      rw [splitOn, splitChars_of_not_mem (h x List.mem_cons_self), List.map_singleton,
        String.ofList_toList]
    rw [List.map_cons, gatherNames, namesOf, hx, ih fun y hy => h y (List.mem_cons_of_mem _ hy)]
    rfl

/-- Every shape is read as the normalised names. -/
theorem splitNames_of_shape {xs : List String} (h : ∀ x ∈ xs, ',' ∉ x.toList)
    {values : List Value} (hs : NameShape xs values) :
    splitNames values = .ok (normalizeNames xs) := by
  cases hs with
  | joined =>
    by_cases hne : xs = []
    · subst hne
      rfl
    · refine splitNames_eq_of_gatherNames ?_
      rw [gatherNames_singleton, namesOf, splitOn_intercalate hne h]
  | apart => exact splitNames_eq_of_gatherNames (gatherNames_map_text h)
  | list m => exact splitNames_texts xs m
  | tuple m =>
    refine splitNames_eq_of_gatherNames ?_
    rw [gatherNames_singleton, namesOf, textsOf_map_text]

/-! ### One argument after the other -/

theorem gatherNames_append {u v : List Value} {ns ms : List String} (hu : gatherNames u = .ok ns)
    (hv : gatherNames v = .ok ms) : gatherNames (u ++ v) = .ok (ns ++ ms) := by
  induction u generalizing ns with
  | nil =>
    cases hu
    exact hv
  | cons w r ih =>
    rw [gatherNames] at hu
    rw [List.cons_append, gatherNames]
    cases hw : namesOf w with
    | error e =>
      rw [hw] at hu
      cases hu
    | ok names =>
      cases hr : gatherNames r with
      | error e =>
        rw [hw, hr] at hu
        cases hu
      | ok more =>
        rw [hw, hr] at hu
        cases hu
        rw [ih hr, List.append_assoc]
        rfl

/-- Arguments are read one after the other. -/
theorem splitNames_append {u v : List Value} {ns ms : List String} (hu : splitNames u = .ok ns)
    (hv : splitNames v = .ok ms) : splitNames (u ++ v) = .ok (ns ++ ms) := by
  rw [splitNames] at hu hv
  cases hgu : gatherNames u with
  | error e =>
    rw [hgu] at hu
    cases hu
  | ok a =>
    cases hgv : gatherNames v with
    | error e =>
      rw [hgv] at hv
      cases hv
    | ok b =>
      rw [hgu] at hu
      rw [hgv] at hv
      cases hu
      cases hv
      rw [splitNames_eq_of_gatherNames (gatherNames_append hgu hgv), normalizeNames_append]

/-! ### Refusals -/

/-- Text, null, or a list or tuple of texts. -/
def Value.HoldsNames : Value → Prop
  | .text _ | .null => True
  | .list items _ | .tuple items _ => ∀ v ∈ items, ∃ s, v = .text s
  | _ => False

/-- The first item that is no text. -/
def firstNoText? (items : List Value) : Option Value := items.find? fun v => v.asText?.isNone

/-- What keeps an argument from being read as names: an item that is no text, or all of it. -/
def offence? : Value → Option Value
  | .text _ | .null => none
  | .list items _ | .tuple items _ => firstNoText? items
  | v => some v

theorem firstNoText?_eq_none_iff {items : List Value} :
    firstNoText? items = none ↔ ∀ v ∈ items, ∃ s, v = .text s := by
  rw [firstNoText?, List.find?_eq_none]
  refine forall₂_congr fun v _ => ?_
  cases v <;> simp [Value.asText?]

/-- An argument holds names exactly if nothing keeps it from being read. -/
theorem offence?_eq_none_iff {v : Value} : offence? v = none ↔ v.HoldsNames := by
  cases v with
  | text s => exact iff_of_true rfl trivial
  | null => exact iff_of_true rfl trivial
  | list items m => exact firstNoText?_eq_none_iff
  | tuple items m => exact firstNoText?_eq_none_iff
  | _ => simp [offence?, Value.HoldsNames]

/-- A list is read up to its first item that is no text. -/
theorem textsOf_spec (items : List Value) :
    match firstNoText? items with
    | none => ∃ names, textsOf items = .ok names
    | some x => textsOf items = .error (.notName x) := by
  induction items with
  | nil => exact ⟨[], rfl⟩
  | cons v r ih =>
    cases v with
    | text s =>
      have hfirst : firstNoText? (.text s :: r) = firstNoText? r := rfl
      rw [hfirst]
      cases hr : firstNoText? r with
      | none =>
        rw [hr] at ih
        obtain ⟨names, hnames⟩ := ih
        exact ⟨s :: names, by rw [textsOf, hnames]; rfl⟩
      | some x =>
        rw [hr] at ih
        dsimp only
        rw [textsOf, ih]
        rfl
    | _ => rfl

/-- An argument is refused exactly for what keeps it from being read. -/
theorem namesOf_spec (v : Value) :
    match offence? v with
    | none => ∃ names, namesOf v = .ok names
    | some x => ∃ reason, namesOf v = .error reason ∧ ModelError.typeValue? reason = some x := by
  cases v with
  | text s => exact ⟨_, rfl⟩
  | null => exact ⟨_, rfl⟩
  | list items m | tuple items m =>
    have hitems := textsOf_spec items
    rw [offence?, namesOf]
    cases hf : firstNoText? items with
    | none =>
      rw [hf] at hitems
      exact hitems
    | some x =>
      rw [hf] at hitems
      exact ⟨_, hitems, rfl⟩
  | _ => exact ⟨_, rfl, rfl⟩

/-- Arguments are refused exactly for the first of them that is, and else they are gathered. -/
theorem gatherNames_spec (values : List Value) :
    match values.findSome? offence? with
    | none => ∃ names, gatherNames values = .ok names
    | some x => ∃ reason, gatherNames values = .error reason ∧
        ModelError.typeValue? reason = some x := by
  induction values with
  | nil => exact ⟨[], rfl⟩
  | cons v r ih =>
    -- The first argument is read to its end before the others are looked at.
    have hv := namesOf_spec v
    rw [List.findSome?_cons]
    cases hoff : offence? v with
    | some x =>
      rw [hoff] at hv
      obtain ⟨reason, hreason, hx⟩ := hv
      exact ⟨reason, by rw [gatherNames, hreason]; rfl, hx⟩
    | none =>
      rw [hoff] at hv
      obtain ⟨names, hnames⟩ := hv
      dsimp only
      cases hr : r.findSome? offence? with
      | some x =>
        rw [hr] at ih
        obtain ⟨reason, hreason, hx⟩ := ih
        exact ⟨reason, by rw [gatherNames, hnames, hreason]; rfl, hx⟩
      | none =>
        rw [hr] at ih
        obtain ⟨more, hmore⟩ := ih
        exact ⟨names ++ more, by rw [gatherNames, hnames, hmore]; rfl⟩

/-- Arguments are read exactly if each of them holds names. -/
theorem splitNames_isOk_iff {values : List Value} :
    (∃ names, splitNames values = .ok names) ↔ ∀ v ∈ values, v.HoldsNames := by
  have hspec := gatherNames_spec values
  simp only [← offence?_eq_none_iff, ← List.findSome?_eq_none_iff]
  cases hoff : values.findSome? offence? with
  | none =>
    rw [hoff] at hspec
    obtain ⟨names, hnames⟩ := hspec
    exact iff_of_true ⟨_, splitNames_eq_of_gatherNames hnames⟩ rfl
  | some x =>
    rw [hoff] at hspec
    obtain ⟨reason, hreason, -⟩ := hspec
    rw [splitNames, hreason]
    simp [Except.map]

/-- The arguments are refused with an error of wrong type, behind which no fault stands. -/
def WronglyTyped (values : List Value) : Prop :=
  ∃ reason, splitNames values = .error reason ∧ (ModelError.wrongType reason).fault? = none

/-- Arguments that hold no names are refused with such an error unless the first value in the way
cannot be shown. -/
theorem wronglyTyped_iff {values : List Value} :
    WronglyTyped values ↔
      (∃ v ∈ values, ¬ v.HoldsNames) ∧ ∀ x ∈ values.findSome? offence?, x.showFault? = none := by
  have hspec := gatherNames_spec values
  have hall : (∃ v ∈ values, ¬ v.HoldsNames) ↔ values.findSome? offence? ≠ none := by
    rw [ne_eq, List.findSome?_eq_none_iff]
    simp only [offence?_eq_none_iff]
    push Not
    rfl
  rw [hall]
  -- what decides is the first value that holds no names
  cases hoff : values.findSome? offence? with
  | none =>
    rw [hoff] at hspec
    obtain ⟨names, hnames⟩ := hspec
    refine iff_of_false ?_ fun h => h.1 rfl
    rintro ⟨reason, hreason, -⟩
    rw [splitNames_eq_of_gatherNames hnames] at hreason
    cases hreason
  | some x =>
    rw [hoff] at hspec
    obtain ⟨reason, hreason, hx⟩ := hspec
    have hsplit : splitNames values = .error reason := by rw [splitNames, hreason]; rfl
    have hfault : (ModelError.wrongType reason).fault? = x.showFault? := by
      show (ModelError.typeValue? reason).bind Value.showFault? = _
      rw [hx]
      rfl
    constructor
    · rintro ⟨reason', hreason', hnone⟩
      rw [hsplit] at hreason'
      cases hreason'
      refine ⟨Option.some_ne_none x, fun y hy => ?_⟩
      rw [← Option.mem_some_iff.mp hy, ← hfault]
      exact hnone
    · rintro ⟨-, h⟩
      exact ⟨reason, hsplit, hfault.trans (h x rfl)⟩

/-! ### The operations that take names -/

/-- What the operations do with arguments hangs on the names that these give. -/
theorem edits_eq_of_splitNames {u v : List Value} (h : splitNames u = splitNames v) :
    (∀ t, Edit.primaryKey t u = Edit.primaryKey t v) ∧
      (∀ t, Edit.addOptions t u = Edit.addOptions t v) ∧
      ∀ c, Edit.addConstraintFields c u = Edit.addConstraintFields c v := by
  have hnames : Edit.names u = Edit.names v := by rw [Edit.names, Edit.names, h]
  refine ⟨fun t => ?_, fun t => ?_, fun c => ?_⟩
  · rw [Edit.primaryKey, Edit.primaryKey, hnames]
  · rw [Edit.addOptions, Edit.addOptions, hnames]
  · rw [Edit.addConstraintFields, Edit.addConstraintFields, hnames]

/-- **All shapes of a list of names mean the same.** -/
theorem nameShapes_agree (xs : List String) (u v : List Value) :
    ((∀ x ∈ xs, ',' ∉ x.toList) → ∀ values, NameShape xs values →
        splitNames values = .ok (normalizeNames xs) ∧
        ∀ values', NameShape xs values' →
          (∀ t, Edit.primaryKey t values = Edit.primaryKey t values') ∧
          (∀ t, Edit.addOptions t values = Edit.addOptions t values') ∧
          ∀ c, Edit.addConstraintFields c values = Edit.addConstraintFields c values') ∧
      (∀ ns ms, splitNames u = .ok ns → splitNames v = .ok ms →
        splitNames (u ++ v) = .ok (ns ++ ms)) ∧
      (∀ names, splitNames u = .ok names →
        Normalised names ∧ ∀ m, splitNames [.list (names.map .text) m] = .ok names) ∧
      ((∃ names, splitNames u = .ok names) ↔ ∀ w ∈ u, w.HoldsNames) ∧
      (WronglyTyped u ↔ (∃ w ∈ u, ¬ w.HoldsNames) ∧
        ∀ x ∈ u.findSome? offence?, x.showFault? = none) := by
  refine ⟨fun hxs values hs => ⟨splitNames_of_shape hxs hs, fun values' hs' => ?_⟩,
    fun ns ms hu hv => splitNames_append hu hv, fun names h => ?_, splitNames_isOk_iff,
    wronglyTyped_iff⟩
  · refine edits_eq_of_splitNames ?_
    rw [splitNames_of_shape hxs hs, splitNames_of_shape hxs hs']
  · have hn := normalised_of_splitNames h
    exact ⟨hn, fun m => by rw [splitNames_texts, normalizeNames_eq_self hn]⟩

/-- Names with blanks around them, one of which is blank. -/
def spacedNames : List String := [" id", "n\u00e9v\u2003", "  "]

theorem nameShapes_agree_spacedNames :
    let joined : List Value := [.text " id,n\u00e9v\u2003,  "]
    let options : List Value := [.null, .list [.text "COMMENT 'a,b' "] .own]
    (∀ x ∈ spacedNames, ',' ∉ x.toList) ∧ NameShape spacedNames joined ∧
      splitNames joined = .ok ["id", "n\u00e9v"] ∧
      Edit.primaryKey ⟨0⟩ joined =
        Edit.primaryKey ⟨0⟩ [.tuple (spacedNames.map .text) .own] ∧
      splitNames options = .ok ["COMMENT 'a,b'"] ∧
      splitNames (joined ++ options) = .ok ["id", "n\u00e9v", "COMMENT 'a,b'"] ∧
      splitNames [.list [.text "COMMENT 'a,b'"] .own] = .ok ["COMMENT 'a,b'"] := by
  intro joined options
  have hcommas : ∀ x ∈ spacedNames, ',' ∉ x.toList := by decide
  have hshape : NameShape spacedNames joined := .joined
  obtain ⟨hshapes, happend, -⟩ := nameShapes_agree spacedNames joined options
  obtain ⟨-, -, hfixed, -⟩ := nameShapes_agree spacedNames options []
  obtain ⟨hjoined, hsame⟩ := hshapes hcommas joined hshape
  have hnames : normalizeNames spacedNames = ["id", "n\u00e9v"] := rfl
  have hoptions : splitNames options = .ok ["COMMENT 'a,b'"] := rfl
  rw [hnames] at hjoined
  exact ⟨hcommas, hshape, hjoined, (hsame _ (.tuple .own)).1 _, hoptions,
    happend _ _ hjoined hoptions, (hfixed _ hoptions).2 .own⟩

/-- The least integer of 4301 digits. -/
def wideInteger : Int := Int.pow 10 4300

theorem isLongInteger_wideInteger : isLongInteger wideInteger := by decide +kernel

theorem fault?_notName_of_long {i : Int} (h : isLongInteger i) :
    (ModelError.wrongType (.notName (.int i))).fault? = some .unwritableInteger := by
  refine ModelError.fault?_eq_some_iff.mpr (.inr ⟨.int i, rfl, ?_⟩)
  rw [Value.showFault?, Value.walkFault?, if_pos h]

/-- A list with an integer of 4301 digits is refused, but not with an error of wrong type. -/
theorem not_wronglyTyped_wideInteger :
    splitNames [.list [.int wideInteger] .own] = .error (.notName (.int wideInteger)) ∧
      ¬ WronglyTyped [.list [.int wideInteger] .own] ∧
      ¬ ∀ values, WronglyTyped values ↔ ∃ v ∈ values, ¬ v.HoldsNames := by
  have hread : splitNames [.list [.int wideInteger] .own] =
      .error (.notName (.int wideInteger)) := rfl
  have hnot : ¬ WronglyTyped [.list [.int wideInteger] .own] := by
    rintro ⟨reason, hreason, hnone⟩
    rw [hread] at hreason
    cases hreason
    rw [fault?_notName_of_long isLongInteger_wideInteger] at hnone
    cases hnone
  refine ⟨hread, hnot, fun h => hnot ((h _).mpr ⟨_, List.mem_cons_self, fun hitems => ?_⟩)⟩
  obtain ⟨s, hs⟩ := hitems _ List.mem_cons_self
  cases hs

end DbSchema
