import DbSchema.Proofs.Model.Faults
import DbSchema.Proofs.Numbers
import DbSchema.Source.Clustering

/-!
# Reading clustering columns

The columns that a table is clustered by are read from a list, from a JSON text or from names
between commas.  What is read depends on the reported value alone, since neither the value nor a
JSON text holds objects of the model.  A text cannot be read only if it stands between brackets and
holds an integer that is too long to be read; what was read of it can always be shown again.

## Main definitions

* `Json.Gives Q r` — a reading gives something with a property, unless it is refused.
* `Json.IsValue v` — a JSON text may give the value `v`.
* `clusterNames v` — the columns that a value names.

## Main results

* `Value.toText_congr` — a value without objects has the same text in every model.
* `Json.gives_parse` — a JSON text gives such a value, and is refused for being malformed or for an
  integer that is too long.
* `clusteringColumns_eq` — the columns that a value without objects names, in every model.
* `clusteringColumns_text`, `namesOfText_eq_error_iff` — how a text is read, and which cannot be.
* `fault_of_clusteringColumns` — why a value cannot be read.
* `Json.parse_longList` — a list with an integer that is too long cannot be read.
-/

namespace DbSchema

/-! ### Values without objects -/

namespace Value

mutual

/-- A value without objects is shown in one way. -/
theorem displayIn_congr (shown shown' : Ref → String) :
    ∀ (inside : List Mark) (v : Value), v.refs = [] →
      v.displayIn shown inside = v.displayIn shown' inside
  | _, .null, _ | _, .bool _, _ | _, .int _, _ | _, .float _, _ | _, .text _, _
  | _, .bytes _, _ | _, .date .., _ | _, .datetime .., _ | _, .indexKind _, _
  | _, .constraintKind _, _ => by simp only [displayIn]
  | _, .object r, h => by
    rw [refs] at h
    cases h
  | inside, .list items m, h => by
    rw [refs] at h
    rw [displayIn, displayIn, displayAll_congr shown shown' _ items h]
  | inside, .set items m, h => by
    rw [refs] at h
    rw [displayIn, displayIn, displayAll_congr shown shown' _ items h]
  | inside, .map entries m, h => by
    rw [refs] at h
    rw [displayIn, displayIn, displayEntries_congr shown shown' _ entries h]
  | inside, .tuple items m, h => by
    rw [refs] at h
    -- a tuple with a single value is shown in another way, but with the same parts
    have hall := displayAll_congr shown shown' (m :: inside) items h
    rw [displayIn.eq_def, displayIn.eq_def]
    dsimp only
    split
    · rfl
    · split
      · simp only [displayAll, List.cons.injEq, and_true] at hall
        rw [hall]
      · rw [hall]

theorem displayAll_congr (shown shown' : Ref → String) :
    ∀ (inside : List Mark) (vs : List Value), refsAll vs = [] →
      displayAll shown inside vs = displayAll shown' inside vs
  | _, [], _ => by rw [displayAll, displayAll]
  | inside, v :: r, h => by
    rw [refsAll, List.append_eq_nil_iff] at h
    rw [displayAll, displayAll, displayIn_congr shown shown' inside v h.1,
      displayAll_congr shown shown' inside r h.2]

theorem displayEntries_congr (shown shown' : Ref → String) :
    ∀ (inside : List Mark) (es : List (Value × Value)), refsEntries es = [] →
      displayEntries shown inside es = displayEntries shown' inside es
  | _, [], _ => by rw [displayEntries, displayEntries]
  | inside, (k, v) :: r, h => by
    rw [refsEntries, List.append_eq_nil_iff, List.append_eq_nil_iff] at h
    rw [displayEntries, displayEntries, displayIn_congr shown shown' inside k h.1.1,
      displayIn_congr shown shown' inside v h.1.2, displayEntries_congr shown shown' inside r h.2]

end

/-- **A value without objects has the same text in every model.** -/
theorem plain_congr (shown shown' : Ref → String) {v : Value} (h : v.refs = []) :
    v.plain shown = v.plain shown' := by
  have hdisplay : v.display shown = v.display shown' := displayIn_congr shown shown' [] v h
  cases v <;> simp only [plain] <;> exact hdisplay

theorem toText_congr (shown shown' : Ref → String) {v : Value} (h : v.refs = []) :
    v.toText shown = v.toText shown' := by
  rw [toText, toText, plain_congr shown shown' h]

/-! ### Collections of such values -/

theorem refsAll_eq_nil {vs : List Value} (h : ∀ v ∈ vs, v.refs = []) : refsAll vs = [] := by
  induction vs with
  | nil => rw [refsAll]
  | cons v r ih =>
    rw [refsAll, h v List.mem_cons_self, ih fun w hw => h w (List.mem_cons_of_mem v hw)]
    rfl

theorem refsEntries_eq_nil {es : List (Value × Value)} (hkeys : ∀ e ∈ es, e.1.refs = [])
    (hvalues : ∀ e ∈ es, e.2.refs = []) : refsEntries es = [] := by
  induction es with
  | nil => rw [refsEntries]
  | cons e r ih =>
    rw [refsEntries, hkeys e List.mem_cons_self, hvalues e List.mem_cons_self,
      ih (fun w hw => hkeys w (List.mem_cons_of_mem e hw))
        fun w hw => hvalues w (List.mem_cons_of_mem e hw)]
    rfl

variable {endless : Option Fault} {inside : List Mark}

theorem walkFaultAll_eq_none {vs : List Value}
    (h : ∀ v ∈ vs, v.walkFault? endless inside = none) : walkFaultAll endless inside vs = none := by
  induction vs with
  | nil => rw [walkFaultAll]
  | cons v r ih =>
    rw [walkFaultAll, h v List.mem_cons_self, ih fun w hw => h w (List.mem_cons_of_mem v hw)]
    rfl

theorem walkFaultEntries_eq_none {es : List (Value × Value)}
    (hkeys : ∀ e ∈ es, e.1.walkFault? endless inside = none)
    (hvalues : ∀ e ∈ es, e.2.walkFault? endless inside = none) :
    walkFaultEntries endless inside es = none := by
  induction es with
  | nil => rw [walkFaultEntries]
  | cons e r ih =>
    rw [walkFaultEntries, hkeys e List.mem_cons_self, hvalues e List.mem_cons_self,
      ih (fun w hw => hkeys w (List.mem_cons_of_mem e hw))
        fun w hw => hvalues w (List.mem_cons_of_mem e hw)]
    rfl

end Value

/-! ### JSON texts -/

namespace Json

open Number

/-- The values that JSON texts may give: no objects, and no integers without a text. -/
inductive IsValue : Value → Prop
  | null : IsValue .null
  | bool (b : Bool) : IsValue (.bool b)
  | int {i : Int} (h : ¬ isLongInteger i) : IsValue (.int i)
  | float (x : Binary64) : IsValue (.float x)
  | text (s : String) : IsValue (.text s)
  | list {vs : List Value} (h : ∀ v ∈ vs, IsValue v) : IsValue (.ofList vs)
  | map {es : List (Value × Value)} (hkeys : ∀ e ∈ es, IsValue e.1)
    (hvalues : ∀ e ∈ es, IsValue e.2) : IsValue (.map es .own)

/-- Such a value holds no objects. -/
theorem IsValue.refs {v : Value} (h : IsValue v) : v.refs = [] := by
  induction h with
  | list _ ih => rw [Value.ofList, Value.refs, Value.refsAll_eq_nil ih]
  | map _ _ hkeys hvalues => rw [Value.refs, Value.refsEntries_eq_nil hkeys hvalues]
  | _ => simp only [Value.refs]

/-- Such a value has a text, wherever it stands. -/
theorem IsValue.walkFault? {v : Value} (h : IsValue v) (inside : List Mark) :
    v.walkFault? none inside = none := by
  induction h generalizing inside with
  | int h => rw [Value.walkFault?, if_neg h]
  | list _ ih =>
    rw [Value.ofList, Value.walkFault?, Value.walkFaultAll_eq_none fun v hv => ih v hv _]
    exact ite_self none
  | map _ _ hkeys hvalues =>
    rw [Value.walkFault?, Value.walkFaultEntries_eq_none (fun e he => hkeys e he _)
      fun e he => hvalues e he _]
    exact ite_self none
  | _ => simp [Value.walkFault?]

/-- Storing a value keeps the entries of an object such values. -/
theorem isValue_store {k v : Value} {es : List (Value × Value)} (hk : IsValue k) (hv : IsValue v)
    (h : ∀ e ∈ es, IsValue e.1 ∧ IsValue e.2) :
    ∀ e ∈ Value.store k v es, IsValue e.1 ∧ IsValue e.2 := by
  induction es with
  | nil => simpa [Value.store] using ⟨hk, hv⟩
  | cons e r ih =>
    obtain ⟨he, hr⟩ := List.forall_mem_cons.mp h
    rw [Value.store]
    split
    · exact List.forall_mem_cons.mpr ⟨⟨he.1, hv⟩, hr⟩
    · exact List.forall_mem_cons.mpr ⟨he, ih hr⟩

variable {α β : Type} {Q : α → Prop} {R : β → Prop} {r : Except Refusal α}
  {f : α → Except Refusal β}

/-- The reading gives something with the property, or is refused for being malformed or for an
integer that is too long. -/
def Gives (Q : α → Prop) : Except Refusal α → Prop
  | .ok a => Q a
  | .error .malformed => True
  | .error (.fault e) => ∃ n, maxDigits < n ∧ e = .longInteger n

theorem Gives.bind (h : Gives Q r) (hf : ∀ a, Q a → Gives R (f a)) : Gives R (r >>= f) := by
  rcases r with (_ | e) | a
  · trivial
  · exact h
  · exact hf a h

theorem Gives.map {g : α → β} (h : Gives Q r) (hg : ∀ a, Q a → R (g a)) : Gives R (r.map g) := by
  rcases r with (_ | e) | a
  · trivial
  · exact h
  · exact hg a h

theorem gives_parseString (fuel : Nat) (cs : List Char) :
    Gives (fun _ => True) (parseString fuel cs) := by
  induction fuel generalizing cs with
  | zero => rw [parseString.eq_def]; trivial
  | succ fuel ih =>
    rcases cs with _ | ⟨c, r⟩
    · rw [parseString.eq_def]
      trivial
    rw [parseString.eq_def]
    dsimp only
    have hrest : ∀ x r, Gives (fun _ => True)
        ((parseString fuel r).map fun e : List Char × List Char => (x :: e.1, e.2)) :=
      fun x r => (ih r).map fun _ _ => trivial
    split
    · trivial
    split
    · trivial
    split
    · split
      · split
        · exact hrest _ _
        · trivial
      · split
        · exact hrest _ _
        · trivial
      · trivial
    · exact hrest _ _

theorem gives_parseNumber (cs : List Char) : Gives (fun e => IsValue e.1) (parseNumber cs) := by
  unfold parseNumber
  dsimp only
  split
  · trivial
  split
  · split
    · next h => exact ⟨_, h, rfl⟩
    · split
      · next n hread => exact .int (not_isLongInteger_of_readInteger? hread)
      · trivial
  · split
    · exact .float _
    · trivial

theorem isValue_of_word? {cs : List Char} {e : Value × List Char} (h : word? cs = some e) :
    IsValue e.1 := by
  obtain ⟨w, hw, hfound⟩ := List.exists_of_findSome?_eq_some h
  obtain ⟨rest, -, rfl⟩ := Option.map_eq_some_iff.mp hfound
  simp only [words, List.mem_cons, List.not_mem_nil, or_false] at hw
  rcases hw with rfl | rfl | rfl | rfl | rfl | rfl <;> constructor

section Parts

variable {fuel : Nat}

theorem gives_parseValue_succ
    (hitems : ∀ cs, Gives (fun e => ∀ v ∈ e.1, IsValue v) (parseItems fuel cs))
    (hentries : ∀ cs, Gives (fun r => ∀ e ∈ r.1, IsValue e.1 ∧ IsValue e.2)
      (parseEntries fuel [] cs)) (cs : List Char) :
    Gives (fun e => IsValue e.1) (parseValue (fuel + 1) cs) := by
  rw [parseValue.eq_def]
  dsimp only
  split
  · exact (gives_parseString _ _).map fun _ _ => .text _
  · split
    · exact .list fun v hv => absurd hv List.not_mem_nil
    · exact (hitems _).map fun _ he => .list he
  · split
    · exact IsValue.map (fun e he => absurd he List.not_mem_nil)
        fun e he => absurd he List.not_mem_nil
    · refine (hentries _).map fun _ he => ?_
      exact .map (fun e h => (he e h).1) fun e h => (he e h).2
  · split
    · next h => exact isValue_of_word? h
    · exact gives_parseNumber _

theorem gives_parseItems_succ (hvalue : ∀ cs, Gives (fun e => IsValue e.1) (parseValue fuel cs))
    (hitems : ∀ cs, Gives (fun e => ∀ v ∈ e.1, IsValue v) (parseItems fuel cs)) (cs : List Char) :
    Gives (fun e => ∀ v ∈ e.1, IsValue v) (parseItems (fuel + 1) cs) := by
  rw [parseItems]
  refine (hvalue cs).bind fun e he => ?_
  dsimp only
  split
  · simpa only [pure, Except.pure, Gives, List.mem_singleton, forall_eq] using he
  · refine (hitems _).bind fun e' he' => ?_
    exact List.forall_mem_cons.mpr ⟨he, he'⟩
  · trivial

theorem gives_parseEntries_succ
    (hvalue : ∀ cs, Gives (fun e => IsValue e.1) (parseValue fuel cs))
    (hentries : ∀ es cs, (∀ e ∈ es, IsValue e.1 ∧ IsValue e.2) →
      Gives (fun r => ∀ e ∈ r.1, IsValue e.1 ∧ IsValue e.2) (parseEntries fuel es cs))
    {es : List (Value × Value)} (hes : ∀ e ∈ es, IsValue e.1 ∧ IsValue e.2) (cs : List Char) :
    Gives (fun r => ∀ e ∈ r.1, IsValue e.1 ∧ IsValue e.2) (parseEntries (fuel + 1) es cs) := by
  rw [parseEntries.eq_def]
  dsimp only
  split
  · refine (gives_parseString _ _).bind fun key _ => ?_
    split
    · refine (hvalue _).bind fun e he => ?_
      have hstore := isValue_store (.text (String.ofList key.1)) he hes
      split
      · exact hstore
      · exact hentries _ _ hstore
      · trivial
    · trivial
  · trivial

end Parts

/-- The parts of a JSON text give such values. -/
theorem gives_parts (fuel : Nat) :
    (∀ cs, Gives (fun e => IsValue e.1) (parseValue fuel cs)) ∧
    (∀ cs, Gives (fun e => ∀ v ∈ e.1, IsValue v) (parseItems fuel cs)) ∧
    ∀ es cs, (∀ e ∈ es, IsValue e.1 ∧ IsValue e.2) →
      Gives (fun r => ∀ e ∈ r.1, IsValue e.1 ∧ IsValue e.2) (parseEntries fuel es cs) := by
  induction fuel with
  | zero =>
    refine ⟨fun cs => ?_, fun cs => ?_, fun es cs _ => ?_⟩
    · rw [parseValue]; trivial
    · rw [parseItems]; trivial
    · rw [parseEntries]; trivial
  | succ fuel ih =>
    obtain ⟨hvalue, hitems, hentries⟩ := ih
    have hempty := fun cs => hentries [] cs fun e he => absurd he List.not_mem_nil
    exact ⟨gives_parseValue_succ hitems hempty, gives_parseItems_succ hvalue hitems,
      fun es cs hes => gives_parseEntries_succ hvalue hentries hes cs⟩

/-- **A JSON text gives a value of these kinds, and is refused for being malformed or for an integer
that is too long.** -/
theorem gives_parse (s : String) : Gives IsValue (parse s) := by
  rw [parse]
  refine ((gives_parts _).1 _).bind fun e he => ?_
  dsimp only
  by_cases hrest : (dropSpace e.2).isEmpty
  · rw [if_pos hrest]
    exact he
  · rw [if_neg hrest]
    trivial

/-- The text of a list with one integer of so many digits. -/
def longList (n : Nat) : String := String.ofList ('[' :: (List.replicate n '1' ++ [']']))

/-- A list with an integer that is too long cannot be read. -/
theorem parse_longList {n : Nat} (h : maxDigits < n) :
    parse (longList n) = .error (.fault (.longInteger n)) := by
  obtain ⟨m, rfl⟩ : ∃ m, n = m + 1 := ⟨n - 1, by omega⟩
  have hnumber : parseNumber (List.replicate (m + 1) '1' ++ [']']) =
      .error (.fault (.longInteger (m + 1))) := by
    have hwhole : wholeOf (List.replicate (m + 1) '1' ++ [']']) = List.replicate (m + 1) '1' := by
      rw [List.replicate_succ, List.cons_append]
      change ('1' :: (List.replicate m '1' ++ [']'])).takeWhile Char.isDigit = _
      rw [← List.cons_append, ← List.replicate_succ, List.takeWhile_append_of_pos (by simp)]
      simp
    have hsign : ((List.replicate (m + 1) '1' ++ [']']).take 1).filter (· == '-') = [] := by
      rw [List.replicate_succ]
      rfl
    unfold parseNumber
    simp only [hsign, List.length_nil, List.drop_zero, hwhole]
    rw [List.drop_left, if_neg (by simp), if_pos ⟨rfl, rfl⟩, List.length_replicate, if_pos h]
  have hvalue : ∀ fuel, parseValue (fuel + 1) (List.replicate (m + 1) '1' ++ [']']) =
      .error (.fault (.longInteger (m + 1))) := by
    intro fuel
    rw [← hnumber, List.replicate_succ, List.cons_append, parseValue.eq_def]
    rfl
  have hitems : ∀ fuel, parseItems (fuel + 2) (List.replicate (m + 1) '1' ++ [']']) =
      .error (.fault (.longInteger (m + 1))) := by
    intro fuel
    rw [parseItems, hvalue]
    rfl
  have hlist : parseValue (2 * (m + 3) + 2) ('[' :: (List.replicate (m + 1) '1' ++ [']'])) =
      .error (.fault (.longInteger (m + 1))) := by
    rw [parseValue.eq_def]
    change (parseItems _ (List.replicate (m + 1) '1' ++ [']'])).map _ = _
    rw [show 2 * (m + 3) + 1 = (2 * m + 5) + 2 by omega, hitems]
    rfl
  have hspace : ∀ r, dropSpace ('[' :: r) = '[' :: r := fun _ => rfl
  have hlength : ('[' :: (List.replicate (m + 1) '1' ++ [']'])).length = m + 3 := by simp
  rw [parse, longList, String.toList_ofList]
  dsimp only
  rw [hspace, hlength, hlist]
  rfl

end Json

/-! ### Clustering columns -/

namespace Source

variable {shown shown' : Ref → String} {v : Value}

/-- Nothing is read from a value that does not count as true, the items are read from a list, and
the text is read from everything else. -/
theorem clusteringColumns_cases (shown : Ref → String) (v : Value) :
    clusteringColumns shown v = .ok [] ∨
      (∃ items m, v = .list items m ∧ clusteringColumns shown v = namesOfItems shown items) ∨
      clusteringColumns shown v =
        v.toText shown >>= fun s => namesOfText shown (Text.trim s) := by
  unfold clusteringColumns
  split
  · exact .inl rfl
  · cases v with
    | list items m => exact .inr (.inl ⟨items, m, rfl, rfl⟩)
    | _ => exact .inr (.inr rfl)

theorem namesOfItems_congr {items : List Value} (h : Value.refsAll items = []) :
    namesOfItems shown items = namesOfItems shown' items := by
  have htexts : items.mapM (Value.toText shown) = items.mapM (Value.toText shown') := by
    induction items with
    | nil => rfl
    | cons v r ih =>
      rw [Value.refsAll, List.append_eq_nil_iff] at h
      rw [List.mapM_cons, List.mapM_cons, Value.toText_congr shown shown' h.1, ih h.2]
  rw [namesOfItems, namesOfItems, htexts]

theorem namesOfText_congr (s : String) : namesOfText shown s = namesOfText shown' s := by
  have hparse := Json.gives_parse s
  rw [namesOfText, namesOfText]
  split
  · split
    · next items m hitems =>
      rw [hitems] at hparse
      have hrefs := Json.IsValue.refs hparse
      rw [Value.refs] at hrefs
      exact namesOfItems_congr hrefs
    · rfl
    · rfl
    · rfl
  · rfl

/-- The columns that a value names. -/
def clusterNames (v : Value) : Except Fault (List String) := clusteringColumns (fun _ => "") v

/-- **The columns that a value without objects names, in every model.** -/
theorem clusteringColumns_eq (shown : Ref → String) (h : v.refs = []) :
    clusteringColumns shown v = clusterNames v := by
  have htext : (v.toText shown >>= fun s => namesOfText shown (Text.trim s)) =
      v.toText (fun _ => "") >>= fun s => namesOfText (fun _ => "") (Text.trim s) := by
    rw [Value.toText_congr shown (fun _ => "") h]
    exact bind_congr fun s => namesOfText_congr _
  unfold clusterNames clusteringColumns
  split
  · rfl
  · cases v with
    | list items m =>
      rw [Value.refs] at h
      exact namesOfItems_congr h
    | _ => exact htext

/-! ### Values that cannot be read -/

/-- A list cannot be read if one of its items has no text. -/
theorem exists_of_namesOfItems_error {items : List Value} {f : Fault}
    (h : namesOfItems shown items = .error f) : ∃ v ∈ items, v.showFault? = some f := by
  have hmap : items.mapM (Value.toText shown) = .error f := by
    rw [namesOfItems] at h
    rcases hm : items.mapM (Value.toText shown) with e | texts <;> rw [hm] at h <;> cases h
    rfl
  clear h
  induction items with
  | nil => cases hmap
  | cons v r ih =>
    rw [List.mapM_cons, Value.toText] at hmap
    rcases hv : v.showFault? with _ | e <;> rw [hv] at hmap
    · rcases hr : r.mapM (Value.toText shown) with e | texts <;> rw [hr] at hmap <;> cases hmap
      obtain ⟨w, hw, hfault⟩ := ih hr
      exact ⟨w, List.mem_cons_of_mem v hw, hfault⟩
    · cases hmap
      exact ⟨v, List.mem_cons_self, hv⟩

/-- The texts that cannot be read stand between brackets, and are refused otherwise than for being
malformed. -/
theorem namesOfText_eq_error_iff {s : String} {f : Fault} :
    namesOfText shown s = .error f ↔
      isBracketed s ∧ Json.parse s = .error (.fault f) := by
  rw [namesOfText]
  by_cases hb : isBracketed s
  · rw [if_pos hb]
    have hparse := Json.gives_parse s
    rcases hres : Json.parse s with (_ | e) | w <;> rw [hres] at hparse
    · simp
    · simp [hb]
    · have hvalue : Json.IsValue w := hparse
      cases hvalue with
      | list hall =>
        -- the items that were read have texts
        constructor
        · intro h
          obtain ⟨v, hv, hfault⟩ := exists_of_namesOfItems_error h
          exact absurd (hfault.symm.trans ((hall v hv).walkFault? [])) (Option.some_ne_none f)
        · rintro ⟨-, h⟩
          cases h
      | _ => simp
  · simp [hb]

/-- A text cannot be read only if an integer in it is too long. -/
theorem fault_of_namesOfText {s : String} {f : Fault} (h : namesOfText shown s = .error f) :
    ∃ n, Number.maxDigits < n ∧ f = .longInteger n := by
  have hparse := Json.gives_parse s
  rw [(namesOfText_eq_error_iff.mp h).2] at hparse
  exact hparse

theorem clusteringColumns_text (s : String) :
    clusteringColumns shown (.text s) = namesOfText shown (Text.trim s) := by
  unfold clusteringColumns
  by_cases hs : s = ""
  · subst hs
    rfl
  · have htext : (Value.text s).toText shown = pure s := by
      simp [Value.toText, Value.showFault?, Value.walkFault?, Value.plain, pure, Except.pure]
    rw [if_neg (by simpa [Value.truthy] using hs)]
    change ((Value.text s).toText shown >>= fun t => namesOfText shown (Text.trim t)) = _
    rw [htext, pure_bind]

/-- Why a value cannot be read: it holds an integer without a text, or its text is that of a list
with an integer that is too long to be read. -/
theorem fault_of_clusteringColumns {f : Fault} (h : clusteringColumns shown v = .error f) :
    f = .unwritableInteger ∨ ∃ n, Number.maxDigits < n ∧ f = .longInteger n := by
  rcases clusteringColumns_cases shown v with hnone | ⟨items, m, -, hitems⟩ | htext
  · rw [hnone] at h
    cases h
  · rw [hitems] at h
    obtain ⟨w, -, hw⟩ := exists_of_namesOfItems_error h
    exact .inl (eq_of_showFault? hw)
  · rw [htext] at h
    rcases hv : v.showFault? with _ | e
    · right
      have hok : v.toText shown = pure (v.plain shown) := by rw [Value.toText, hv]; rfl
      rw [hok, pure_bind] at h
      exact fault_of_namesOfText h
    · have herror : v.toText shown = .error e := by rw [Value.toText, hv]
      rw [herror] at h
      cases h
      exact .inl (eq_of_showFault? hv)

/-- What stands between brackets loses nothing by trimming. -/
theorem isBracketed_of_toList {s : String} {cs : List Char} (h : s.toList = '[' :: (cs ++ [']'])) :
    isBracketed s ∧ Trimmed s := by
  constructor
  · simp only [isBracketed, Text.hasStart, Text.hasEnd, Text.startsWith, Text.endsWith, h,
      List.reverse_cons, List.reverse_append]
    rfl
  · have htext : s = "[" ++ String.ofList cs ++ "]" := by
      rw [← String.toList_inj, h]
      simp
    rw [htext]
    exact Trimmed.around (show Trimmed "[" by rfl) (show Trimmed "]" by rfl) (by simp) (by simp) _

/-- The text of a list with an integer that is too long names no columns. -/
theorem clusterNames_longList {n : Nat} (h : Number.maxDigits < n) :
    clusterNames (.text (Json.longList n)) = .error (.longInteger n) := by
  obtain ⟨hbracketed, htrim⟩ := isBracketed_of_toList (s := Json.longList n) String.toList_ofList
  rw [clusterNames, clusteringColumns_text, namesOfText_eq_error_iff, htrim]
  exact ⟨hbracketed, Json.parse_longList h⟩

end Source

end DbSchema
