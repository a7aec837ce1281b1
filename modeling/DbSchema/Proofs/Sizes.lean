import DbSchema.Proofs.Numbers
import Mathlib.Data.List.Forall2

/-!
# Shapes of sizes

The integers of a size may be given as a list, as a tuple or as one text with commas between them,
and an integer other than zero alone.  All of these are read as the same integers, and the integers
of a size are read as themselves.  A text is read piece by piece.

## Main results

* `sizeParts_eq_ok_iff` — the parts of a size are read one by one.
* `parseSize_joined` — integers that were joined by commas are read back.
* `parseSize_text_eq_ok_iff` — a text is read exactly if all of its pieces are that are not blank.
* `sizeShapes_agree` — these together, for every shape of a size.
-/

namespace DbSchema

open Text Number

/-! ### Parts -/

/-- The parts of a size are read one by one. -/
theorem sizeParts_eq_ok_iff {whole : Value} {vs : List Value} {ns : List Int} :
    sizeParts whole vs = .ok ns ↔ List.Forall₂ (fun v n => v.toInteger = .ok n) vs ns := by
  induction vs generalizing ns with
  | nil =>
    rw [sizeParts, List.forall₂_nil_left_iff, Except.ok.injEq]
    exact eq_comm
  | cons v r ih =>
    rw [sizeParts]
    constructor
    · intro h
      split at h
      · next n hv =>
        cases hr : sizeParts whole r with
        | error e =>
          rw [hr] at h
          cases h
        | ok ms =>
          rw [hr] at h
          cases h
          exact .cons hv (ih.mp hr)
      · cases h
      · cases h
    · intro h
      cases h with
      | cons hv hr =>
        rw [hv, ih.mpr hr]
        rfl

theorem sizeParts_ints (whole : Value) (ns : List Int) :
    sizeParts whole (ns.map .int) = .ok ns := by
  rw [sizeParts_eq_ok_iff, List.forall₂_map_left_iff]
  exact List.forall₂_same.mpr fun n _ => rfl

theorem parseSize_ofInts (ns : List Int) : parseSize (.ofInts ns) = .ok ns :=
  sizeParts_ints _ ns

theorem parseSize_int {n : Int} (h : n ≠ 0) : parseSize (.int n) = .ok [n] := by
  rw [parseSize, if_neg h]

/-! ### Texts -/

/-- A text is read as the integers of the names in it. -/
theorem parseSize_text (s : String) :
    parseSize (.text s) = sizeParts (.text s) ((normalizeNames (splitOn ',' s)).map .text) := by
  rw [parseSize]
  split
  · next h =>
    subst h
    rfl
  · rfl

/-- Integers that were joined by commas are read back. -/
theorem parseSize_joined {ns : List Int} (hn : ∀ n ∈ ns, ¬ isLongInteger n) {s : String}
    (hs : Joined (ns.map toString) s) : parseSize (.text s) = .ok ns := by
  have hnames : Normalised (ns.map toString) := by
    intro t ht
    obtain ⟨n, -, rfl⟩ := List.mem_map.mp ht
    exact ⟨trimmed_toString n, toString_ne_empty n⟩
  have hcommas : ∀ t ∈ ns.map toString, ',' ∉ t.toList := by
    intro t ht
    obtain ⟨n, -, rfl⟩ := List.mem_map.mp ht
    exact comma_not_mem_toString n
  rw [parseSize_text, hs.normalizeNames_splitOn hnames hcommas, sizeParts_eq_ok_iff,
    List.forall₂_map_left_iff, List.forall₂_map_left_iff]
  exact List.forall₂_same.mpr fun n hmem => integerOfText_toString (hn n hmem) _

/-- A piece of a text is read as the one integer in it. -/
theorem parseSize_piece {p : String} (hc : ',' ∉ p.toList) (hp : trim p ≠ "") {q : List Int} :
    parseSize (.text p) = .ok q ↔ ∃ n, (Value.text (trim p)).toInteger = .ok n ∧ q = [n] := by
  have hpieces : splitOn ',' p = [p] := by
    rw [splitOn, splitChars_of_not_mem hc, List.map_singleton, String.ofList_toList]
  have hname : normalizeNames [p] = [trim p] := normalizeNames_eq_map (by simpa using hp)
  rw [parseSize_text, hpieces, hname, sizeParts_eq_ok_iff, List.map_singleton,
    List.forall₂_cons_left_iff]
  simp only [List.forall₂_nil_left_iff]
  constructor
  · rintro ⟨n, r, hn, rfl, rfl⟩
    exact ⟨n, hn, rfl⟩
  · rintro ⟨n, hn, rfl⟩
    exact ⟨n, [], hn, rfl, rfl⟩

/-- The pieces of a text that are not blank. -/
def piecesOf (s : String) : List String := (splitOn ',' s).filter (trim · != "")

theorem comma_not_mem_piecesOf {s p : String} (h : p ∈ piecesOf s) :
    ',' ∉ p.toList ∧ trim p ≠ "" := by
  obtain ⟨hp, hne⟩ := List.mem_filter.mp h
  obtain ⟨cs, hcs, rfl⟩ := List.mem_map.mp hp
  refine ⟨?_, by simpa using hne⟩
  rw [String.toList_ofList]
  exact (mem_splitChars hcs).1

theorem normalizeNames_splitOn (s : String) :
    normalizeNames (splitOn ',' s) = (piecesOf s).map trim := by
  rw [normalizeNames, List.filter_map, piecesOf, Function.comp_def]

/-- What is read one by one is what is read as lists of one, put one after the other. -/
theorem forall₂_flatten {α β : Type} {R : α → β → Prop} {S : α → List β → Prop} {ps : List α}
    {ns : List β} (h : ∀ p ∈ ps, ∀ q, S p q ↔ ∃ n, R p n ∧ q = [n]) :
    List.Forall₂ R ps ns ↔ ∃ qs, List.Forall₂ S ps qs ∧ ns = qs.flatten := by
  induction ps generalizing ns with
  | nil => simp [List.forall₂_nil_left_iff]
  | cons p r ih =>
    have hp := h p List.mem_cons_self
    have hr : ∀ q ∈ r, ∀ qs, S q qs ↔ ∃ n, R q n ∧ qs = [n] :=
      fun q hq => h q (List.mem_cons_of_mem _ hq)
    constructor
    · intro hall
      cases hall with
      | @cons _ n _ _ hn hrest =>
        obtain ⟨qs, hqs, rfl⟩ := (ih hr).mp hrest
        exact ⟨[n] :: qs, .cons ((hp [n]).mpr ⟨n, hn, rfl⟩) hqs, rfl⟩
    · rintro ⟨qs, hqs, rfl⟩
      cases hqs with
      | cons hq hrest =>
        obtain ⟨n, hn, rfl⟩ := (hp _).mp hq
        exact .cons hn ((ih hr).mpr ⟨_, hrest, rfl⟩)

/-- **A text is read exactly if all of its pieces are that are not blank.** -/
theorem parseSize_text_eq_ok_iff {s : String} {ns : List Int} :
    parseSize (.text s) = .ok ns ↔
      ∃ qs, List.Forall₂ (fun p q => parseSize (.text p) = .ok q) (piecesOf s) qs ∧
        ns = qs.flatten := by
  rw [parseSize_text, normalizeNames_splitOn, List.map_map, sizeParts_eq_ok_iff,
    List.forall₂_map_left_iff]
  apply forall₂_flatten
  intro p hp q
  obtain ⟨hc, hne⟩ := comma_not_mem_piecesOf hp
  exact parseSize_piece hc hne

/-! ### All shapes -/

/-- **All shapes of a size are read alike.**  Integers are read from a list, from a tuple and, if
they have a text, from their texts joined by commas; an integer other than zero is read alone.  The
integers that any value was read as are read as themselves.  A text is read exactly if all of its
pieces are that are not blank, as what these are read as, one after the other. -/
theorem sizeShapes_agree :
    (∀ (ns : List Int) (m : Mark), parseSize (.list (ns.map .int) m) = .ok ns ∧
      parseSize (.tuple (ns.map .int) m) = .ok ns) ∧
    (∀ (ns : List Int) (s : String), (∀ n ∈ ns, ¬ isLongInteger n) →
      Joined (ns.map toString) s → parseSize (.text s) = .ok ns) ∧
    (∀ n : Int, n ≠ 0 → parseSize (.int n) = .ok [n]) ∧
    (∀ (v : Value) (ns : List Int) (m : Mark), parseSize v = .ok ns →
      parseSize (.list (ns.map .int) m) = .ok ns) ∧
    ∀ (s : String) (ns : List Int), parseSize (.text s) = .ok ns ↔
      ∃ qs, List.Forall₂ (fun p q => parseSize (.text p) = .ok q) (piecesOf s) qs ∧
        ns = qs.flatten := by
  refine ⟨fun ns m => ⟨?_, ?_⟩, fun ns s hn hs => ?_, fun n hn => ?_, fun v ns m _ => ?_,
    fun s ns => ?_⟩
  · exact sizeParts_ints _ ns
  · exact sizeParts_ints _ ns
  · exact parseSize_joined hn hs
  · exact parseSize_int hn
  · exact sizeParts_ints _ ns
  · exact parseSize_text_eq_ok_iff

/-- A precision and a negative scale with blanks around them, and a list of other values. -/
theorem sizeShapes_agree_decimal :
    (∀ n ∈ [(10 : Int), -2], ¬ isLongInteger n) ∧
    Joined (([10, -2] : List Int).map toString) " 10 ,\t-2" ∧
    parseSize (.text " 10 ,\t-2") = .ok [10, -2] ∧
    parseSize (.int 7) = .ok [7] ∧
    parseSize (.ofList [.text "+1_0", .bool true, .float (.finite false 5 (-1))]) = .ok [10, 1, 2] ∧
    parseSize (.list (([10, 1, 2] : List Int).map .int) .own) = .ok [10, 1, 2] := by
  have hshort : ∀ n ∈ [(10 : Int), -2], ¬ isLongInteger n := by
    intro n hn
    have htwo : n.natAbs < Binary64.tenTo 2 := by
      rcases List.mem_pair.mp hn with rfl | rfl <;> decide
    exact not_isLongInteger_of_lt htwo (by decide)
  have hjoined : Joined (([10, -2] : List Int).map toString) " 10 ,\t-2" :=
    ⟨[" 10 ", "\t-2"], .cons (padded_of_all [' '] [' '] (by decide))
      (.cons (padded_of_all ['\t'] [] (by decide)) .nil),
      padded_of_all [] [] (by decide)⟩
  have hmixed : parseSize (.ofList [.text "+1_0", .bool true, .float (.finite false 5 (-1))]) =
      .ok [10, 1, 2] := by rfl
  obtain ⟨-, htext, hint, hagain, -⟩ := sizeShapes_agree
  exact ⟨hshort, hjoined, htext _ _ hshort hjoined, hint 7 (by decide), hmixed,
    hagain _ _ .own hmixed⟩

end DbSchema
