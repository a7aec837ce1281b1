import DbSchema.Proofs.Numbers
import DbSchema.Source.TypeText

/-!
# Declared types and their sizes

A declared type with sizes is a base, numbers between parentheses and a suffix, with blanks
between all of them.  It is taken apart into what it was made of unless an information separator
stands beside one of its numbers: that is a blank to the pieces, but not to a number.

## Main definitions

* `Divided cs before inside after` — sizes between the first parentheses of a text.
* `SizedType` — a base, numbers and a suffix, with all the blanks between them.
* `SizedType.text`, `SizedType.name`, `SizedType.numbers` — how it is written, and what it means.
* `SizedType.Plain` — no number has an information separator beside it, except behind the opening
  parenthesis.

## Main results

* `typeParts?_of_divided`, `exists_divided` — which texts have sizes, and which parts they have.
* `sizesOf_map`, `sizesOf_isOk_iff`, `exists_of_sizesOf_error` — which pieces are read, and what
  they are read as.
* `splitType_text` — a declared type is taken apart into its name and its numbers exactly if it is
  plain, and a text without parentheses is trimmed.
-/

namespace DbSchema.Source

open Text Number

/-! ### Texts with sizes -/

/-- Sizes between the first parentheses of a text. -/
structure Divided (cs before inside after : List Char) : Prop where
  whole : cs = before ++ '(' :: (inside ++ ')' :: after)
  first : '(' ∉ before
  sizes : ∀ c ∈ inside, isSizeChar c

/-- The parts of a text with sizes are those of the three texts beside its parentheses. -/
theorem typeParts?_of_divided {cs before inside after : List Char}
    (h : Divided cs before inside after) :
    typeParts? cs = (do
      let base ← partOf (trimChars before) before
      let sizes ← partOf (trimStart inside) inside
      let suffix ← suffixOf after
      return ⟨base, sizes, suffix⟩) := by
  have hbefore : ∀ c ∈ before, (c != '(') = true :=
    fun c hc => bne_iff_ne.mpr fun he => h.first (he ▸ hc)
  have hclose : isSizeChar ')' = false := by decide
  have htake : cs.takeWhile (· != '(') = before := by
    rw [h.whole, List.takeWhile_append_of_pos hbefore,
      List.takeWhile_cons_of_neg (by decide), List.append_nil]
  have hdrop : (cs.dropWhile (· != '(')).drop 1 = inside ++ ')' :: after := by
    rw [h.whole, List.dropWhile_append_of_pos hbefore, List.dropWhile_cons_of_neg (by decide),
      List.drop_one, List.tail_cons]
  have hsizes : (inside ++ ')' :: after).takeWhile isSizeChar = inside := by
    rw [List.takeWhile_append_of_pos h.sizes, List.takeWhile_cons_of_neg (by simp [hclose]),
      List.append_nil]
  have hafter : (inside ++ ')' :: after).dropWhile isSizeChar = ')' :: after := by
    rw [List.dropWhile_append_of_pos h.sizes, List.dropWhile_cons_of_neg (by simp [hclose])]
  unfold typeParts?
  simp only [htake, hdrop, hsizes, hafter]

/-- Only a text with sizes has parts. -/
theorem exists_divided {cs : List Char} {p : TypeParts} (h : typeParts? cs = some p) :
    ∃ before inside after, Divided cs before inside after := by
  unfold typeParts? at h
  dsimp only at h
  split at h
  · next after hafter =>
    refine ⟨cs.takeWhile (· != '('), ((cs.dropWhile (· != '(')).drop 1).takeWhile isSizeChar,
      after, ?_, fun hmem => ?_, fun c hc => List.mem_takeWhile_imp hc⟩
    · -- What the reader drops is one opening parenthesis, since something follows it.
      have hopen : cs.dropWhile (· != '(') = '(' :: (cs.dropWhile (· != '(')).drop 1 := by
        cases hrest : cs.dropWhile (· != '(') with
        | nil =>
          rw [hrest] at hafter
          cases hafter
        | cons c r =>
          have hc := List.head?_dropWhile_not (· != '(') cs
          rw [hrest] at hc
          have hc : c = '(' := by simpa using hc
          rw [hc]
          rfl
      have hinside := List.takeWhile_append_dropWhile (p := isSizeChar)
        (l := (cs.dropWhile (· != '(')).drop 1)
      rw [hafter] at hinside
      rw [hinside, ← hopen, List.takeWhile_append_dropWhile]
    · exact absurd (List.mem_takeWhile_imp hmem) (by decide)
  · cases h

/-! ### Lists of sizes -/

/-- The characters of a size that is no comma belong to an unsigned number. -/
theorem unsigned_of_isSizeChar {cs : List Char} (h : ∀ c ∈ cs, isSizeChar c) : Unsigned cs := by
  have hno : ∀ c, isSizeChar c = false → c ∉ cs := by
    intro c hc hmem
    exact absurd (h c hmem) (by simp [hc])
  exact ⟨hno _ (by decide), hno _ (by decide), hno _ (by decide)⟩

/-- What a piece of a list of sizes is read as. -/
def pieceInteger (piece : List Char) : Except Fault Int :=
  integerOfText (.text (String.ofList piece)) (String.ofList piece)

theorem sizesOf_cons_blank {piece : List Char} (h : ∀ c ∈ piece, isBlank c)
    (r : List (List Char)) : sizesOf (piece :: r) = sizesOf r := by
  have hnil : (trimChars piece).isEmpty = true := by rw [trimChars_eq_nil_iff.mpr h]; rfl
  rw [sizesOf, if_pos hnil]

theorem sizesOf_cons {piece : List Char} {c : Char} (hc : c ∈ piece) (hb : isBlank c = false)
    (r : List (List Char)) :
    sizesOf (piece :: r) =
      (pieceInteger piece).bind fun n => (sizesOf r).map (n :: ·) := by
  have hne : ¬ (trimChars piece).isEmpty = true := by
    simpa using trimChars_ne_nil hc hb
  rw [sizesOf, if_neg hne, pieceInteger]
  dsimp only
  cases integerOfText (.text (String.ofList piece)) (String.ofList piece) <;> rfl

/-- Pieces that denote integers are read one by one. -/
theorem sizesOf_map {α : Type} {items : List α} {piece : α → List Char} {value : α → Int}
    (h : ∀ z ∈ items, (∃ c ∈ piece z, isBlank c = false) ∧
      pieceInteger (piece z) = .ok (value z)) :
    sizesOf (items.map piece) = .ok (items.map value) := by
  induction items with
  | nil => rfl
  | cons z r ih =>
    obtain ⟨⟨c, hc, hb⟩, hz⟩ := h z List.mem_cons_self
    rw [List.map_cons, sizesOf_cons hc hb, hz, ih fun z hz => h z (List.mem_cons_of_mem _ hz)]
    rfl

/-- What is wrong with a list of sizes is wrong with a piece of it. -/
theorem exists_of_sizesOf_error {pieces : List (List Char)} {f : Fault}
    (h : sizesOf pieces = .error f) :
    ∃ piece ∈ pieces, (∃ c ∈ piece, isBlank c = false) ∧ pieceInteger piece = .error f := by
  induction pieces with
  | nil => cases h
  | cons piece r ih =>
    have hrest (h : sizesOf r = .error f) : ∃ q ∈ piece :: r,
        (∃ c ∈ q, isBlank c = false) ∧ pieceInteger q = .error f := by
      obtain ⟨q, hq, hbad⟩ := ih h
      exact ⟨q, List.mem_cons_of_mem _ hq, hbad⟩
    -- blank pieces are passed over, and the first other one that is no integer decides
    by_cases hblank : ∀ c ∈ piece, isBlank c
    · rw [sizesOf_cons_blank hblank] at h
      exact hrest h
    · push Not at hblank
      obtain ⟨c, hc, hb⟩ := hblank
      have hb : isBlank c = false := by simpa using hb
      rw [sizesOf_cons hc hb] at h
      cases hn : pieceInteger piece with
      | error g =>
        rw [hn] at h
        cases h
        exact ⟨piece, List.mem_cons_self, ⟨c, hc, hb⟩, hn⟩
      | ok n =>
        rw [hn] at h
        cases hr : sizesOf r with
        | error g =>
          simp only [hr, Except.bind, Except.map] at h
          cases h
          exact hrest hr
        | ok ns =>
          simp only [hr, Except.bind, Except.map] at h
          cases h

/-- A list of sizes is read exactly if every piece is blank or denotes an integer. -/
theorem sizesOf_isOk_iff {pieces : List (List Char)} :
    (∃ ns, sizesOf pieces = .ok ns) ↔
      ∀ piece ∈ pieces, (∀ c ∈ piece, isBlank c) ∨ ∃ n, pieceInteger piece = .ok n := by
  induction pieces with
  | nil => simp [sizesOf]
  | cons piece r ih =>
    rw [List.forall_mem_cons, ← ih]
    by_cases hblank : ∀ c ∈ piece, isBlank c
    · rw [sizesOf_cons_blank hblank]
      exact (and_iff_right (.inl hblank)).symm
    · have hnot := hblank
      push Not at hnot
      obtain ⟨c, hc, hb⟩ := hnot
      rw [sizesOf_cons hc (by simpa using hb)]
      cases hn : pieceInteger piece with
      | error g => simp [hblank, Except.bind]
      | ok n => cases hr : sizesOf r <;> simp [Except.bind, Except.map]

/-! ### Declared types, part by part -/

/-- A number in a list of sizes, with the blanks around it. -/
structure Size where
  before : List Char := []
  number : Nat
  after : List Char := []
  before_blank : before.all isBlank := by decide
  after_blank : after.all isBlank := by decide
  short : (Nat.toDigits 10 number).length ≤ maxDigits := by decide

namespace Size

/-- A number and its blanks as they are written. -/
def text (z : Size) : List Char := z.before ++ Nat.toDigits 10 z.number ++ z.after

/-- The number without the blanks before it. -/
def bare (z : Size) : Size := { z with before := [], before_blank := rfl }

/-- No information separator stands beside the number. -/
def Plain (z : Size) : Prop :=
  z.before.all isNumberBlank ∧ z.after.all isNumberBlank

instance (z : Size) : Decidable z.Plain := inferInstanceAs (Decidable (_ ∧ _))

theorem isBlank_or_isDecimalDigit {z : Size} {c : Char} (h : c ∈ z.text) :
    isBlank c ∨ isDecimalDigit c := by
  rcases List.mem_append.mp h with h | h
  · rcases List.mem_append.mp h with h | h
    · exact .inl (List.all_eq_true.mp z.before_blank c h)
    · exact .inr (isDecimalDigit_toDigits _ c h)
  · exact .inl (List.all_eq_true.mp z.after_blank c h)

theorem isSizeChar_of_mem {z : Size} {c : Char} (h : c ∈ z.text) : isSizeChar c := by
  rcases isBlank_or_isDecimalDigit h with h | h <;> simp [isSizeChar, h]

theorem comma_not_mem (z : Size) : ',' ∉ z.text := by
  intro h
  exact absurd (isBlank_or_isDecimalDigit h) (by decide)

/-- A number is not blank. -/
theorem exists_not_blank (z : Size) : ∃ c ∈ z.text, isBlank c = false := by
  obtain ⟨c, hc⟩ := List.exists_mem_of_ne_nil _ (Nat.toDigits_ne_nil (n := z.number) (b := 10))
  exact ⟨c, List.mem_append_left _ (List.mem_append_right _ hc),
    isBlank_of_isDecimalDigit (isDecimalDigit_toDigits _ c hc)⟩

/-- A number between plain blanks is read back. -/
theorem pieceInteger_of_plain {z : Size} (h : z.Plain) : pieceInteger z.text = .ok z.number := by
  unfold pieceInteger text
  rw [integerOfText_of_run (List.all_eq_true.mp h.1) (List.all_eq_true.mp h.2)
      (isDecimalDigit_toDigits _) Nat.toDigits_ne_nil
    (unsigned_of_isSizeChar fun c hc => isSizeChar_of_mem (z := z) hc) z.short,
    ofDigits_toDigits]

/-- A number beside an information separator is none. -/
theorem pieceInteger_of_not_plain {z : Size} (h : ¬ z.Plain) :
    pieceInteger z.text = .error (.badInteger (.text (String.ofList z.text))) := by
  have hbad : ∃ c ∈ z.text, isBlank c ∧ isNumberBlank c = false := by
    rw [Plain, List.all_eq_true, List.all_eq_true, not_and_or] at h
    push Not at h
    rcases h with ⟨c, hc, hn⟩ | ⟨c, hc, hn⟩
    · exact ⟨c, List.mem_append_left _ (List.mem_append_left _ hc),
        List.all_eq_true.mp z.before_blank c hc, by simpa using hn⟩
    · exact ⟨c, List.mem_append_right _ hc, List.all_eq_true.mp z.after_blank c hc,
        by simpa using hn⟩
  obtain ⟨c, hc, hb, hn⟩ := hbad
  have hd : isDecimalDigit c = false := by
    by_contra hd
    rw [isBlank_of_isDecimalDigit (by simpa using hd)] at hb
    cases hb
  exact integerOfText_of_mem (unsigned_of_isSizeChar fun c hc => isSizeChar_of_mem hc) hc hn hd _

end Size

/-- Numbers between commas as they are written. -/
def sizesText (sizes : List Size) : List Char := [','].intercalate (sizes.map Size.text)

theorem isSizeChar_of_mem_sizesText {sizes : List Size} {c : Char} (h : c ∈ sizesText sizes) :
    isSizeChar c := by
  induction sizes with
  | nil => simp [sizesText] at h
  | cons z r ih =>
    cases r with
    | nil =>
      rw [sizesText, List.map_singleton, List.intercalate_singleton] at h
      exact Size.isSizeChar_of_mem h
    | cons z' r =>
      rw [sizesText, List.map_cons, List.map_cons, List.intercalate_cons_cons] at h
      rcases List.mem_append.mp h with h | h
      · rcases List.mem_append.mp h with h | h
        · exact Size.isSizeChar_of_mem h
        · cases List.mem_singleton.mp h
          decide
      · exact ih h

/-- Only the first number is at the front of a list of sizes. -/
theorem exists_sizesText_cons (r : List Size) :
    ∃ rest, ∀ z : Size, sizesText (z :: r) = z.text ++ rest := by
  cases r with
  | nil => exact ⟨[], fun z => by simp [sizesText]⟩
  | cons z' r =>
    refine ⟨',' :: sizesText (z' :: r), fun z => ?_⟩
    simp [sizesText, List.intercalate_cons_cons]

/-- Blanks before the first number are trimmed off. -/
theorem trimStart_sizesText (z : Size) (r : List Size) :
    trimStart (sizesText (z :: r)) = sizesText (z.bare :: r) := by
  obtain ⟨rest, hrest⟩ := exists_sizesText_cons r
  have hdigits (cs : List Char) :
      (Nat.toDigits 10 z.number ++ cs).dropWhile isBlank = Nat.toDigits 10 z.number ++ cs := by
    have hne : Nat.toDigits 10 z.number ≠ [] := Nat.toDigits_ne_nil
    obtain ⟨d, ds, hd⟩ := List.exists_cons_of_ne_nil hne
    have hnot := isBlank_of_isDecimalDigit (isDecimalDigit_toDigits z.number d (by simp [hd]))
    rw [hd, List.cons_append, List.dropWhile_cons_of_neg (by simp [hnot])]
  calc trimStart (sizesText (z :: r))
      = (z.before ++ (Nat.toDigits 10 z.number ++ (z.after ++ rest))).dropWhile isBlank := by
        rw [hrest, Size.text, List.append_assoc, List.append_assoc]
        rfl
    _ = Nat.toDigits 10 z.number ++ (z.after ++ rest) := by
        rw [List.dropWhile_append_of_pos (List.all_eq_true.mp z.before_blank), hdigits]
    _ = sizesText (z.bare :: r) := by
        rw [hrest, Size.text, List.append_assoc, List.append_assoc]
        rfl

/-- Numbers are cut apart at the commas between them. -/
theorem splitChars_sizesText {sizes : List Size} (h : sizes ≠ []) :
    splitChars ',' (sizesText sizes) = sizes.map Size.text := by
  refine splitChars_intercalate (by simpa using h) fun piece hpiece => ?_
  obtain ⟨z, -, rfl⟩ := List.mem_map.mp hpiece
  exact z.comma_not_mem

/-- Plain numbers are read back. -/
theorem sizesOf_of_plain {sizes : List Size} (h : ∀ z ∈ sizes, z.Plain) :
    sizesOf (sizes.map Size.text) = .ok (sizes.map fun z => (z.number : Int)) :=
  sizesOf_map fun z hz => ⟨z.exists_not_blank, Size.pieceInteger_of_plain (h z hz)⟩

/-- Numbers that are not all plain are refused for one that is not. -/
theorem sizesOf_of_not_plain {sizes : List Size} (h : ¬ ∀ z ∈ sizes, z.Plain) :
    ∃ piece, sizesOf (sizes.map Size.text) = .error (.badInteger (.text piece)) := by
  push Not at h
  obtain ⟨z, hz, hplain⟩ := h
  cases hs : sizesOf (sizes.map Size.text) with
  | ok ns =>
    rcases sizesOf_isOk_iff.mp ⟨ns, hs⟩ z.text (List.mem_map_of_mem hz) with hblank | ⟨n, hn⟩
    · obtain ⟨c, hc, hb⟩ := z.exists_not_blank
      exact absurd (hblank c hc) (by simp [hb])
    · rw [Size.pieceInteger_of_not_plain hplain] at hn
      cases hn
  | error f =>
    obtain ⟨piece, hpiece, -, hbad⟩ := exists_of_sizesOf_error hs
    obtain ⟨w, -, rfl⟩ := List.mem_map.mp hpiece
    by_cases hw : w.Plain
    · rw [Size.pieceInteger_of_plain hw] at hbad
      cases hbad
    · rw [Size.pieceInteger_of_not_plain hw] at hbad
      cases hbad
      exact ⟨_, rfl⟩

/-- A base, numbers between parentheses and a suffix, with the blanks between them. -/
structure SizedType where
  front : List Char := []
  base : List Char
  gap : List Char := []
  sizes : List Size
  behind : List Char := []
  suffix : List Char := []
  front_blank : front.all isBlank := by decide
  gap_blank : gap.all isBlank := by decide
  behind_blank : behind.all isBlank := by decide
  base_ne_nil : base ≠ [] := by decide
  base_trimmed : trimChars base = base := by decide
  base_unopened : '(' ∉ base := by decide
  sizes_ne_nil : sizes ≠ [] := by decide
  suffix_line : '\n' ∉ suffix := by decide

namespace SizedType

/-- A declared type as it is written. -/
def text (t : SizedType) : String :=
  String.ofList ((t.front ++ t.base ++ t.gap) ++
    '(' :: (sizesText t.sizes ++ ')' :: (t.behind ++ t.suffix)))

/-- The type without its sizes: the base, and after a space the suffix when it is not blank. -/
def name (t : SizedType) : String :=
  if trimChars t.suffix = [] then String.ofList t.base
  else String.ofList (t.base ++ ' ' :: trimChars t.suffix)

/-- The numbers between the parentheses. -/
def numbers (t : SizedType) : List Int := t.sizes.map fun z => (z.number : Int)

/-- No information separator stands beside a number, except behind the opening parenthesis. -/
def Plain (t : SizedType) : Prop :=
  (∀ z ∈ t.sizes.head?, z.after.all isNumberBlank) ∧ ∀ z ∈ t.sizes.tail, z.Plain

instance (t : SizedType) : Decidable t.Plain := inferInstanceAs (Decidable (_ ∧ _))

theorem plain_iff {t : SizedType} {z : Size} {r : List Size} (h : t.sizes = z :: r) :
    t.Plain ↔ ∀ w ∈ z.bare :: r, w.Plain := by
  -- Blanks before the first number are not read with it, so nothing is asked of them.
  have hbare : z.bare.Plain ↔ z.after.all isNumberBlank :=
    ⟨fun hp => hp.2, fun ha => ⟨rfl, ha⟩⟩
  rw [Plain, h, List.forall_mem_cons, hbare]
  simp

theorem divided (t : SizedType) :
    Divided t.text.toList (t.front ++ t.base ++ t.gap) (sizesText t.sizes)
      (t.behind ++ t.suffix) := by
  have hblank {cs : List Char} (h : cs.all isBlank) : '(' ∉ cs :=
    fun hmem => absurd (List.all_eq_true.mp h _ hmem) (by decide)
  refine ⟨by rw [text, String.toList_ofList], ?_, fun c hc => isSizeChar_of_mem_sizesText hc⟩
  simp only [List.mem_append, not_or]
  exact ⟨⟨hblank t.front_blank, t.base_unopened⟩, hblank t.gap_blank⟩

theorem suffixOf_suffix (t : SizedType) :
    suffixOf (t.behind ++ t.suffix) = some (trimStart t.suffix) := by
  have hline : ∀ c ∈ trimStart t.suffix, (c != '\n') = true := by
    intro c hc
    refine bne_iff_ne.mpr fun he => t.suffix_line ?_
    exact he ▸ (List.dropWhile_suffix isBlank).subset hc
  have htrim : trimStart (t.behind ++ t.suffix) = trimStart t.suffix :=
    List.dropWhile_append_of_pos (List.all_eq_true.mp t.behind_blank)
  unfold suffixOf
  dsimp only
  rw [htrim, List.takeWhile_eq_self_iff.mpr hline, List.dropWhile_eq_nil_iff.mpr hline,
    if_pos (.inl rfl)]

/-- The parts of a declared type are its base, its numbers and its suffix. -/
theorem typeParts?_text {t : SizedType} {z : Size} {r : List Size} (h : t.sizes = z :: r) :
    typeParts? t.text.toList =
      some ⟨t.base, sizesText (z.bare :: r), trimStart t.suffix⟩ := by
  have hbase : trimChars (t.front ++ t.base ++ t.gap) = t.base :=
    trimChars_between (List.all_eq_true.mp t.front_blank) (List.all_eq_true.mp t.gap_blank)
      t.base_trimmed t.base_ne_nil
  have hsizes : sizesText (z.bare :: r) ≠ [] := by
    obtain ⟨rest, hrest⟩ := exists_sizesText_cons r
    obtain ⟨c, hc, -⟩ := z.bare.exists_not_blank
    exact List.ne_nil_of_mem (hrest _ ▸ List.mem_append_left rest hc)
  have hpart {stripped : List Char} (cs : List Char) (hne : stripped ≠ []) :
      partOf stripped cs = some stripped := by
    cases stripped with
    | nil => exact absurd rfl hne
    | cons c l => rfl
  rw [typeParts?_of_divided t.divided, hbase, hpart _ t.base_ne_nil, h, trimStart_sizesText,
    hpart _ hsizes, suffixOf_suffix]
  rfl

/-- The base and the suffix are put together with one space between them. -/
theorem name_parts (t : SizedType) (sizes : List Char) :
    TypeParts.name ⟨t.base, sizes, trimStart t.suffix⟩ = t.name := by
  unfold TypeParts.name name
  by_cases hblank : trimChars t.suffix = []
  · have hstart : trimStart t.suffix = [] :=
      List.dropWhile_eq_nil_iff.mpr (trimChars_eq_nil_iff.mp hblank)
    rw [if_pos hblank, hstart]
    rfl
  · have hstart : ¬ (trimStart t.suffix).isEmpty = true := by
      intro h
      rw [trimChars, List.isEmpty_iff.mp h] at hblank
      exact hblank rfl
    -- The suffix has its last blanks still, and loses them together with the whole name.
    have haround : Trimmed (String.ofList t.base ++ " " ++ String.ofList (trimChars t.suffix)) :=
      Trimmed.around (trimmed_iff.mpr (by simpa using t.base_trimmed))
        (trimmed_iff.mpr (by simpa using trimChars_trimChars t.suffix))
        (by simpa using t.base_ne_nil) (by simpa using hblank) " "
    have hwhole : trimChars (t.base ++ ' ' :: trimChars t.suffix) =
        t.base ++ ' ' :: trimChars t.suffix := by
      simpa [trimmed_iff] using haround
    have hback : trimStart t.suffix =
        trimChars t.suffix ++ (trimStart t.suffix).rtakeWhile isBlank :=
      (List.rdropWhile_append_rtakeWhile (p := isBlank)).symm
    have htrim := trimChars_between (l := []) (r := (trimStart t.suffix).rtakeWhile isBlank)
      (fun _ h => absurd h List.not_mem_nil) (fun _ hc => List.mem_rtakeWhile_imp hc) hwhole
      (by simp)
    rw [if_neg hstart, if_neg hblank, hback]
    exact congrArg String.ofList (by simpa using htrim)

end SizedType

theorem splitText_of_parts {s : String} {p : TypeParts} (h : typeParts? s.toList = some p) :
    splitText s = (sizesOf (splitChars ',' p.sizes)).map fun ns => (p.name, ns) := by
  unfold splitText
  rw [h]
  dsimp only
  cases sizesOf (splitChars ',' p.sizes) <;> rfl

/-- A text that is reported is taken apart, and the empty text as if it were. -/
theorem splitType_eq_splitText (s : String) : splitType (.text s) = splitText s := by
  by_cases h : s = ""
  · subst h
    rfl
  · have htruthy : (Value.text s).truthy = true := by simpa [Value.truthy] using h
    rw [splitType, htruthy]
    rfl

/-- A text without parentheses has no sizes. -/
theorem splitText_of_not_mem {s : String} (h : '(' ∉ s.toList) :
    splitText s = .ok (trim s, []) := by
  have hnone : typeParts? s.toList = none := by
    cases hp : typeParts? s.toList with
    | none => rfl
    | some p =>
      obtain ⟨before, inside, after, hd⟩ := exists_divided hp
      exact absurd (hd.whole ▸ List.mem_append_right _ List.mem_cons_self) h
  unfold splitText
  rw [hnone]

/-- A declared type is taken apart into its name and its numbers exactly if it is plain, and else a
number beside an information separator is refused; a text without parentheses is trimmed. -/
theorem splitType_text (t : SizedType) (s : String) :
    (splitType (.text t.text) = .ok (t.name, t.numbers) ↔ t.Plain) ∧
      (¬ t.Plain → ∃ piece, splitType (.text t.text) = .error (.badInteger (.text piece))) ∧
      ('(' ∉ s.toList → splitType (.text s) = .ok (trim s, [])) := by
  obtain ⟨z, r, hsizes⟩ := List.exists_cons_of_ne_nil t.sizes_ne_nil
  have hread : splitType (.text t.text) =
      (sizesOf ((z.bare :: r).map Size.text)).map fun ns => (t.name, ns) := by
    rw [splitType_eq_splitText, splitText_of_parts (SizedType.typeParts?_text hsizes),
      splitChars_sizesText (List.cons_ne_nil _ _), SizedType.name_parts]
  have hnumbers : t.numbers = (z.bare :: r).map fun z => (z.number : Int) := by
    rw [SizedType.numbers, hsizes]
    rfl
  have hok (h : t.Plain) : splitType (.text t.text) = .ok (t.name, t.numbers) := by
    rw [hread, sizesOf_of_plain ((SizedType.plain_iff hsizes).mp h), hnumbers]
    rfl
  have herror (h : ¬ t.Plain) :
      ∃ piece, splitType (.text t.text) = .error (.badInteger (.text piece)) := by
    rw [SizedType.plain_iff hsizes] at h
    obtain ⟨piece, hpiece⟩ := sizesOf_of_not_plain h
    exact ⟨piece, by rw [hread, hpiece]; rfl⟩
  refine ⟨⟨fun h => ?_, hok⟩, herror, fun hs =>
    (splitType_eq_splitText s).trans (splitText_of_not_mem hs)⟩
  by_contra hplain
  obtain ⟨piece, hpiece⟩ := herror hplain
  rw [hpiece] at h
  cases h

/-- A type with blanks at every place, line feeds and wide spaces among them. -/
def wideNumeric : SizedType where
  front := ['\u2003']
  base := "NUMERIC".toList
  gap := ['\t']
  sizes := [{ before := ['\x1c'], number := 10, after := ['\n'] },
    { before := ['\u2003'], number := 2 }]
  behind := ['\n', ' ']
  suffix := " UNSIGNED ".toList

theorem splitType_text_wideNumeric :
    wideNumeric.Plain ∧
      splitType (.text wideNumeric.text) = .ok ("NUMERIC UNSIGNED", [10, 2]) ∧
      '(' ∉ " DOUBLE PRECISION\n".toList ∧
      splitType (.text " DOUBLE PRECISION\n") = .ok ("DOUBLE PRECISION", []) :=
  have hplain : wideNumeric.Plain := by decide
  have hopen : '(' ∉ " DOUBLE PRECISION\n".toList := by decide
  have htext := splitType_text wideNumeric " DOUBLE PRECISION\n"
  ⟨hplain, htext.1.mpr hplain, hopen, htext.2.2 hopen⟩

/-- A number with an information separator behind it. -/
def separatedSize : SizedType where
  base := "VARCHAR".toList
  sizes := [{ number := 5, after := ['\x1c'] }]

/-- A declared type need not be taken apart into what it was made of. -/
theorem not_inverted_separatedSize :
    separatedSize.text = "VARCHAR(5\x1c)" ∧
      splitType (.text separatedSize.text) = .error (.badInteger (.text "5\x1c")) ∧
      ¬ ∀ t : SizedType, splitType (.text t.text) = .ok (t.name, t.numbers) := by
  have hread : splitType (.text separatedSize.text) = .error (.badInteger (.text "5\x1c")) := rfl
  refine ⟨by decide, hread, fun h => ?_⟩
  rw [h separatedSize] at hread
  cases hread

end DbSchema.Source
