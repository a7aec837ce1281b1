import DbSchema.Proofs.Source.DeclaredTypes

/-!
# Declared types that are misread

A declared type is free text.  It is refused if it has sizes and one of them is neither blank nor a
number, and it gives a blank type if it is nothing but sizes.  Every other text that is not blank
gives a type that is not blank.

## Main definitions

* `Parted cs before inside after` — sizes in a text with something before them.
* `Unreadable s` — one of the sizes is no number.
* `Nameless s` — the text is nothing but sizes.
* `Misread s` — one of the two.

## Main results

* `splitText_isOk_iff` — a text is taken apart unless it is unreadable.
* `trim_type_eq_empty_iff` — its type is blank only if it is blank or nameless.
* `exists_type_iff` — it gives a type that is not blank unless it is blank or misread.
-/

namespace DbSchema.Source

open Text Number

/-! ### Parts of a text -/

/-- Sizes between the first parentheses of a text: something stands before them and between them,
and there is no line feed behind them except among the first blanks and at the end. -/
structure Parted (cs before inside after : List Char) : Prop
    extends Divided cs before inside after where
  before_ne_nil : before ≠ []
  inside_ne_nil : inside ≠ []
  line : ∃ line, '\n' ∉ line ∧ (trimStart after = line ∨ trimStart after = line ++ ['\n'])

/-- A part is what is left without blanks, or one of its characters if nothing is. -/
theorem partOf_eq_some {stripped cs part : List Char} (h : partOf stripped cs = some part) :
    stripped ≠ [] ∧ part = stripped ∨ stripped = [] ∧ ∃ c ∈ cs, part = [c] := by
  cases stripped with
  | nil =>
    obtain ⟨c, hc, rfl⟩ := Option.map_eq_some_iff.mp h
    exact .inr ⟨rfl, c, List.mem_of_getLast? hc, rfl⟩
  | cons c r =>
    cases h
    exact .inl ⟨List.cons_ne_nil _ _, rfl⟩

theorem exists_partOf (stripped : List Char) {cs : List Char} (h : cs ≠ []) :
    ∃ part, partOf stripped cs = some part := by
  cases stripped with
  | nil => exact ⟨[cs.getLast h], by rw [partOf, List.getLast?_eq_some_getLast h]; rfl⟩
  | cons c r => exact ⟨c :: r, rfl⟩

theorem suffixOf_eq_some_iff {cs line : List Char} :
    suffixOf cs = some line ↔
      '\n' ∉ line ∧ (trimStart cs = line ∨ trimStart cs = line ++ ['\n']) := by
  have hsplit := List.takeWhile_append_dropWhile (p := (· != '\n')) (l := trimStart cs)
  unfold suffixOf
  dsimp only
  constructor
  · intro h
    split at h
    · next hend =>
      cases h
      refine ⟨fun hmem => absurd (List.mem_takeWhile_imp hmem) (by decide), ?_⟩
      -- after the line there is nothing, or a line feed at the very end
      rcases hend with hnil | hfeed
      · rw [List.isEmpty_iff.mp hnil, List.append_nil] at hsplit
        exact .inl hsplit.symm
      · rw [hfeed] at hsplit
        exact .inr hsplit.symm
    · cases h
  · rintro ⟨hline, h⟩
    have hall : ∀ c ∈ line, (c != '\n') = true :=
      fun c hc => bne_iff_ne.mpr fun he => hline (he ▸ hc)
    rcases h with h | h <;> rw [h]
    · rw [List.takeWhile_eq_self_iff.mpr hall, List.dropWhile_eq_nil_iff.mpr hall,
        if_pos (.inl rfl)]
    · rw [List.takeWhile_append_of_pos hall, List.dropWhile_append_of_pos hall,
        List.takeWhile_cons_of_neg (by decide), List.dropWhile_cons_of_neg (by decide),
        if_pos (.inr rfl), List.append_nil]

/-- A text has parts exactly if it is parted. -/
theorem exists_parted {cs : List Char} {p : TypeParts} (h : typeParts? cs = some p) :
    ∃ before inside after, Parted cs before inside after := by
  obtain ⟨before, inside, after, hd⟩ := exists_divided h
  rw [typeParts?_of_divided hd] at h
  obtain ⟨base, hbase, h⟩ := Option.bind_eq_some_iff.mp h
  obtain ⟨sizes, hsizes, h⟩ := Option.bind_eq_some_iff.mp h
  obtain ⟨suffix, hsuffix, -⟩ := Option.bind_eq_some_iff.mp h
  refine ⟨before, inside, after, hd, ?_, ?_, suffix, suffixOf_eq_some_iff.mp hsuffix⟩
  · rintro rfl
    rcases partOf_eq_some hbase with ⟨hne, -⟩ | ⟨-, c, hc, -⟩
    · exact hne rfl
    · cases hc
  · rintro rfl
    rcases partOf_eq_some hsizes with ⟨hne, -⟩ | ⟨-, c, hc, -⟩
    · exact hne rfl
    · cases hc

namespace Parted

variable {cs before inside after : List Char} (h : Parted cs before inside after)

include h

theorem mem : '(' ∈ cs := by
  rw [h.whole]
  exact List.mem_append_right _ List.mem_cons_self

/-- The parts of a parted text. -/
theorem typeParts? : ∃ base sizes suffix, typeParts? cs = some ⟨base, sizes, suffix⟩ ∧
    partOf (trimChars before) before = some base ∧
    partOf (trimStart inside) inside = some sizes ∧ suffixOf after = some suffix := by
  obtain ⟨base, hbase⟩ := exists_partOf (trimChars before) h.before_ne_nil
  obtain ⟨sizes, hsizes⟩ := exists_partOf (trimStart inside) h.inside_ne_nil
  obtain ⟨suffix, hline⟩ := h.line
  have hsuffix := suffixOf_eq_some_iff.mpr hline
  refine ⟨base, sizes, suffix, ?_, hbase, hsizes, hsuffix⟩
  rw [typeParts?_of_divided h.toDivided, hbase, hsizes, hsuffix]
  rfl

/-- A piece of the sizes has their characters, and no comma among them. -/
theorem isSizeChar_of_mem {piece : List Char} (hp : piece ∈ splitChars ',' (trimStart inside)) :
    ∀ c ∈ piece, isSizeChar c :=
  fun _ hc => h.sizes _ ((List.dropWhile_suffix isBlank).subset ((mem_splitChars hp).2 hc))

end Parted

/-! ### Texts that are misread -/

/-- One of the sizes is neither blank nor a number. -/
def Unreadable (s : String) : Prop :=
  ∃ before inside after, Parted s.toList before inside after ∧
    ∃ piece ∈ splitChars ',' (trimStart inside), (∃ c ∈ piece, isBlank c = false) ∧ ¬ IsNumber piece

/-- The text is nothing but sizes: only blanks stand around their parentheses. -/
def Nameless (s : String) : Prop :=
  ∃ before inside after, Parted s.toList before inside after ∧
    (∀ c ∈ before, isBlank c) ∧ ∀ c ∈ after, isBlank c

/-- The text gives no type or stops the reading. -/
def Misread (s : String) : Prop := Unreadable s ∨ Nameless s

theorem pieceInteger_isOk_iff {piece : List Char} (h : ∀ c ∈ piece, isSizeChar c) :
    (∃ n, pieceInteger piece = .ok n) ↔ IsNumber piece := by
  rcases integerOfText_cases (unsigned_of_isSizeChar h) (.text (String.ofList piece)) with
    ⟨hn, hok⟩ | ⟨hn, hbad | ⟨k, -, hlong⟩⟩
  · exact ⟨fun _ => hn, fun _ => hok⟩
  · simp [hn, pieceInteger, hbad]
  · simp [hn, pieceInteger, hlong]

/-- The sizes of a parted text are read exactly if every piece is blank or a number. -/
theorem Parted.sizesOf_isOk_iff {cs before inside after sizes : List Char}
    (h : Parted cs before inside after) (hs : partOf (trimStart inside) inside = some sizes) :
    (∃ ns, sizesOf (splitChars ',' sizes) = .ok ns) ↔
      ∀ piece ∈ splitChars ',' (trimStart inside), (∀ c ∈ piece, isBlank c) ∨ IsNumber piece := by
  rw [Source.sizesOf_isOk_iff]
  rcases partOf_eq_some hs with ⟨-, rfl⟩ | ⟨hblank, c, hc, rfl⟩
  · refine forall₂_congr fun piece hp => ?_
    rw [pieceInteger_isOk_iff (h.isSizeChar_of_mem hp)]
  · -- Nothing but blanks stands between the parentheses, so there is one piece, and it is blank.
    have hc : isBlank c := List.dropWhile_eq_nil_iff.mp hblank c hc
    have hcomma : ',' ∉ [c] := by
      rw [List.mem_singleton]
      rintro rfl
      exact absurd hc (by decide)
    rw [hblank, splitChars_of_not_mem hcomma]
    simp [splitChars, hc]

/-- A text is taken apart unless it is unreadable. -/
theorem splitText_isOk_iff {s : String} : (∃ p, splitText s = .ok p) ↔ ¬ Unreadable s := by
  constructor
  · rintro ⟨p, hp⟩ ⟨before, inside, after, h, piece, hpiece, ⟨c, hc, hb⟩, hn⟩
    obtain ⟨base, sizes, suffix, hparts, -, hsizes, -⟩ := h.typeParts?
    rw [splitText_of_parts hparts] at hp
    have hok : ∃ ns, sizesOf (splitChars ',' sizes) = .ok ns := by
      cases hs : sizesOf (splitChars ',' sizes) with
      | ok ns => exact ⟨ns, rfl⟩
      | error f =>
        rw [hs] at hp
        cases hp
    rcases (h.sizesOf_isOk_iff hsizes).mp hok piece hpiece with hblank | hnumber
    · exact absurd (hblank c hc) (by simp [hb])
    · exact hn hnumber
  · intro hread
    cases hp : typeParts? s.toList with
    | none => exact ⟨(trim s, []), by unfold splitText; rw [hp]⟩
    | some p =>
      obtain ⟨before, inside, after, h⟩ := exists_parted hp
      obtain ⟨base, sizes, suffix, hparts, -, hsizes, -⟩ := h.typeParts?
      -- a piece that is neither blank nor a number would make the text unreadable
      have hall : ∀ piece ∈ splitChars ',' (trimStart inside),
          (∀ c ∈ piece, isBlank c) ∨ IsNumber piece := by
        intro piece hpiece
        by_contra hbad
        rw [not_or] at hbad
        push Not at hbad
        obtain ⟨⟨c, hc, hb⟩, hn⟩ := hbad
        exact hread ⟨before, inside, after, h, piece, hpiece, ⟨c, hc, by simpa using hb⟩, hn⟩
      obtain ⟨ns, hns⟩ := (h.sizesOf_isOk_iff hsizes).mpr hall
      exact ⟨_, by rw [splitText_of_parts hparts, hns]; rfl⟩

/-- The base is blank exactly if nothing but blanks stands before the parentheses. -/
theorem blank_base_iff {before base : List Char}
    (h : partOf (trimChars before) before = some base) :
    (∀ c ∈ base, isBlank c) ↔ ∀ c ∈ before, isBlank c := by
  rcases partOf_eq_some h with ⟨hne, rfl⟩ | ⟨hnil, c, hc, rfl⟩
  · rw [← trimChars_eq_nil_iff, ← trimChars_eq_nil_iff, trimChars_trimChars]
  · have hblank := trimChars_eq_nil_iff.mp hnil
    exact iff_of_true (by simpa using hblank c hc) hblank

/-- The suffix is blank exactly if nothing but blanks stands behind the parentheses, and then it is
empty. -/
theorem suffix_cases {after suffix : List Char} (h : suffixOf after = some suffix) :
    suffix = [] ∧ (∀ c ∈ after, isBlank c) ∨
      (∃ c ∈ suffix, isBlank c = false) ∧ ¬ ∀ c ∈ after, isBlank c := by
  obtain ⟨-, hline⟩ := suffixOf_eq_some_iff.mp h
  cases hstart : trimStart after with
  | nil =>
    rw [hstart] at hline
    have hnil : suffix = [] := by
      rcases hline with h | h
      · exact h.symm
      · exact absurd h.symm (by simp)
    exact .inl ⟨hnil, List.dropWhile_eq_nil_iff.mp hstart⟩
  | cons d r =>
    have hd : isBlank d = false := by
      have hhead := List.head?_dropWhile_not isBlank after
      rw [show after.dropWhile isBlank = d :: r from hstart] at hhead
      simpa using hhead
    have hmem : d ∈ suffix := by
      rw [hstart] at hline
      cases suffix with
      | nil =>
        -- A line feed is a blank, so it cannot be the first character.
        rcases hline with h | h <;> cases h
        exact absurd hd (by decide)
      | cons d' r' =>
        rcases hline with h | h <;> cases h <;> exact List.mem_cons_self
    refine .inr ⟨⟨d, hmem, hd⟩, fun hblank => ?_⟩
    have hnil : trimStart after = [] := List.dropWhile_eq_nil_iff.mpr hblank
    rw [hstart] at hnil
    cases hnil

/-- The name of a parted text is blank exactly if only blanks stand around the parentheses. -/
theorem trim_name_eq_empty_iff {before after base suffix : List Char} (sizes : List Char)
    (hbase : partOf (trimChars before) before = some base)
    (hsuffix : suffixOf after = some suffix) :
    trim (TypeParts.name ⟨base, sizes, suffix⟩) = "" ↔
      (∀ c ∈ before, isBlank c) ∧ ∀ c ∈ after, isBlank c := by
  unfold TypeParts.name
  dsimp only
  rcases suffix_cases hsuffix with ⟨rfl, hafter⟩ | ⟨⟨c, hc, hb⟩, hafter⟩
  · rw [List.isEmpty_nil, if_pos rfl, trim_eq_empty_iff, String.toList_ofList,
      blank_base_iff hbase]
    exact (and_iff_left hafter).symm
  · have hne : ¬ suffix.isEmpty = true := by
      simpa using List.ne_nil_of_mem hc
    have hmem : c ∈ base ++ ' ' :: suffix :=
      List.mem_append_right _ (List.mem_cons_of_mem _ hc)
    refine iff_of_false (fun h => ?_) fun h => hafter h.2
    rw [if_neg hne, trim_eq_empty_iff, String.toList_ofList, ← trimChars_eq_nil_iff,
      trimChars_trimChars] at h
    exact trimChars_ne_nil hmem hb h

/-- The type of a text with parts is their name. -/
theorem type_eq_name {s type : String} {sizes : List Int} {p : TypeParts}
    (hp : typeParts? s.toList = some p) (h : splitText s = .ok (type, sizes)) :
    type = p.name := by
  rw [splitText_of_parts hp] at h
  cases hr : sizesOf (splitChars ',' p.sizes) with
  | error f =>
    rw [hr] at h
    cases h
  | ok ns =>
    rw [hr] at h
    exact (congrArg Prod.fst (Except.ok.inj h)).symm

/-- The type of a text that is taken apart is blank only if the text is blank or nameless. -/
theorem trim_type_eq_empty_iff {s type : String} {sizes : List Int}
    (h : splitText s = .ok (type, sizes)) : trim type = "" ↔ trim s = "" ∨ Nameless s := by
  cases hp : typeParts? s.toList with
  | none =>
    have hnot : ¬ Nameless s := by
      rintro ⟨before, inside, after, hparted, -⟩
      obtain ⟨base, sizes, suffix, hparts, -⟩ := hparted.typeParts?
      rw [hp] at hparts
      cases hparts
    unfold splitText at h
    rw [hp] at h
    cases h
    rw [show trim (trim s) = trim s from trimmed_trim s]
    exact (or_iff_left hnot).symm
  | some p =>
    obtain ⟨before, inside, after, hparted⟩ := exists_parted hp
    obtain ⟨base, sizes', suffix, hparts, hbase, -, hsuffix⟩ := hparted.typeParts?
    have hs : trim s ≠ "" := trim_ne_empty hparted.mem (by decide)
    rw [type_eq_name hparts h, trim_name_eq_empty_iff sizes' hbase hsuffix, or_iff_right hs]
    refine ⟨fun hblank => ⟨before, inside, after, hparted, hblank⟩, ?_⟩
    -- The text may be parted in another way, but it has only these parts.
    rintro ⟨before', inside', after', hparted', hblank⟩
    obtain ⟨base', sizes'', suffix', hparts', hbase', -, hsuffix'⟩ := hparted'.typeParts?
    rw [hparts] at hparts'
    cases hparts'
    exact (trim_name_eq_empty_iff sizes' hbase hsuffix).mp
      ((trim_name_eq_empty_iff sizes' hbase' hsuffix').mpr hblank)

/-- A misread text has sizes, so it is not blank. -/
theorem Misread.trim_ne_empty {s : String} (h : Misread s) : trim s ≠ "" := by
  rcases h with ⟨before, inside, after, hparted, -⟩ | ⟨before, inside, after, hparted, -⟩ <;>
    exact DbSchema.trim_ne_empty hparted.mem (by decide)

/-- A text gives a type that is not blank unless it is blank itself or misread. -/
theorem exists_type_iff {s : String} :
    (∃ type sizes, splitType (.text s) = .ok (type, sizes) ∧ (trim s ≠ "" → trim type ≠ "")) ↔
      ¬ Misread s := by
  rw [splitType_eq_splitText]
  constructor
  · rintro ⟨type, sizes, hread, htype⟩ hmis
    have hne := htype hmis.trim_ne_empty
    rcases hmis with hmis | hmis
    · exact splitText_isOk_iff.mp ⟨_, hread⟩ hmis
    · exact hne ((trim_type_eq_empty_iff hread).mpr (.inr hmis))
  · intro h
    rw [Misread, not_or] at h
    obtain ⟨⟨type, sizes⟩, hread⟩ := splitText_isOk_iff.mpr h.1
    refine ⟨type, sizes, hread, fun hs ht => ?_⟩
    rcases (trim_type_eq_empty_iff hread).mp ht with hblank | hmis
    · exact hs hblank
    · exact h.2 hmis

/-- No type is the empty text unless the text is blank. -/
theorem trim_eq_empty_of_splitText {s : String} {sizes : List Int}
    (h : splitText s = .ok ("", sizes)) : trim s = "" := by
  refine ((trim_type_eq_empty_iff h).mp trimmed_empty).resolve_right ?_
  rintro ⟨before, inside, after, hparted, -, hafter⟩
  obtain ⟨base, sizes', suffix, hparts, hbase, -, hsuffix⟩ := hparted.typeParts?
  have hname := type_eq_name hparts h
  obtain ⟨rfl, -⟩ | ⟨-, hnot⟩ := suffix_cases hsuffix
  · have hnil : base = [] := by
      rw [TypeParts.name, List.isEmpty_nil, if_pos rfl] at hname
      simpa using hname.symm
    obtain ⟨hne, rfl⟩ | ⟨-, c, -, rfl⟩ := partOf_eq_some hbase
    · exact hne hnil
    · cases hnil
  · exact hnot hafter

/-- A readable declared type is taken apart. -/
theorem exists_splitType {s : String} (h : ¬ Unreadable s) :
    ∃ type sizes, splitType (.text s) = .ok (type, sizes) ∧
      (trim s ≠ "" → type ≠ "" ∧ (trim type = "" ↔ Nameless s)) := by
  obtain ⟨⟨type, sizes⟩, hread⟩ := splitText_isOk_iff.mpr h
  refine ⟨type, sizes, (splitType_eq_splitText s).trans hread, fun hne => ⟨?_, ?_⟩⟩
  · rintro rfl
    exact hne (trim_eq_empty_of_splitText hread)
  · rw [trim_type_eq_empty_iff hread, or_iff_right hne]

/-- An unreadable declared type is refused. -/
theorem not_unreadable_of_splitType {s : String} {p : String × List Int}
    (h : splitType (.text s) = .ok p) : ¬ Unreadable s :=
  splitText_isOk_iff.mp ⟨p, (splitType_eq_splitText s).symm.trans h⟩

end DbSchema.Source
