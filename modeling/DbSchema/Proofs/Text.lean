import DbSchema.Text.Blank
import DbSchema.Text.Letters
import Mathlib.Data.List.Infix
import Mathlib.Tactic.Common

/-!
# Occurrences in texts

A text begins with another, or has it somewhere in a row; and what is blank in a text is blank in
its upper case.

## Main definitions

* `blankRuns` — the code points that are blanks.

## Main results

* `dropPrefix?_eq_some_iff`, `startsWith_iff` — what it means to begin with a text.
* `contains_iff` — what it means to have it somewhere.
* `infix_around` — what lacks a character does not reach across it.
* `all_isBlank_upperChars` — the upper case of a text is blank exactly if the text is.
* `toList_pieces` — the characters of a text in pieces.
-/

namespace DbSchema.Text

/-- What is left without a prefix is what follows it. -/
theorem dropPrefix?_eq_some_iff {p cs rest : List Char} :
    dropPrefix? p cs = some rest ↔ cs = p ++ rest := by
  induction p generalizing cs with
  | nil => simp [dropPrefix?]
  | cons a p ih =>
    cases cs with
    | nil => simp [dropPrefix?]
    | cons c r =>
      rw [dropPrefix?]
      by_cases h : a = c
      · simp [h, ih]
      · simp [h, Ne.symm h]

theorem startsWith_iff {p cs : List Char} : startsWith cs p ↔ p <+: cs := by
  rw [startsWith, Option.isSome_iff_exists]
  exact exists_congr fun _ => dropPrefix?_eq_some_iff.trans eq_comm

/-- A text occurs where it stands in a row. -/
theorem contains_iff {p cs : List Char} : contains p cs ↔ p <:+: cs := by
  induction cs with
  | nil => simp [contains]
  | cons c r ih =>
    rw [contains, Bool.or_eq_true, ih, List.infix_cons_iff, startsWith_iff]

/-- What occurs beside a character that it does not have occurs on one of its sides. -/
theorem infix_around {α : Type} {p l r : List α} {a : α} (h : a ∉ p) :
    p <:+: l ++ a :: r ↔ p <:+: l ∨ p <:+: r := by
  refine ⟨fun hp => ?_, fun hp => hp.elim (·.trans (List.prefix_append l _).isInfix)
    (·.trans ⟨l ++ [a], [], by simp⟩)⟩
  rcases List.infix_append_iff.mp hp with hl | hr | ⟨p₁, p₂, rfl, hsuffix, hprefix⟩
  · exact .inl hl
  · rcases List.infix_cons_iff.mp hr with hstart | hrest
    · rcases List.prefix_cons_iff.mp hstart with rfl | ⟨s, rfl, -⟩
      · exact .inl (List.nil_infix)
      · exact absurd List.mem_cons_self h
    · exact .inr hrest
  · rcases List.prefix_cons_iff.mp hprefix with rfl | ⟨s, rfl, -⟩
    · rw [List.append_nil]
      exact .inl hsuffix.isInfix
    · exact absurd (List.mem_append_right p₁ List.mem_cons_self) h

theorem upperChars_append (cs ds : List Char) :
    upperChars (cs ++ ds) = upperChars cs ++ upperChars ds := List.flatMap_append

theorem upperChars_cons (c : Char) (cs : List Char) :
    upperChars (c :: cs) = upperChar c ++ upperChars cs := List.flatMap_cons

/-! ### Blanks in upper case -/

/-- The runs of code points that are blanks. -/
def blankRuns : List (Nat × Nat) :=
  [(0x9, 0xD), (0x1C, 0x20), (0x85, 0x85), (0xA0, 0xA0), (0x1680, 0x1680), (0x2000, 0x200A),
    (0x2028, 0x2029), (0x202F, 0x202F), (0x205F, 0x205F), (0x3000, 0x3000)]

theorem isBlank_iff {c : Char} :
    isBlank c ↔ ∃ r ∈ blankRuns, r.1 ≤ c.toNat ∧ c.toNat ≤ r.2 := by
  simp only [isBlank, blankRuns, decide_eq_true_eq, List.mem_cons, List.not_mem_nil, or_false,
    exists_eq_or_imp, exists_eq_left]
  omega

theorem blankRuns_pos : ∀ r ∈ blankRuns, 0 < r.1 := by decide

/-- A code point outside of the runs is no blank. -/
theorem isBlank_ofNat_eq_false {n : Nat} (h : ∀ r ∈ blankRuns, n < r.1 ∨ r.2 < n) :
    isBlank (Char.ofNat n) = false := by
  have hcode : (Char.ofNat n).toNat = n ∨ (Char.ofNat n).toNat = 0 := by
    by_cases hn : n.isValidChar
    · left
      rw [Char.ofNat, dif_pos hn]
      rfl
    · -- What is no character is mapped to the null character.
      right
      rw [Char.ofNat, dif_neg hn]
      rfl
  by_contra hb
  obtain ⟨r, hr, hlo, hhi⟩ := isBlank_iff.mp (by simpa using hb)
  have hout := h r hr
  have hpos := blankRuns_pos r hr
  omega

/-- A character outside of the runs is no blank. -/
theorem isBlank_eq_false {c : Char} (h : ∀ r ∈ blankRuns, c.toNat < r.1 ∨ r.2 < c.toNat) :
    isBlank c = false := by
  rw [← Char.ofNat_toNat c]
  exact isBlank_ofNat_eq_false h

/-- No blank has an expansion, and none of the expansions is blank. -/
theorem not_blank_of_mem_upperExpansions : ∀ e ∈ upperExpansions.toList,
    (∀ r ∈ blankRuns, e.1 < r.1 ∨ r.2 < e.1) ∧ ∃ n ∈ e.2, ∀ r ∈ blankRuns, n < r.1 ∨ r.2 < n := by
  decide +kernel

/-- No blank is shifted, and nothing is shifted onto one. -/
theorem not_blank_of_mem_upperRanges : ∀ e ∈ upperRanges.toList, ∀ r ∈ blankRuns,
    (e.last < r.1 ∨ r.2 < e.first) ∧
      ((e.last + e.shift : Int) < r.1 ∨ (r.2 : Int) < e.first + e.shift) := by
  decide +kernel

/-- A blank is its own upper case, and no other character becomes blank. -/
theorem all_isBlank_upperChar (c : Char) : (upperChar c).all isBlank = isBlank c := by
  unfold upperChar
  by_cases hascii : c.toNat < 0x80
  · -- there are few characters below 128, and each of them is looked at
    have htable : ∀ n < 0x80, isBlank (Char.ofNat n).toUpper = isBlank (Char.ofNat n) := by decide
    have hc := htable c.toNat hascii
    rw [Char.ofNat_toNat] at hc
    rw [if_pos hascii, List.all_cons, List.all_nil, Bool.and_true, hc]
  rw [if_neg hascii]
  unfold mapCase
  dsimp only
  split
  · next e he =>
    -- neither side of an expansion is blank, and the same goes for the ranges
    have hmem := Array.mem_toList_iff.mpr (Array.mem_of_find?_eq_some he)
    obtain ⟨hold, n, hn, hnew⟩ := not_blank_of_mem_upperExpansions e hmem
    have hcode : e.1 = c.toNat := by simpa using Array.find?_some he
    rw [isBlank_eq_false (hcode ▸ hold), List.all_eq_false]
    exact ⟨Char.ofNat n, List.mem_map_of_mem hn, by simp [isBlank_ofNat_eq_false hnew]⟩
  split
  · next e he =>
    have hmem := Array.mem_toList_iff.mpr (Array.mem_of_find?_eq_some he)
    have hrow := not_blank_of_mem_upperRanges e hmem
    have hholds := Array.find?_some he
    simp only [CaseRange.holds, decide_eq_true_eq] at hholds
    have hold : isBlank c = false := by
      refine isBlank_eq_false fun r hr => ?_
      have hrun := (hrow r hr).1
      omega
    have hnew : isBlank (Char.ofNat (c.toNat + e.shift).toNat) = false := by
      refine isBlank_ofNat_eq_false fun r hr => ?_
      have hrun := (hrow r hr).2
      have hpos := blankRuns_pos r hr
      omega
    rw [List.all_cons, hnew, hold, Bool.false_and]
  · rw [List.all_cons, List.all_nil, Bool.and_true]

theorem all_isBlank_upperChars (cs : List Char) :
    (upperChars cs).all isBlank = cs.all isBlank := by
  induction cs with
  | nil => rfl
  | cons c r ih =>
    rw [upperChars_cons, List.all_append, List.all_cons, all_isBlank_upperChar, ih]

/-! ### Texts in pieces -/

/-- A text in three pieces has their characters.  A piece that is written out is made of its
characters, so that none have to be decoded. -/
theorem toList_pieces (a b c : List Char) :
    (String.ofList a ++ String.ofList b ++ String.ofList c).toList = a ++ b ++ c := by
  rw [String.toList_append, String.toList_append, String.toList_ofList, String.toList_ofList,
    String.toList_ofList]

end DbSchema.Text
