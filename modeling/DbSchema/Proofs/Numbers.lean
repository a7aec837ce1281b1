import DbSchema.Error.Limits
import DbSchema.Proofs.Names
import DbSchema.Proofs.Text
import DbSchema.Value.Integer
import Mathlib.Data.Option.Basic
import Mathlib.Tactic.Common

/-!
# Integers read from texts

A text without signs and underscores denotes an integer exactly if it is one run of decimal digits
between blanks, none of which is an information separator.

## Main definitions

* `IsNumber cs` — a run of decimal digits that is not too long, between blanks of a number.

## Main results

* `isBlank_of_isDecimalDigit`, `isDecimalDigit_of_isDigit` — digits against the other classes.
* `digitRun?_eq_some_iff`, `readDigits?_of_run` — what a run of digits is read as.
* `integerOfText_of_run`, `integerOfText_cases`, `integerOfText_of_mem` — which texts denote an
  integer, and what is wrong with the others.
* `not_isLongInteger_of_lt`, `not_isLongInteger_of_readInteger?` — integers that have a text.
* `foldl_toDigits`, `ofDigits_toDigits` — a natural number is read back from its digits.
* `integerOfText_toString` — an integer that is not too long is read back from its text.
-/

namespace DbSchema.Number

open Text

/-! ### Digits and blanks -/

theorem decimalDigit?_of_isDigit {c : Char} (h : c.isDigit) :
    decimalDigit? c = some (c.toNat - '0'.toNat) := by
  have hc : 48 ≤ c.toNat ∧ c.toNat ≤ 57 := by
    simpa [Char.isDigit, UInt32.le_iff_toNat_le] using h
  have hzero : '0'.toNat = 48 := rfl
  unfold decimalDigit?
  rw [if_pos (by omega), if_pos hc, hzero]

theorem decimalDigit?_lt {c : Char} {d : Nat} (h : decimalDigit? c = some d) : d < 10 := by
  unfold decimalDigit? at h
  by_cases hn : c.toNat < 0x80
  · rw [if_pos hn] at h
    split at h
    · cases h
      omega
    · cases h
  · rw [if_neg hn, Option.map_eq_some_iff] at h
    obtain ⟨z, hz, rfl⟩ := h
    have hrange := List.find?_some hz
    simp only [decide_eq_true_eq] at hrange
    omega

theorem isDecimalDigit_of_isDigit {c : Char} (h : c.isDigit) : isDecimalDigit c := by
  rw [isDecimalDigit, decimalDigit?_of_isDigit h, Option.isSome_some]

/-- The digits of every script lie between the code points of the blanks. -/
theorem isBlank_of_isDecimalDigit {c : Char} (h : isDecimalDigit c) : isBlank c = false := by
  have htable : ∀ z ∈ digitZeros, ∀ r ∈ blankRuns, z + 10 ≤ r.1 ∨ r.2 < z := by decide
  have hzero : ∃ z ∈ digitZeros, z ≤ c.toNat ∧ c.toNat < z + 10 := by
    unfold isDecimalDigit decimalDigit? at h
    by_cases hn : c.toNat < 0x80
    · rw [if_pos hn] at h
      by_cases hd : 0x30 ≤ c.toNat ∧ c.toNat ≤ 0x39
      · exact ⟨0x30, by decide, by omega⟩
      · rw [if_neg hd] at h
        cases h
    · rw [if_neg hn, Option.isSome_map, List.find?_isSome] at h
      simpa using h
  obtain ⟨z, hz, hle, hlt⟩ := hzero
  refine isBlank_eq_false fun r hr => ?_
  have hrun := htable z hz r hr
  omega

theorem isNumberBlank_of_isDecimalDigit {c : Char} (h : isDecimalDigit c) :
    isNumberBlank c = false := by
  rw [isNumberBlank, isBlank_of_isDecimalDigit h, Bool.false_and]

/-! ### Trimming numbers -/

/-- Only blanks of a number are trimmed off it. -/
theorem exists_trimNumber (cs : List Char) :
    ∃ l r, cs = l ++ trimNumber cs ++ r ∧ (∀ c ∈ l, isNumberBlank c) ∧
      ∀ c ∈ r, isNumberBlank c := by
  have hstart := List.takeWhile_append_dropWhile (p := isNumberBlank) (l := cs)
  have hback := List.rdropWhile_append_rtakeWhile (p := isNumberBlank)
    (l := cs.dropWhile isNumberBlank)
  refine ⟨cs.takeWhile isNumberBlank, (cs.dropWhile isNumberBlank).rtakeWhile isNumberBlank, ?_,
    fun c hc => List.mem_takeWhile_imp hc, fun c hc => List.mem_rtakeWhile_imp hc⟩
  calc cs = cs.takeWhile isNumberBlank ++ cs.dropWhile isNumberBlank := hstart.symm
    _ = cs.takeWhile isNumberBlank ++ (trimNumber cs ++
          (cs.dropWhile isNumberBlank).rtakeWhile isNumberBlank) := by
        rw [trimNumber]
        exact congrArg (_ ++ ·) hback.symm
    _ = _ := (List.append_assoc _ _ _).symm

theorem trimNumber_subset (cs : List Char) : trimNumber cs ⊆ cs := by
  obtain ⟨l, r, h, -, -⟩ := exists_trimNumber cs
  intro c hc
  rw [h]
  exact List.mem_append_left _ (List.mem_append_right _ hc)

/-- A run of digits is what is left without the blanks of a number around it. -/
theorem trimNumber_of_run {l ds r : List Char} (hl : ∀ c ∈ l, isNumberBlank c)
    (hr : ∀ c ∈ r, isNumberBlank c) (hds : ∀ c ∈ ds, isDecimalDigit c) (hne : ds ≠ []) :
    trimNumber (l ++ ds ++ r) = ds :=
  rdropWhile_dropWhile_of_none hl hr (fun c hc => isNumberBlank_of_isDecimalDigit (hds c hc)) hne

/-! ### Runs of digits -/

/-- Without underscores every character of a run is a digit. -/
theorem digitRun?_eq_some_iff {digit? : Char → Option Nat} {cs : List Char} {ds : List Nat}
    (hcs : '_' ∉ cs) :
    digitRun? digit? cs = some ds ↔ cs ≠ [] ∧ cs.map digit? = ds.map some := by
  -- The induction follows the reader, so the underscore is a case of its own.
  fun_induction digitRun? digit? cs generalizing ds with
  | case1 => simp
  | case2 c r h =>
    cases ds <;> simp [h]
  | case3 c d h =>
    have hone : [c].map digit? = [d].map some := by rw [List.map_singleton, h, List.map_singleton]
    rw [hone, (List.map_injective_iff.mpr (Option.some_injective _)).eq_iff]
    simp
  | case4 c d h r ih => simp at hcs
  | case5 c d h r hne hu ih =>
    have hr : '_' ∉ r := fun hmem => hcs (List.mem_cons_of_mem _ hmem)
    constructor
    · intro hrun
      obtain ⟨ds', hds', rfl⟩ := Option.map_eq_some_iff.mp hrun
      refine ⟨List.cons_ne_nil _ _, ?_⟩
      rw [List.map_cons, h, ((ih hr).mp hds').2, List.map_cons]
    · rintro ⟨-, hmap⟩
      cases ds with
      | nil => cases hmap
      | cons d' ds' =>
        rw [List.map_cons, List.map_cons, List.cons.injEq, h, Option.some.injEq] at hmap
        have hrest := (ih hr).mpr ⟨hne, hmap.2⟩
        rw [hrest, Option.map_some, hmap.1]

/-- A run has the values of digits only. -/
theorem forall_of_digitRun? {digit? : Char → Option Nat} {P : Nat → Prop}
    (hdigit : ∀ c d, digit? c = some d → P d) {cs : List Char} {ds : List Nat}
    (h : digitRun? digit? cs = some ds) : ∀ d ∈ ds, P d := by
  fun_induction digitRun? digit? cs generalizing ds with
  | case1 => cases h
  | case2 => cases h
  | case3 c d hd =>
    cases h
    simpa using hdigit c d hd
  | case4 c d hd r ih | case5 c d hd r _ _ ih =>
    obtain ⟨ds', hds', rfl⟩ := Option.map_eq_some_iff.mp h
    exact List.forall_mem_cons.mpr ⟨hdigit c d hd, ih hds'⟩

/-- The values of the decimal digits of a list. -/
theorem map_decimalDigit? {cs : List Char} (h : ∀ c ∈ cs, isDecimalDigit c) :
    cs.map decimalDigit? = (cs.filterMap decimalDigit?).map some := by
  induction cs with
  | nil => rfl
  | cons c r ih =>
    obtain ⟨d, hd⟩ := Option.isSome_iff_exists.mp (h c List.mem_cons_self)
    rw [List.map_cons, List.filterMap_cons_some hd, List.map_cons, hd,
      ih fun c hc => h c (List.mem_cons_of_mem _ hc)]

/-- A text without signs is read from its first character on. -/
theorem readDigits?_of_unsigned {s : String} (hm : '-' ∉ s.toList) (hp : '+' ∉ s.toList) :
    readDigits? s = (digitRun? decimalDigit? (trimNumber s.toList)).map (false, ·) := by
  have hsign : splitSign (trimNumber s.toList) = (false, trimNumber s.toList) := by
    have hsub := trimNumber_subset s.toList
    unfold splitSign
    split
    · next h => exact absurd (hsub (h ▸ List.mem_cons_self)) hm
    · next h => exact absurd (hsub (h ▸ List.mem_cons_self)) hp
    · rfl
  unfold readDigits?
  rw [hsign]

/-- Whether the characters of a text may belong to an unsigned number. -/
def Unsigned (cs : List Char) : Prop := '_' ∉ cs ∧ '-' ∉ cs ∧ '+' ∉ cs

/-- A run of digits is read with the blanks of a number around it. -/
theorem readDigits?_of_run {l ds r : List Char} (hl : ∀ c ∈ l, isNumberBlank c)
    (hr : ∀ c ∈ r, isNumberBlank c) (hds : ∀ c ∈ ds, isDecimalDigit c) (hne : ds ≠ [])
    (hcs : Unsigned (l ++ ds ++ r)) :
    readDigits? (String.ofList (l ++ ds ++ r)) = some (false, ds.filterMap decimalDigit?) := by
  have hu : '_' ∉ ds := fun h => hcs.1 (List.mem_append_left _ (List.mem_append_right _ h))
  have hrun : digitRun? decimalDigit? ds = some (ds.filterMap decimalDigit?) :=
    (digitRun?_eq_some_iff hu).mpr ⟨hne, map_decimalDigit? hds⟩
  have htrim := trimNumber_of_run hl hr hds hne
  rw [readDigits?_of_unsigned, String.toList_ofList, htrim, hrun]
  · rfl
  · simpa using hcs.2.1
  · simpa using hcs.2.2

/-- What is read from an unsigned text is one run of digits. -/
theorem exists_run_of_readDigits? {cs : List Char} {negative : Bool} {values : List Nat}
    (hcs : Unsigned cs) (h : readDigits? (String.ofList cs) = some (negative, values)) :
    ∃ l ds r, cs = l ++ ds ++ r ∧ (∀ c ∈ l, isNumberBlank c) ∧ (∀ c ∈ r, isNumberBlank c) ∧
      ds ≠ [] ∧ (∀ c ∈ ds, isDecimalDigit c) ∧ values = ds.filterMap decimalDigit? := by
  obtain ⟨l, r, hsplit, hl, hr⟩ := exists_trimNumber cs
  rw [readDigits?_of_unsigned (by simpa using hcs.2.1) (by simpa using hcs.2.2),
    String.toList_ofList] at h
  obtain ⟨ds, hds, hpair⟩ := Option.map_eq_some_iff.mp h
  cases hpair
  have hu : '_' ∉ trimNumber cs := fun hmem => hcs.1 (trimNumber_subset cs hmem)
  obtain ⟨hne, hmap⟩ := (digitRun?_eq_some_iff hu).mp hds
  have hdigit : ∀ c ∈ trimNumber cs, isDecimalDigit c := by
    intro c hc
    have hmem : decimalDigit? c ∈ (trimNumber cs).map decimalDigit? := List.mem_map_of_mem hc
    rw [hmap] at hmem
    obtain ⟨d, -, hd⟩ := List.mem_map.mp hmem
    rw [isDecimalDigit, ← hd]
    rfl
  refine ⟨l, trimNumber cs, r, hsplit, hl, hr, hne, hdigit, ?_⟩
  rw [map_decimalDigit? hdigit] at hmap
  exact (List.map_injective_iff.mpr (Option.some_injective _) hmap).symm

/-! ### Integers -/

theorem length_filterMap_decimalDigit? {ds : List Char} (h : ∀ c ∈ ds, isDecimalDigit c) :
    (ds.filterMap decimalDigit?).length = ds.length := by
  have hlen := congrArg List.length (map_decimalDigit? h)
  rw [List.length_map, List.length_map] at hlen
  exact hlen.symm

/-- A run of digits that is not too long denotes its value. -/
theorem integerOfText_of_run {l ds r : List Char} (hl : ∀ c ∈ l, isNumberBlank c)
    (hr : ∀ c ∈ r, isNumberBlank c) (hds : ∀ c ∈ ds, isDecimalDigit c) (hne : ds ≠ [])
    (hcs : Unsigned (l ++ ds ++ r)) (hlen : ds.length ≤ maxDigits) (v : Value) :
    integerOfText v (String.ofList (l ++ ds ++ r)) =
      .ok (ofDigits 10 (ds.filterMap decimalDigit?)) := by
  unfold integerOfText
  rw [readDigits?_of_run hl hr hds hne hcs]
  simp only [length_filterMap_decimalDigit? hds, hlen, if_true, signed]
  rfl

/-- A run of decimal digits that is not too long, between blanks of a number. -/
def IsNumber (cs : List Char) : Prop :=
  ∃ l ds r, cs = l ++ ds ++ r ∧ (∀ c ∈ l, isNumberBlank c) ∧ (∀ c ∈ r, isNumberBlank c) ∧
    ds ≠ [] ∧ (∀ c ∈ ds, isDecimalDigit c) ∧ ds.length ≤ maxDigits

/-- An unsigned text denotes an integer exactly if it is a number; otherwise either it is no run
of digits or the run is too long. -/
theorem integerOfText_cases {cs : List Char} (hcs : Unsigned cs) (v : Value) :
    (IsNumber cs ∧ ∃ n, integerOfText v (String.ofList cs) = .ok n) ∨
      (¬ IsNumber cs ∧ (integerOfText v (String.ofList cs) = .error (.badInteger v) ∨
        ∃ k > maxDigits, integerOfText v (String.ofList cs) = .error (.longInteger k))) := by
  by_cases hn : IsNumber cs
  · obtain ⟨l, ds, r, rfl, hl, hr, hne, hds, hlen⟩ := id hn
    exact .inl ⟨hn, _, integerOfText_of_run hl hr hds hne hcs hlen v⟩
  · refine .inr ⟨hn, ?_⟩
    unfold integerOfText
    cases hread : readDigits? (String.ofList cs) with
    | none => exact .inl rfl
    | some p =>
      obtain ⟨negative, values⟩ := p
      obtain ⟨l, ds, r, hsplit, hl, hr, hne, hds, rfl⟩ := exists_run_of_readDigits? hcs hread
      have hlong : ¬ ds.length ≤ maxDigits :=
        fun hlen => hn ⟨l, ds, r, hsplit, hl, hr, hne, hds, hlen⟩
      refine .inr ⟨ds.length, by omega, ?_⟩
      simp only [length_filterMap_decimalDigit? hds, if_neg hlong]

/-- A character that is neither a digit nor a blank of a number spoils a text. -/
theorem integerOfText_of_mem {cs : List Char} (hcs : Unsigned cs) {c : Char} (hc : c ∈ cs)
    (hb : isNumberBlank c = false) (hd : isDecimalDigit c = false) (v : Value) :
    integerOfText v (String.ofList cs) = .error (.badInteger v) := by
  have hnone : readDigits? (String.ofList cs) = none := by
    cases hread : readDigits? (String.ofList cs) with
    | none => rfl
    | some p =>
      obtain ⟨l, ds, r, rfl, hl, hr, -, hds, -⟩ := exists_run_of_readDigits? hcs hread
      rcases List.mem_append.mp hc with hc | hc
      · rcases List.mem_append.mp hc with hc | hc
        · exact absurd (hl c hc) (by simp [hb])
        · exact absurd (hds c hc) (by simp [hd])
      · exact absurd (hr c hc) (by simp [hb])
  unfold integerOfText
  rw [hnone]

/-! ### The size of an integer that was read -/

theorem tenTo_succ (n : Nat) : Binary64.tenTo (n + 1) = Binary64.tenTo n * 10 := rfl

theorem tenTo_le {m n : Nat} (h : m ≤ n) : Binary64.tenTo m ≤ Binary64.tenTo n :=
  Nat.pow_le_pow_right (by decide) h

/-- Digits denote a number that has no more of them. -/
theorem ofDigits_lt {ds : List Nat} (h : ∀ d ∈ ds, d < 10) :
    ofDigits 10 ds < Binary64.tenTo ds.length := by
  have hfold : ∀ n k, n < Binary64.tenTo k →
      ds.foldl (fun n d => n * 10 + d) n < Binary64.tenTo (k + ds.length) := by
    induction ds with
    | nil => exact fun n k hn => hn
    | cons d r ih =>
      intro n k hn
      have hd : d < 10 := h d List.mem_cons_self
      have hstep : n * 10 + d < Binary64.tenTo (k + 1) := by
        rw [tenTo_succ]
        omega
      have hrest := ih (fun e he => h e (List.mem_cons_of_mem d he)) (n * 10 + d) (k + 1) hstep
      rw [List.foldl_cons, List.length_cons]
      rwa [Nat.add_assoc, Nat.add_comm 1] at hrest
  have hall := hfold 0 0 Nat.one_pos
  rwa [Nat.zero_add] at hall

/-- An integer of few enough digits has a text. -/
theorem not_isLongInteger_of_lt {i : Int} {k : Nat} (h : i.natAbs < Binary64.tenTo k)
    (hk : k ≤ maxDigits) : ¬ isLongInteger i := by
  rw [isLongInteger, decide_eq_true_iff]
  exact Nat.not_le.mpr (h.trans_le (tenTo_le hk))

/-- An integer that was read has a text. -/
theorem not_isLongInteger_of_readInteger? {s : String} {i : Int} (h : readInteger? s = some i) :
    ¬ isLongInteger i := by
  unfold readInteger? at h
  split at h
  · cases h
  · next negative ds hread =>
    split at h
    · next hle =>
      have hdigits : ∀ d ∈ ds, d < 10 := by
        unfold readDigits? at hread
        obtain ⟨ds', hds', hpair⟩ := Option.map_eq_some_iff.mp hread
        cases hpair
        exact forall_of_digitRun? (fun c d => decimalDigit?_lt) hds'
      have habs : (signed negative (ofDigits 10 ds)).natAbs = ofDigits 10 ds := by
        cases negative <;> simp [signed]
      cases h
      apply not_isLongInteger_of_lt _ hle
      rw [habs]
      exact ofDigits_lt hdigits
    · cases h

/-! ### The digits of a natural number -/

theorem isDecimalDigit_toDigits (n : Nat) : ∀ c ∈ Nat.toDigits 10 n, isDecimalDigit c :=
  fun _ hc => isDecimalDigit_of_isDigit (Nat.isDigit_of_mem_toDigits (by decide) (by decide) hc)

/-- The digits of a natural number give it back, one after the other. -/
theorem foldl_toDigits (n : Nat) :
    (Nat.toDigits 10 n).foldl (fun k c => k * 10 + (c.toNat - '0'.toNat)) 0 = n := by
  have hread := Nat.ofDigitChars_ten_toDigits (n := n)
  rw [Nat.ofDigitChars_eq_foldl] at hread
  calc (Nat.toDigits 10 n).foldl (fun k c => k * 10 + (c.toNat - '0'.toNat)) 0
      = (Nat.toDigits 10 n).foldl (fun k c => 10 * k + (c.toNat - '0'.toNat)) 0 := by
        simp only [Nat.mul_comm]
    _ = n := hread

/-- The digits of a natural number denote it. -/
theorem ofDigits_toDigits (n : Nat) :
    ofDigits 10 ((Nat.toDigits 10 n).filterMap decimalDigit?) = n := by
  have hvalue : ∀ c ∈ Nat.toDigits 10 n, decimalDigit? c = some (c.toNat - '0'.toNat) :=
    fun _ hc => decimalDigit?_of_isDigit (Nat.isDigit_of_mem_toDigits (by decide) (by decide) hc)
  rw [ofDigits, List.filterMap_congr hvalue, List.filterMap_eq_map', List.foldl_map,
    foldl_toDigits]

/-! ### Integers written out -/

theorem toList_toString (n : Int) :
    (toString n).toList = (if n < 0 then ['-'] else []) ++ Nat.toDigits 10 n.natAbs := by
  cases n with
  | ofNat k =>
    rw [if_neg (by simp)]
    exact Nat.toList_repr
  | negSucc k =>
    rw [if_pos (Int.negSucc_lt_zero k)]
    show ("-" ++ Nat.repr (k + 1)).toList = _
    rw [String.toList_append, Nat.toList_repr]
    rfl

/-- An integer is written with a minus sign and digits. -/
theorem eq_minus_or_isDecimalDigit {n : Int} {c : Char} (hc : c ∈ (toString n).toList) :
    c = '-' ∨ isDecimalDigit c := by
  rw [toList_toString, List.mem_append] at hc
  rcases hc with hc | hc
  · split at hc
    · exact .inl (List.mem_singleton.mp hc)
    · cases hc
  · exact .inr (isDecimalDigit_toDigits _ c hc)

theorem not_isBlank_of_mem_toString {n : Int} {c : Char} (hc : c ∈ (toString n).toList) :
    isBlank c = false := by
  rcases eq_minus_or_isDecimalDigit hc with rfl | hd
  · decide
  · exact isBlank_of_isDecimalDigit hd

theorem toString_ne_empty (n : Int) : toString n ≠ "" := by
  rw [← String.toList_inj.ne, toList_toString]
  exact List.append_ne_nil_of_right_ne_nil _ Nat.toDigits_ne_nil

/-- Nothing is trimmed off an integer, whichever blanks are looked for. -/
theorem dropWhile_toString {p : Char → Bool} (hp : ∀ c, p c → isBlank c) (n : Int) :
    ((toString n).toList.dropWhile p).rdropWhile p = (toString n).toList := by
  have hnone : ∀ c ∈ (toString n).toList, p c = false := by
    intro c hc
    by_contra hblank
    have hb := hp c (by simpa using hblank)
    rw [not_isBlank_of_mem_toString hc] at hb
    cases hb
  have hall := rdropWhile_dropWhile_of_none (l := []) (r := []) (by simp) (by simp) hnone
    (String.toList_inj.ne.mpr (toString_ne_empty n))
  rwa [List.nil_append, List.append_nil] at hall

theorem trimmed_toString (n : Int) : Trimmed (toString n) :=
  trimmed_iff.mpr (dropWhile_toString (fun _ h => h) n)

theorem comma_not_mem_toString (n : Int) : ',' ∉ (toString n).toList := by
  intro h
  rcases eq_minus_or_isDecimalDigit h with h | h
  · exact absurd h (by decide)
  · exact absurd h (by decide)

/-- The sign of an integer that is written out is read back, and so are its digits. -/
theorem splitSign_toString (n : Int) :
    splitSign (toString n).toList = (decide (n < 0), Nat.toDigits 10 n.natAbs) := by
  rw [toList_toString]
  by_cases hn : n < 0
  · rw [if_pos hn, decide_eq_true hn]
    rfl
  · rw [if_neg hn, decide_eq_false hn, List.nil_append]
    have hdigit := isDecimalDigit_toDigits n.natAbs
    unfold splitSign
    split
    · next h => exact absurd (hdigit '-' (h ▸ List.mem_cons_self)) (by decide)
    · next h => exact absurd (hdigit '+' (h ▸ List.mem_cons_self)) (by decide)
    · rfl

theorem readDigits?_toString (n : Int) :
    readDigits? (toString n) =
      some (decide (n < 0), (Nat.toDigits 10 n.natAbs).filterMap decimalDigit?) := by
  have htrim : trimNumber (toString n).toList = (toString n).toList := by
    refine dropWhile_toString (fun c hc => ?_) n
    rw [isNumberBlank, Bool.and_eq_true] at hc
    exact hc.1
  have hplain : '_' ∉ Nat.toDigits 10 n.natAbs := fun h =>
    absurd (isDecimalDigit_toDigits _ _ h) (by decide)
  have hrun := (digitRun?_eq_some_iff hplain).mpr
    ⟨Nat.toDigits_ne_nil, map_decimalDigit? (isDecimalDigit_toDigits n.natAbs)⟩
  unfold readDigits?
  rw [htrim, splitSign_toString]
  exact congrArg (Option.map (decide (n < 0), ·)) hrun

theorem length_toDigits_le {n k : Nat} (hk : 0 < k) (h : n < Binary64.tenTo k) :
    (Nat.toDigits 10 n).length ≤ k :=
  (Nat.length_toDigits_le_iff (by decide) hk).mpr h

/-- **An integer that is not too long is read back from its text.** -/
theorem integerOfText_toString {n : Int} (h : ¬ isLongInteger n) (v : Value) :
    integerOfText v (toString n) = .ok n := by
  have hshort : n.natAbs < longIntegerSize := by
    rw [isLongInteger, decide_eq_true_iff] at h
    exact Nat.not_le.mp h
  have hlength : ((Nat.toDigits 10 n.natAbs).filterMap decimalDigit?).length ≤ maxDigits := by
    rw [length_filterMap_decimalDigit? (isDecimalDigit_toDigits _)]
    exact length_toDigits_le (by decide) hshort
  unfold integerOfText
  rw [readDigits?_toString]
  simp only [if_pos hlength, ofDigits_toDigits, signed]
  congr 1
  by_cases hn : n < 0
  · rw [if_pos (decide_eq_true hn)]
    omega
  · rw [if_neg (by simpa using hn)]
    omega

end DbSchema.Number
