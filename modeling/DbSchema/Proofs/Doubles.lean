import DbSchema.Number.Shortest
import Mathlib.Tactic.Common

/-!
# Numbers of the double format

A finite number of the format has one mantissa and one exponent, and every number that is read from
a text or computed has them.  Such numbers are equal exactly if they are the same multiple of the
least positive number, and so they can be compared with integers as well.

## Main definitions

* `Binary64.Canonical` — a number with the mantissa and the exponent of the format.
* `Binary64.units` — a finite number as a multiple of the least positive one.

## Main results

* `Binary64.leadingPower_spec` — the power of two that a ratio reaches.
* `Binary64.canonical_ofRatio`, `Binary64.canonical_ofText?` — numbers of the format are made.
* `Binary64.same_finite_iff`, `Binary64.equalsInt_iff` — equality by multiples.
-/

namespace DbSchema.Binary64

/-! ### Powers of two -/

theorem twoTo_pos (n : Nat) : 0 < twoTo n := Nat.pow_pos (by decide)

theorem twoTo_add (m n : Nat) : twoTo (m + n) = twoTo m * twoTo n := Nat.pow_add 2 m n

theorem twoTo_le {m n : Nat} (h : m ≤ n) : twoTo m ≤ twoTo n := Nat.pow_le_pow_right (by decide) h

theorem twoTo_log2_le {n : Nat} (h : n ≠ 0) : twoTo n.log2 ≤ n := Nat.log2_self_le h

theorem lt_twoTo_log2 (n : Nat) : n < twoTo (n.log2 + 1) := Nat.lt_log2_self

/-! ### Rounding -/

section

variable {num den : Nat} {p e : Int} {k : Nat}

/-- The ratio is at least the power of two. -/
def Reaches (num den : Nat) (p : Int) : Prop := den * twoTo p.toNat ≤ num * twoTo (-p).toNat

instance : Decidable (Reaches num den p) := inferInstanceAs (Decidable (_ ≤ _))

theorem reaches_iff : Reaches num den p ↔
    if 0 ≤ p then den * twoTo p.toNat ≤ num else den ≤ num * twoTo (-p).toNat := by
  unfold Reaches
  split
  · next h =>
    have hzero : (-p).toNat = 0 := by omega
    rw [hzero]
    exact iff_of_eq (congrArg _ (Nat.mul_one num))
  · next h =>
    have hzero : p.toNat = 0 := by omega
    rw [hzero]
    exact iff_of_eq (congrArg (· ≤ _) (Nat.mul_one den))

/-- Scaling by a lower power leaves a ratio that reaches a power at least the one between. -/
theorem Reaches.le_scaled (h : Reaches num den p) (hp : e + k ≤ p) :
    den * twoTo e.toNat * twoTo k ≤ num * twoTo (-e).toNat := by
  have hexponents : e.toNat + k + (-p).toNat ≤ p.toNat + (-e).toNat := by omega
  apply Nat.le_of_mul_le_mul_right _ (twoTo_pos (-p).toNat)
  calc den * twoTo e.toNat * twoTo k * twoTo (-p).toNat
      = den * twoTo (e.toNat + k + (-p).toNat) := by simp only [twoTo_add, Nat.mul_assoc]
    _ ≤ den * twoTo (p.toNat + (-e).toNat) := Nat.mul_le_mul_left den (twoTo_le hexponents)
    _ = den * twoTo p.toNat * twoTo (-e).toNat := by rw [twoTo_add, Nat.mul_assoc]
    _ ≤ num * twoTo (-p).toNat * twoTo (-e).toNat := Nat.mul_le_mul_right _ h
    _ = num * twoTo (-e).toNat * twoTo (-p).toNat := Nat.mul_right_comm _ _ _

/-- Scaling by a power leaves a ratio that does not reach a power below the one between. -/
theorem lt_scaled_of_not_reaches (h : ¬ Reaches num den p) (hp : p ≤ e + k) :
    num * twoTo (-e).toNat < den * twoTo e.toNat * twoTo k := by
  have hlt : num * twoTo (-p).toNat < den * twoTo p.toNat := Nat.not_le.mp h
  have hexponents : p.toNat + (-e).toNat ≤ e.toNat + k + (-p).toNat := by omega
  apply Nat.lt_of_mul_lt_mul_right (a := twoTo (-p).toNat)
  calc num * twoTo (-e).toNat * twoTo (-p).toNat
      = num * twoTo (-p).toNat * twoTo (-e).toNat := Nat.mul_right_comm _ _ _
    _ < den * twoTo p.toNat * twoTo (-e).toNat := Nat.mul_lt_mul_of_pos_right hlt (twoTo_pos _)
    _ = den * twoTo (p.toNat + (-e).toNat) := by rw [twoTo_add, Nat.mul_assoc]
    _ ≤ den * twoTo (e.toNat + k + (-p).toNat) := Nat.mul_le_mul_left den (twoTo_le hexponents)
    _ = den * twoTo e.toNat * twoTo k * twoTo (-p).toNat := by
      simp only [twoTo_add, Nat.mul_assoc]

/-- The logarithms bound the leading power from below. -/
theorem reaches_log2 (hnum : num ≠ 0) (den : Nat) :
    Reaches num den ((num.log2 : Int) - den.log2 - 1) := by
  have hden' := lt_twoTo_log2 den
  have hnum' := twoTo_log2_le hnum
  have hexponents : den.log2 + 1 + ((num.log2 : Int) - den.log2 - 1).toNat =
      num.log2 + (-((num.log2 : Int) - den.log2 - 1)).toNat := by omega
  calc den * twoTo ((num.log2 : Int) - den.log2 - 1).toNat
      ≤ twoTo (den.log2 + 1) * twoTo ((num.log2 : Int) - den.log2 - 1).toNat :=
        Nat.mul_le_mul_right _ (Nat.le_of_lt hden')
    _ = twoTo num.log2 * twoTo (-((num.log2 : Int) - den.log2 - 1)).toNat := by
      rw [← twoTo_add, ← twoTo_add, hexponents]
    _ ≤ num * twoTo (-((num.log2 : Int) - den.log2 - 1)).toNat := Nat.mul_le_mul_right _ hnum'

/-- The logarithms bound the leading power from above. -/
theorem not_reaches_log2 (num : Nat) (hden : den ≠ 0) :
    ¬ Reaches num den ((num.log2 : Int) - den.log2 + 1) := by
  have hden' := twoTo_log2_le hden
  have hnum' := lt_twoTo_log2 num
  have hexponents : num.log2 + 1 + (-((num.log2 : Int) - den.log2 + 1)).toNat =
      den.log2 + ((num.log2 : Int) - den.log2 + 1).toNat := by omega
  apply Nat.not_le.mpr
  calc num * twoTo (-((num.log2 : Int) - den.log2 + 1)).toNat
      < twoTo (num.log2 + 1) * twoTo (-((num.log2 : Int) - den.log2 + 1)).toNat :=
        Nat.mul_lt_mul_of_pos_right hnum' (twoTo_pos _)
    _ = twoTo den.log2 * twoTo ((num.log2 : Int) - den.log2 + 1).toNat := by
      rw [← twoTo_add, ← twoTo_add, hexponents]
    _ ≤ den * twoTo ((num.log2 : Int) - den.log2 + 1).toNat := Nat.mul_le_mul_right _ hden'

/-- The leading power is the greatest that the ratio reaches. -/
theorem leadingPower_spec (hnum : num ≠ 0) (hden : den ≠ 0) :
    Reaches num den (leadingPower num den) ∧ ¬ Reaches num den (leadingPower num den + 1) := by
  have hguess : leadingPower num den = if Reaches num den ((num.log2 : Int) - den.log2) then
      (num.log2 : Int) - den.log2 else (num.log2 : Int) - den.log2 - 1 := by
    unfold leadingPower
    exact if_congr reaches_iff.symm rfl rfl
  rw [hguess]
  -- two powers are left between the bounds, and the test decides between them
  split
  · next hreach => exact ⟨hreach, not_reaches_log2 num hden⟩
  · next hreach => exact ⟨reaches_log2 hnum den, by rwa [Int.sub_add_cancel]⟩

theorem roundQuotient_le (h : num < den * k) : roundQuotient num den ≤ k := by
  have hquotient : num / den < k := Nat.div_lt_of_lt_mul h
  unfold roundQuotient
  dsimp only
  split_ifs <;> omega

theorem le_roundQuotient (hden : den ≠ 0) (h : den * k ≤ num) : k ≤ roundQuotient num den := by
  have hquotient : k ≤ num / den :=
    (Nat.le_div_iff_mul_le (Nat.pos_of_ne_zero hden)).mpr (by rwa [Nat.mul_comm])
  unfold roundQuotient
  dsimp only
  split_ifs <;> omega

/-- The mantissa is the rounded ratio, scaled by the exponent whatever its sign. -/
theorem roundQuotient_scaled (num den : Nat) (e : Int) :
    (if 0 ≤ e then roundQuotient num (den * twoTo e.toNat)
      else roundQuotient (num * twoTo (-e).toNat) den) =
      roundQuotient (num * twoTo (-e).toNat) (den * twoTo e.toNat) := by
  split
  · next h =>
    rw [show (-e).toNat = 0 by omega]
    exact congrArg (roundQuotient · _) (Nat.mul_one num).symm
  · next h =>
    rw [show e.toNat = 0 by omega]
    exact congrArg (roundQuotient _) (Nat.mul_one den).symm

end

/-! ### Numbers of the format -/

/-- A number with the mantissa and the exponent of the format: zero has the exponent zero, and a
mantissa has 53 bits unless the exponent is the least. -/
def Canonical : Binary64 → Prop
  | finite _ m e => (m = 0 ∧ e = 0) ∨ (m ≠ 0 ∧ m < twoTo 53 ∧ minExponent ≤ e ∧ e ≤ maxExponent ∧
      (twoTo 52 ≤ m ∨ e = minExponent))
  | _ => True

theorem canonical_within (negative : Bool) {m : Nat} {e : Int} (hm : m < twoTo 53)
    (he : minExponent ≤ e) (hlarge : twoTo 52 ≤ m ∨ e = minExponent) :
    (if m = 0 then finite negative 0 0 else if maxExponent < e then infinite negative
      else finite negative m e).Canonical := by
  split_ifs with hzero hmax
  · exact .inl ⟨rfl, rfl⟩
  · trivial
  · exact .inr ⟨hzero, hm, he, Int.not_lt.mp hmax, hlarge⟩

/-- **The nearest number to a ratio is one of the format.** -/
theorem canonical_ofRatio (negative : Bool) (num : Nat) {den : Nat} (hden : den ≠ 0) :
    (ofRatio negative num den).Canonical := by
  by_cases hnum : num = 0
  · rw [ofRatio, if_pos hnum]
    exact .inl ⟨rfl, rfl⟩
  obtain ⟨hreach, hnot⟩ := leadingPower_spec hnum hden
  rw [ofRatio, if_neg hnum]
  generalize he : max (leadingPower num den - 52) minExponent = e
  dsimp only
  rw [roundQuotient_scaled]
  generalize hm : roundQuotient (num * twoTo (-e).toNat) (den * twoTo e.toNat) = m
  have hle : m ≤ twoTo 53 := by
    rw [← hm]
    exact roundQuotient_le (lt_scaled_of_not_reaches hnot (by omega))
  have hlarge : twoTo 52 ≤ m ∨ e = minExponent := by
    by_cases hmin : leadingPower num den - 52 ≤ minExponent
    · exact .inr (by omega)
    · left
      rw [← hm]
      exact le_roundQuotient (Nat.mul_ne_zero hden (Nat.ne_of_gt (twoTo_pos _)))
        (hreach.le_scaled (by omega))
  have hmin : minExponent ≤ e := by omega
  by_cases hcarry : m = twoTo 53
  · simp only [if_pos hcarry]
    exact canonical_within negative (by decide) (by omega) (.inl (Nat.le_refl _))
  · simp only [if_neg hcarry]
    exact canonical_within negative (Nat.lt_of_le_of_ne hle hcarry) hmin hlarge

theorem canonical_of_ofDecimal {negative : Bool} {digits length : Nat} {power : Int}
    {x : Binary64} (h : ofDecimal negative digits length power = x) : x.Canonical := by
  rw [← h]
  unfold ofDecimal
  split_ifs
  · exact .inl ⟨rfl, rfl⟩
  · trivial
  · exact .inl ⟨rfl, rfl⟩
  · exact canonical_ofRatio _ _ (by decide)
  · exact canonical_ofRatio _ _ (Nat.ne_of_gt (Nat.pow_pos (by decide)))

/-- **A number that is read from a text is one of the format.** -/
theorem canonical_ofText? {s : String} {x : Binary64} (h : ofText? s = some x) : x.Canonical := by
  unfold ofText? ofUnsigned? at h
  dsimp only at h
  split_ifs at h
  · cases h
    trivial
  · cases h
    trivial
  · obtain ⟨power, -, hx⟩ := Option.map_eq_some_iff.mp h
    exact canonical_of_ofDecimal hx

/-! ### Multiples of the least positive number -/

/-- A finite number as a multiple of the least positive one. -/
def units : Binary64 → Int
  | finite s m e => if s then -((m * twoTo (e - minExponent).toNat : Nat) : Int)
      else ((m * twoTo (e - minExponent).toNat : Nat) : Int)
  | _ => 0

theorem scaled_eq_zero {m k : Nat} : m * twoTo k = 0 ↔ m = 0 := by
  rw [Nat.mul_eq_zero]
  exact or_iff_left (Nat.ne_of_gt (twoTo_pos k))

/-- A long mantissa is not needed when a short one will do. -/
theorem exponent_le {m m' : Nat} {e e' : Int} (hm : m < twoTo 53) (he : minExponent ≤ e)
    (hlarge : twoTo 52 ≤ m' ∨ e' = minExponent)
    (heq : m * twoTo (e - minExponent).toNat = m' * twoTo (e' - minExponent).toNat) : e' ≤ e := by
  by_contra hlt
  have hm' : twoTo 52 ≤ m' := hlarge.resolve_right (by omega)
  have hexponents : 1 + (e - minExponent).toNat ≤ (e' - minExponent).toNat := by omega
  apply absurd heq
  apply Nat.ne_of_lt
  calc m * twoTo (e - minExponent).toNat
      < twoTo 53 * twoTo (e - minExponent).toNat := Nat.mul_lt_mul_of_pos_right hm (twoTo_pos _)
    _ = twoTo 52 * twoTo (1 + (e - minExponent).toNat) := by
      rw [← twoTo_add, ← twoTo_add]
      exact congrArg twoTo (by omega)
    _ ≤ m' * twoTo (e' - minExponent).toNat := Nat.mul_le_mul hm' (twoTo_le hexponents)

/-- The number one as a multiple of the least positive one. -/
def unitsOfOne : Int := (twoTo (-minExponent).toNat : Nat)

theorem unitsOfOne_ne_zero : unitsOfOne ≠ 0 :=
  Int.natCast_ne_zero.mpr (Nat.ne_of_gt (twoTo_pos _))

/-- A number of the format has one mantissa and one exponent. -/
theorem eq_of_scaled_eq {s s' : Bool} {m m' : Nat} {e e' : Int} (h : (finite s m e).Canonical)
    (h' : (finite s' m' e').Canonical)
    (heq : m * twoTo (e - minExponent).toNat = m' * twoTo (e' - minExponent).toNat) :
    m = m' ∧ e = e' := by
  rcases h with ⟨rfl, rfl⟩ | ⟨hne, hm, he, -, hlarge⟩ <;>
    rcases h' with ⟨rfl, rfl⟩ | ⟨hne', hm', he', -, hlarge'⟩
  · exact ⟨rfl, rfl⟩
  · rw [Nat.zero_mul] at heq
    exact absurd (scaled_eq_zero.mp heq.symm) hne'
  · rw [Nat.zero_mul] at heq
    exact absurd (scaled_eq_zero.mp heq) hne
  · have hexponent : e = e' := by
      have hle := exponent_le hm he hlarge' heq
      have hge := exponent_le hm' he' hlarge heq.symm
      omega
    subst hexponent
    exact ⟨Nat.eq_of_mul_eq_mul_right (twoTo_pos _) heq, rfl⟩

/-- **Numbers of the format are equal exactly if they are the same multiple.** -/
theorem same_finite_iff {s s' : Bool} {m m' : Nat} {e e' : Int} (h : (finite s m e).Canonical)
    (h' : (finite s' m' e').Canonical) :
    (finite s m e).same (finite s' m' e') ↔ (finite s m e).units = (finite s' m' e').units := by
  have hzero := scaled_eq_zero (m := m) (k := (e - minExponent).toNat)
  have hzero' := scaled_eq_zero (m := m') (k := (e' - minExponent).toNat)
  have hunique := eq_of_scaled_eq h h'
  simp only [same, units, Bool.or_eq_true, Bool.and_eq_true, beq_iff_eq]
  constructor
  · rintro (⟨rfl, rfl⟩ | ⟨⟨rfl, rfl⟩, rfl⟩)
    · simp
    · rfl
  · intro heq
    cases s <;> cases s' <;> simp only [if_true, Bool.false_eq_true, if_false] at heq
    · exact .inr ⟨⟨rfl, (hunique (by omega)).1⟩, (hunique (by omega)).2⟩
    · exact .inl ⟨hzero.mp (by omega), hzero'.mp (by omega)⟩
    · exact .inl ⟨hzero.mp (by omega), hzero'.mp (by omega)⟩
    · exact .inr ⟨⟨rfl, (hunique (by omega)).1⟩, (hunique (by omega)).2⟩

/-- Fractions that are equal stay so with one denominator in place of the other. -/
theorem eq_mul_iff {x y d u : Int} (hd : d ≠ 0) (hu : u ≠ 0) (h : x * u = y * d) (i : Int) :
    x = i * d ↔ y = i * u := by
  constructor
  · intro hx
    apply Int.eq_of_mul_eq_mul_right hd
    rw [← h, hx, Int.mul_right_comm]
  · intro hy
    apply Int.eq_of_mul_eq_mul_right hu
    rw [h, hy, Int.mul_right_comm]

theorem ratio_den_ne_zero (m : Nat) (e : Int) : (ratio m e).2 ≠ 0 := by
  unfold ratio
  split
  · exact Nat.one_ne_zero
  · exact Nat.ne_of_gt (twoTo_pos _)

/-- The fraction of a number is the same multiple, whatever the denominator. -/
theorem ratio_scaled (m : Nat) {e : Int} (he : minExponent ≤ e) :
    (ratio m e).1 * twoTo (-minExponent).toNat =
      m * twoTo (e - minExponent).toNat * (ratio m e).2 := by
  have hleast : minExponent ≤ 0 := by decide
  unfold ratio
  split
  · rw [Nat.mul_assoc, ← twoTo_add, Nat.mul_one]
    exact congrArg (m * twoTo ·) (by omega)
  · rw [Nat.mul_assoc, ← twoTo_add]
    exact congrArg (m * twoTo ·) (by omega)

/-- A number of the format equals an integer exactly if it is the same multiple. -/
theorem equalsInt_iff {s : Bool} {m : Nat} {e : Int} (h : (finite s m e).Canonical) (i : Int) :
    (finite s m e).equalsInt i ↔ (finite s m e).units = i * unitsOfOne := by
  have hmin : minExponent ≤ e := by
    rcases h with ⟨-, rfl⟩ | ⟨-, -, he, -⟩
    · decide
    · exact he
  have hden : ((ratio m e).2 : Int) ≠ 0 := Int.natCast_ne_zero.mpr (ratio_den_ne_zero m e)
  have hscale : ((ratio m e).1 : Int) * unitsOfOne =
      (m * twoTo (e - minExponent).toNat : Nat) * (ratio m e).2 := by
    unfold unitsOfOne
    exact_mod_cast ratio_scaled m hmin
  simp only [equalsInt, units, beq_iff_eq]
  cases s
  · exact eq_mul_iff hden unitsOfOne_ne_zero hscale i
  · refine eq_mul_iff hden unitsOfOne_ne_zero ?_ i
    rw [if_pos rfl, if_pos rfl, Int.neg_mul, Int.neg_mul, hscale]

end DbSchema.Binary64
