import DbSchema.Proofs.Doubles
import DbSchema.Value.Basic

/-!
# Equality of keys

Two values that may be keys are equal exactly if they have the same meaning: numbers of every kind
mean their size, moments with an offset mean a point of one time line, and not a number means
nothing.  So equality of keys is symmetric and transitive, though a key need not equal itself.

## Main definitions

* `Value.Canonical` — the numbers in a key are of the double format.
* `Value.Sense`, `Value.sense?` — what a key means.
* `Value.IsKey` — a value that may be a key, with such numbers.

## Main results

* `Value.same_iff_sense` — keys are equal exactly if they have the same meaning.
* `Value.IsKey.same_symm`, `Value.IsKey.same_trans` — equality of keys is symmetric and
  transitive.
-/

namespace DbSchema.Value

/-! ### Meanings -/

mutual

/-- The numbers that are a key, or stand in one, are of the double format, as all numbers are that
were read from a text (`Binary64.canonical_ofText?`). -/
def Canonical : Value → Prop
  | .float x => x.Canonical
  | .tuple items _ => AllCanonical items
  | _ => True

/-- The numbers in a list of keys are of the double format. -/
def AllCanonical : List Value → Prop
  | [] => True
  | v :: r => Canonical v ∧ AllCanonical r

end

/-- The meaning of a key.  Numbers are multiples of the least positive number. -/
inductive Sense
  | alone (v : Value)
  | number (units : Int)
  | infinite (negative : Bool)
  | moment (aware : Bool) (timeline : Int) (second microsecond : Nat)
  | tuple (items : List Sense)

/-- The meaning of an integer. -/
def Sense.ofInt (i : Int) : Sense := .number (i * Binary64.unitsOfOne)

/-- The meaning of a number of the double format. -/
def Sense.ofDouble? : Binary64 → Option Sense
  | .nan => none
  | .infinite s => some (.infinite s)
  | .finite s m e => some (.number (Binary64.finite s m e).units)

/-- The meaning of a number of any kind. -/
def numberSense? : Value → Option Sense
  | .bool b => some (.ofInt (if b then 1 else 0))
  | .int i => some (.ofInt i)
  | .float x => Sense.ofDouble? x
  | _ => none

mutual

/-- The meaning of a value that may be a key, unless it is not a number or holds one that is not. -/
def sense? : Value → Option Sense
  | .null => some (.alone .null)
  | .text s => some (.alone (.text s))
  | .bytes bs => some (.alone (.bytes bs))
  | .date d _ => some (.alone (.date d .own))
  | .datetime t _ => some (.moment t.offset.isSome t.timeline t.second t.microsecond)
  | .indexKind k => some (.alone (.indexKind k))
  | .constraintKind k => some (.alone (.constraintKind k))
  | .object r => some (.alone (.object r))
  | .tuple items _ => (senses? items).map .tuple
  | v => numberSense? v

/-- The meanings of a list of values, if all of them have one. -/
def senses? : List Value → Option (List Sense)
  | [] => some []
  | v :: r =>
    match sense? v, senses? r with
    | some k, some ks => some (k :: ks)
    | _, _ => none

end

/-! ### Numbers -/

theorem Sense.ofInt_inj {i j : Int} : Sense.ofInt i = Sense.ofInt j ↔ i = j := by
  rw [Sense.ofInt, Sense.ofInt, Sense.number.injEq]
  exact ⟨fun h => Int.eq_of_mul_eq_mul_right Binary64.unitsOfOne_ne_zero h, fun h => by rw [h]⟩

theorem equalsInt_iff_sense {x : Binary64} (h : x.Canonical) (i : Int) :
    x.equalsInt i ↔ Sense.ofDouble? x = some (.ofInt i) := by
  cases x with
  | nan => simp [Binary64.equalsInt, Sense.ofDouble?]
  | infinite s => simp [Binary64.equalsInt, Sense.ofDouble?, Sense.ofInt]
  | finite s m e =>
    rw [Binary64.equalsInt_iff h, Sense.ofDouble?, Sense.ofInt, Option.some.injEq,
      Sense.number.injEq]

theorem same_double_iff_sense {x y : Binary64} (hx : x.Canonical) (hy : y.Canonical) :
    x.same y ↔ (Sense.ofDouble? x).isSome ∧ Sense.ofDouble? x = Sense.ofDouble? y := by
  cases x with
  | nan => simp [Binary64.same, Sense.ofDouble?]
  | infinite s => cases y <;> simp [Binary64.same, Sense.ofDouble?]
  | finite s m e =>
    cases y with
    | finite s' m' e' =>
      rw [Binary64.same_finite_iff hx hy]
      simp [Sense.ofDouble?]
    | _ => simp [Binary64.same, Sense.ofDouble?]

/-- Numbers of any kind are equal exactly if they have the same meaning. -/
theorem sameNumber_iff {v w : Value} (hv : v.Canonical) (hw : w.Canonical) :
    sameNumber v w ↔ v.numberSense?.isSome ∧ v.numberSense? = w.numberSense? := by
  have hdouble : ∀ {x : Binary64}, x.Canonical → ∀ i : Int, x.equalsInt i ↔
      (Sense.ofDouble? x).isSome ∧ Sense.ofDouble? x = some (.ofInt i) := by
    intro x hx i
    rw [equalsInt_iff_sense hx]
    refine ⟨fun h => ⟨by rw [h]; rfl, h⟩, fun h => h.2⟩
  cases v with
  | bool b | int i =>
    cases w with
    | bool c | int j => simp [sameNumber, asInt?, numberSense?, Sense.ofInt_inj]
    | float y =>
      refine (equalsInt_iff_sense hw _).trans ⟨fun h => ⟨rfl, h.symm⟩, fun h => h.2.symm⟩
    | _ => simp [sameNumber, asInt?, numberSense?]
  | float x =>
    cases w with
    | bool c | int j => exact hdouble hv _
    | float y => exact same_double_iff_sense hv hw
    | _ => cases x <;> simp [sameNumber, asInt?, numberSense?, Sense.ofDouble?]
  | _ =>
    cases w <;> simp [sameNumber, asInt?, numberSense?]

/-! ### Keys -/

/-- Keys that are no tuples are equal exactly if they have the same meaning. -/
theorem same_iff_sense_of_single {v w : Value} (hv : v.hashable) (hw : w.hashable)
    (cv : v.Canonical) (cw : w.Canonical) (hne : ∀ xs m, v ≠ .tuple xs m) :
    v.same w ↔ v.sense?.isSome ∧ v.sense? = w.sense? := by
  cases v with
  | list | set | map => cases hv
  | tuple xs m => exact absurd rfl (hne xs m)
  -- numbers are compared as numbers, whatever they are written as
  | bool | int =>
    cases w with
    | list | set | map => cases hw
    | bool | int | float => simpa only [same, sense?] using sameNumber_iff cv cw
    | tuple ys m =>
      cases hs : senses? ys <;>
        simp [same, sense?, sameNumber, asInt?, numberSense?, Sense.ofInt, hs]
    | _ => simp [same, sense?, sameNumber, asInt?, numberSense?, Sense.ofInt]
  | float x =>
    cases w with
    | list | set | map => cases hw
    | bool | int | float => simpa only [same, sense?] using sameNumber_iff cv cw
    | tuple ys m =>
      cases x <;> cases hs : senses? ys <;>
        simp [same, sense?, sameNumber, asInt?, numberSense?, Sense.ofDouble?, hs]
    | _ => cases x <;> simp [same, sense?, sameNumber, asInt?, numberSense?, Sense.ofDouble?]
  | _ =>
    cases w with
    | list | set | map => cases hw
    | float y => cases y <;> simp [same, sense?, sameNumber, asInt?, numberSense?, Sense.ofDouble?]
    | tuple ys m => cases hs : senses? ys <;> simp [same, sense?, sameNumber, asInt?, hs]
    | _ =>
      simp [same, sense?, sameNumber, asInt?, numberSense?, Sense.ofInt, DateTime.same, and_assoc]

mutual

/-- **Keys are equal exactly if they have the same meaning.** -/
theorem same_iff_sense (v w : Value) (hv : v.hashable) (hw : w.hashable) (cv : v.Canonical)
    (cw : w.Canonical) : v.same w ↔ v.sense?.isSome ∧ v.sense? = w.sense? := by
  cases v with
  | tuple xs m =>
    cases w with
    | list | set | map => cases hw
    | tuple ys m' =>
      rw [hashable] at hv hw
      rw [Canonical] at cv cw
      have hinj : Function.Injective Sense.tuple := fun _ _ h => Sense.tuple.inj h
      rw [same, sameAll_iff_senses xs ys hv hw cv cw, sense?, sense?, Option.isSome_map,
        (Option.map_injective hinj).eq_iff]
    | float y =>
      cases y <;> cases hs : senses? xs <;>
        simp [same, sense?, sameNumber, asInt?, numberSense?, Sense.ofDouble?, hs]
    | _ =>
      cases hs : senses? xs <;>
        simp [same, sense?, sameNumber, asInt?, numberSense?, Sense.ofInt, hs]
  | _ => exact same_iff_sense_of_single hv hw cv cw nofun

theorem sameAll_iff_senses (vs ws : List Value) (hv : hashableAll vs) (hw : hashableAll ws)
    (cv : AllCanonical vs) (cw : AllCanonical ws) :
    sameAll vs ws ↔ (senses? vs).isSome ∧ senses? vs = senses? ws := by
  rcases vs with _ | ⟨v, vs⟩ <;> rcases ws with _ | ⟨w, ws⟩
  · simp [sameAll, senses?]
  · cases hk : sense? w <;> cases hks : senses? ws <;> simp [sameAll, senses?, hk, hks]
  · cases hk : sense? v <;> cases hks : senses? vs <;> simp [sameAll, senses?, hk, hks]
  · rw [hashableAll, Bool.and_eq_true] at hv hw
    rw [AllCanonical] at cv cw
    rw [sameAll, Bool.and_eq_true, same_iff_sense v w hv.1 hw.1 cv.1 cw.1,
      sameAll_iff_senses vs ws hv.2 hw.2 cv.2 cw.2, senses?, senses?]
    cases sense? v <;> cases senses? vs <;> cases sense? w <;> cases senses? ws <;> simp

end

/-- A value that may be a key and whose numbers are of the double format. -/
structure IsKey (v : Value) : Prop where
  hashable : v.hashable
  canonical : v.Canonical

variable {u v w : Value}

theorem IsKey.same_iff (hv : v.IsKey) (hw : w.IsKey) :
    v.same w ↔ v.sense?.isSome ∧ v.sense? = w.sense? :=
  same_iff_sense v w hv.hashable hw.hashable hv.canonical hw.canonical

/-- **Equality of keys is symmetric.** -/
theorem IsKey.same_symm (hv : v.IsKey) (hw : w.IsKey) (h : v.same w) : w.same v := by
  obtain ⟨hsome, heq⟩ := (hv.same_iff hw).mp h
  exact (hw.same_iff hv).mpr ⟨heq ▸ hsome, heq.symm⟩

/-- **Equality of keys is transitive.** -/
theorem IsKey.same_trans (hu : u.IsKey) (hv : v.IsKey) (hw : w.IsKey) (h : u.same v)
    (h' : v.same w) : u.same w := by
  obtain ⟨hsome, heq⟩ := (hu.same_iff hv).mp h
  obtain ⟨-, heq'⟩ := (hv.same_iff hw).mp h'
  exact (hu.same_iff hw).mpr ⟨hsome, heq.trans heq'⟩

/-- Keys that equal the same key equal each other. -/
theorem IsKey.same_of_same_right (hu : u.IsKey) (hv : v.IsKey) (hw : w.IsKey) (h : u.same w)
    (h' : v.same w) : u.same v :=
  hu.same_trans hw hv h (hv.same_symm hw h')

/-- Keys that the same key equals equal each other. -/
theorem IsKey.same_of_same_left (hu : u.IsKey) (hv : v.IsKey) (hw : w.IsKey) (h : u.same v)
    (h' : u.same w) : v.same w :=
  hv.same_trans hu hw (hu.same_symm hv h) h'

end DbSchema.Value
