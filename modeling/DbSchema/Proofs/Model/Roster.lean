import DbSchema.Error.Model
import Mathlib.Data.List.Nodup
import Mathlib.Logic.Function.Basic

/-!
# An ordered list of members with distinct names

What a schema does with its tables is what a plain list does: members are appended, struck and
renamed in place, and no two of them may have one name.  Tables that are not members are around too:
some were given to the schema when they were made, and may not take the name of a member either.

## Main definitions

* `Roster` — the members in order, and what is known of all tables.
* `Roster.holder` — the member with a name.
* `RegistryCall`, `Roster.step` — the calls, and what the list does with them.
* `Roster.WellFormed` — members have distinct names that are not empty, and are attached.

## Main results

* `Roster.WellFormed.step` — every call keeps the list well-formed.
* `Roster.holder_eq_some_iff` — the holder of a name is the member that has it.
-/

namespace DbSchema

/-- An ordered list of tables under names. -/
structure Roster where
  members : List TableId
  name : TableId → String
  /-- Whether a table was given to the schema. -/
  attached : TableId → Bool
  /-- How many tables there are. -/
  count : Nat

/-- A call that concerns a schema and its tables. -/
inductive RegistryCall
  /-- A table is made, and given to the schema or not. -/
  | make (name : String) (attached : Bool)
  | register (t : TableId)
  /-- A table is made by the schema, which then registers it. -/
  | registerNew (name : String)
  | drop (name : String)
  | rename (t : TableId) (name : String)
deriving Repr, Inhabited

namespace RegistryCall

/-- The call is about a table that there is, if it is about one. -/
def Refers (count : Nat) : RegistryCall → Prop
  | register t | rename t _ => t.index < count
  | _ => True

/-- How many tables a call makes. -/
def made : RegistryCall → Nat
  | make .. | registerNew _ => 1
  | _ => 0

/-- Every call is about a table that there is when its turn comes. -/
def ReferAll : Nat → List RegistryCall → Prop
  | _, [] => True
  | count, c :: cs => c.Refers count ∧ ReferAll (count + c.made) cs

end RegistryCall

namespace Roster

variable (r : Roster) (t : TableId) (n : String)

/-- The member with a name. -/
def holder : Option TableId := r.members.find? fun t => r.name t == n

/-- Another member has the name. -/
def Taken : Prop := ∃ u ∈ r.members, u ≠ t ∧ r.name u = n

instance : Decidable (r.Taken t n) := by
  unfold Taken
  infer_instance

/-- Whether a table may have a name: only tables of the schema mind the members. -/
def mayName : Except ModelError Unit :=
  if n = "" then .error .missingTableName
  else if r.attached t ∧ r.Taken t n then .error (.nameConflict (.text n))
  else .ok ()

/-- Whether a table may be a member under its name. -/
def mayEnlist : Except ModelError Unit :=
  if r.name t = "" then .error .missingTableName
  else if r.Taken t (r.name t) then .error (.nameConflict (.text (r.name t)))
  else .ok ()

/-- One more table, without a name. -/
def grow (attached : Bool) : Roster :=
  { r with
    name := Function.update r.name ⟨r.count⟩ ""
    attached := Function.update r.attached ⟨r.count⟩ attached
    count := r.count + 1 }

/-- A table with another name, in its place. -/
def renamed : Roster := { r with name := Function.update r.name t n }

/-- A table at the end of the list, unless it is in the list. -/
def enlisted : Roster :=
  { r with
    members := if t ∈ r.members then r.members else r.members ++ [t]
    attached := Function.update r.attached t true }

/-- The list without a member. -/
def struck : Roster :=
  { r with
    members := r.members.erase t
    attached := Function.update r.attached t false }

/-- Making a table. -/
def make (name : String) (attached : Bool) : Except ModelError TableId × Roster :=
  let t : TableId := ⟨r.count⟩
  let r := r.grow attached
  if name = "" then (.ok t, r)
  else
    match r.mayName t name with
    | .error e => (.error e, r)
    | .ok () => (.ok t, r.renamed t name)

/-- Registering a table. -/
def register : Except ModelError TableId × Roster :=
  match r.mayEnlist t with
  | .error e => (.error e, r)
  | .ok () => (.ok t, r.enlisted t)

/-- What the list does with a call. -/
def step (r : Roster) : RegistryCall → Except ModelError TableId × Roster
  | .make name attached => r.make name attached
  | .register t => r.register t
  | .registerNew name =>
    match r.make name true with
    | (.error e, r) => (.error e, r)
    | (.ok t, r) => r.register t
  | .drop name =>
    match r.holder name with
    | some t => (.ok t, r.struck t)
    | none => (.error (.tableNotFound (.text name)), r)
  | .rename t name =>
    match r.mayName t name with
    | .error e => (.error e, r)
    | .ok () => (.ok t, r.renamed t name)

/-- What the list does with calls one after the other, and what it is afterwards. -/
def run (r : Roster) : List RegistryCall → List (Except ModelError TableId) × Roster
  | [] => ([], r)
  | c :: cs => ((r.step c).1 :: ((r.step c).2.run cs).1, ((r.step c).2.run cs).2)

/-- Members have distinct names, none of them empty, and belong to the schema. -/
structure WellFormed : Prop where
  distinct : (r.members.map r.name).Nodup
  named : ∀ t ∈ r.members, r.name t ≠ ""
  attached : ∀ t ∈ r.members, r.attached t = true
  known : ∀ t ∈ r.members, t.index < r.count

variable {r t n} {u : TableId}

/-! ### What a table is called afterwards -/

theorem grow_name_new (attached : Bool) : (r.grow attached).name ⟨r.count⟩ = "" :=
  Function.update_self _ _ _

theorem grow_name (attached : Bool) (h : u ≠ ⟨r.count⟩) : (r.grow attached).name u = r.name u :=
  Function.update_of_ne h _ _

theorem grow_attached_new (attached : Bool) :
    (r.grow attached).attached ⟨r.count⟩ = attached := Function.update_self _ _ _

theorem grow_attached (attached : Bool) (h : u ≠ ⟨r.count⟩) :
    (r.grow attached).attached u = r.attached u := Function.update_of_ne h _ _

theorem renamed_name_self : (r.renamed t n).name t = n := Function.update_self _ _ _

theorem renamed_name (h : u ≠ t) : (r.renamed t n).name u = r.name u :=
  Function.update_of_ne h _ _

theorem enlisted_attached_self : (r.enlisted t).attached t = true := Function.update_self _ _ _

theorem enlisted_attached (h : u ≠ t) : (r.enlisted t).attached u = r.attached u :=
  Function.update_of_ne h _ _

theorem struck_attached_self : (r.struck t).attached t = false := Function.update_self _ _ _

theorem struck_attached (h : u ≠ t) : (r.struck t).attached u = r.attached u :=
  Function.update_of_ne h _ _

/-! ### Holders of names -/

theorem WellFormed.nodup (h : r.WellFormed) : r.members.Nodup := h.distinct.of_map

theorem WellFormed.eq_of_name_eq (h : r.WellFormed) (ht : t ∈ r.members)
    (hu : u ∈ r.members) (hn : r.name t = r.name u) : t = u :=
  List.inj_on_of_nodup_map h.distinct ht hu hn

theorem name_of_holder (h : r.holder n = some t) : t ∈ r.members ∧ r.name t = n :=
  ⟨List.mem_of_find?_eq_some h, by simpa using List.find?_some h⟩

theorem not_taken_of_holder_eq_none (h : r.holder n = none) : ¬ r.Taken t n := by
  rintro ⟨u, hu, -, hn⟩
  have := List.find?_eq_none.mp h u hu
  simp [hn] at this

/-- The holder of a name is the member that has it. -/
theorem holder_eq_some_iff (h : r.WellFormed) :
    r.holder n = some t ↔ t ∈ r.members ∧ r.name t = n := by
  refine ⟨name_of_holder, fun ⟨ht, hn⟩ => ?_⟩
  rcases hh : r.holder n with _ | u
  · have := List.find?_eq_none.mp hh t ht
    simp [hn] at this
  · obtain ⟨hu, hn'⟩ := name_of_holder hh
    rw [h.eq_of_name_eq hu ht (hn'.trans hn.symm)]

theorem taken_iff_of_holder (h : r.WellFormed) (hu : r.holder n = some u) :
    r.Taken t n ↔ u ≠ t := by
  obtain ⟨hmem, hname⟩ := name_of_holder hu
  constructor
  · rintro ⟨v, hv, hne, hvn⟩
    rwa [h.eq_of_name_eq hmem hv (hname.trans hvn.symm)]
  · exact fun hne => ⟨u, hmem, hne, hname⟩

theorem mayName_eq_ok_iff : r.mayName t n = .ok () ↔ n ≠ "" ∧ (r.attached t → ¬ r.Taken t n) := by
  rw [mayName]
  split
  · simp [*]
  · split <;> simp_all

theorem mayEnlist_eq_ok_iff :
    r.mayEnlist t = .ok () ↔ r.name t ≠ "" ∧ ¬ r.Taken t (r.name t) := by
  rw [mayEnlist]
  split
  · simp [*]
  · split <;> simp_all

/-! ### How many tables there are -/

theorem count_make (n : String) (attached : Bool) : (r.make n attached).2.count = r.count + 1 := by
  rw [make]
  split
  · rfl
  · rcases (r.grow attached).mayName ⟨r.count⟩ n with e | u <;> rfl

theorem make_reply {attached : Bool} (h : (r.make n attached).1 = .ok t) : t = ⟨r.count⟩ := by
  rw [make] at h
  split at h
  · cases h
    rfl
  · rcases hm : (r.grow attached).mayName ⟨r.count⟩ n with e | u <;> rw [hm] at h <;> cases h
    rfl

theorem count_register : (r.register t).2.count = r.count := by
  rw [register]
  rcases r.mayEnlist t with e | u <;> rfl

/-- A call makes as many tables as it says. -/
theorem count_step (r : Roster) (c : RegistryCall) : (r.step c).2.count = r.count + c.made := by
  cases c with
  | make name attached => exact count_make name attached
  | register t => exact count_register
  | registerNew name =>
    have hcount := count_make (r := r) name true
    rw [step]
    rcases hm : r.make name true with ⟨e | t, r'⟩ <;> rw [hm] at hcount
    · exact hcount
    · exact count_register.trans hcount
  | drop name =>
    rw [step]
    rcases r.holder name with _ | t <;> rfl
  | rename t name =>
    rw [step]
    rcases r.mayName t name with e | u <;> rfl

/-! ### Calls keep the list well-formed -/

namespace WellFormed

theorem not_mem_new (h : r.WellFormed) : (⟨r.count⟩ : TableId) ∉ r.members :=
  fun hm => Nat.lt_irrefl _ (h.known _ hm)

theorem grow (h : r.WellFormed) (attached : Bool) : (r.grow attached).WellFormed := by
  have hne : ∀ t ∈ r.members, t ≠ ⟨r.count⟩ := fun t ht he => h.not_mem_new (he ▸ ht)
  constructor
  · have hmap : (r.grow attached).members.map (r.grow attached).name = r.members.map r.name :=
      List.map_congr_left fun t ht => grow_name attached (hne t ht)
    rw [hmap]
    exact h.distinct
  · intro t ht
    rw [grow_name attached (hne t ht)]
    exact h.named t ht
  · intro t ht
    rw [grow_attached attached (hne t ht)]
    exact h.attached t ht
  · exact fun t ht => Nat.lt_succ_of_lt (h.known t ht)

theorem renamed (h : r.WellFormed) (hmay : r.mayName t n = .ok ()) :
    (r.renamed t n).WellFormed := by
  obtain ⟨hn, hfree⟩ := mayName_eq_ok_iff.mp hmay
  refine ⟨?_, fun u hu => ?_, h.attached, h.known⟩
  · refine List.Nodup.map_on (fun u hu v hv he => ?_) h.nodup
    by_cases hut : u = t <;> by_cases hvt : v = t
    · rw [hut, hvt]
    · subst hut
      rw [renamed_name_self, renamed_name hvt] at he
      exact absurd ⟨v, hv, hvt, he.symm⟩ (hfree (h.attached u hu))
    · subst hvt
      rw [renamed_name_self, renamed_name hut] at he
      exact absurd ⟨u, hu, hut, he⟩ (hfree (h.attached v hv))
    · rw [renamed_name hut, renamed_name hvt] at he
      exact h.eq_of_name_eq hu hv he
  · by_cases hut : u = t
    · rw [hut, renamed_name_self]
      exact hn
    · rw [renamed_name hut]
      exact h.named u hu

theorem enlisted (h : r.WellFormed) (hmay : r.mayEnlist t = .ok ()) (ht : t.index < r.count) :
    (r.enlisted t).WellFormed := by
  obtain ⟨hn, hfree⟩ := mayEnlist_eq_ok_iff.mp hmay
  -- a table that is a member already is not listed again
  have hcases : ∀ u ∈ (r.enlisted t).members, u ∈ r.members ∨ u = t := by
    intro u hu
    rw [Roster.enlisted] at hu
    dsimp only at hu
    split at hu
    · exact Or.inl hu
    · simpa using hu
  constructor
  · rw [Roster.enlisted]
    dsimp only
    split
    · exact h.distinct
    · next hout =>
      rw [List.map_append, List.map_singleton, List.nodup_append]
      refine ⟨h.distinct, List.nodup_singleton _, fun a ha b hb => ?_⟩
      obtain ⟨u, hu, rfl⟩ := List.mem_map.mp ha
      rw [List.mem_singleton.mp hb]
      exact fun he => hfree ⟨u, hu, fun hut => hout (hut ▸ hu), he⟩
  · intro u hu
    rcases hcases u hu with hu | rfl
    · exact h.named u hu
    · exact hn
  · intro u hu
    by_cases hut : u = t
    · rw [hut, enlisted_attached_self]
    · rw [enlisted_attached hut]
      exact h.attached u ((hcases u hu).resolve_right hut)
  · intro u hu
    rcases hcases u hu with hu | rfl
    · exact h.known u hu
    · exact ht

theorem struck (h : r.WellFormed) (t : TableId) : (r.struck t).WellFormed := by
  have hmem : ∀ u ∈ (r.struck t).members, u ∈ r.members := fun u hu => List.mem_of_mem_erase hu
  refine ⟨h.distinct.sublist (List.Sublist.map _ List.erase_sublist),
    fun u hu => h.named u (hmem u hu), fun u hu => ?_, fun u hu => h.known u (hmem u hu)⟩
  have hut : u ≠ t := fun he => h.nodup.not_mem_erase (he ▸ hu)
  rw [struck_attached hut]
  exact h.attached u (hmem u hu)

theorem make (h : r.WellFormed) (name : String) (attached : Bool) :
    (r.make name attached).2.WellFormed := by
  rw [Roster.make]
  split
  · exact h.grow attached
  · rcases hmay : (r.grow attached).mayName ⟨r.count⟩ name with e | u <;> dsimp only
    · exact h.grow attached
    · exact (h.grow attached).renamed hmay

theorem register (h : r.WellFormed) (ht : t.index < r.count) : (r.register t).2.WellFormed := by
  rw [Roster.register]
  rcases hmay : r.mayEnlist t with e | u
  · exact h
  · exact h.enlisted hmay ht

/-- **Every call keeps the list well-formed**, whether it is refused or not. -/
theorem step (h : r.WellFormed) {c : RegistryCall} (hc : c.Refers r.count) :
    (r.step c).2.WellFormed := by
  cases c with
  | make name attached => exact h.make name attached
  | register t => exact h.register hc
  | registerNew name =>
    have hmake := h.make name true
    rw [Roster.step]
    rcases hm : r.make name true with ⟨e | t, r'⟩ <;> rw [hm] at hmake
    · exact hmake
    · have hcount := count_make (r := r) name true
      rw [hm] at hcount
      rw [make_reply (by rw [hm] : (r.make name true).1 = .ok t)]
      exact hmake.register (by rw [hcount]; exact Nat.lt_succ_self _)
  | drop name =>
    rw [Roster.step]
    rcases r.holder name with _ | t
    · exact h
    · exact h.struck t
  | rename t name =>
    rw [Roster.step]
    rcases hm : r.mayName t name with e | u
    · exact h
    · exact h.renamed hm

end WellFormed

end Roster

end DbSchema
