import DbSchema.Model.Slots
import Mathlib.Data.List.Forall2
import Mathlib.Data.List.Induction
import Mathlib.Data.List.Nodup
import Mathlib.Tactic.Common

/-!
# Distinct keys

Storing under a key, removing one and storing pair after pair never give two entries with equal
keys.

## Main definitions

* `Keyed.Distinct same entries` — no key equals a later one.

## Main results

* `Keyed.Distinct.put`, `Keyed.Distinct.remove`, `Keyed.distinct_ofList` — the operations.
* `Keyed.Distinct.append` — a key that is not found may stand at the end.
* `nodup_eraseDups` — the first mentions in a list are distinct.
-/

namespace DbSchema.Keyed

variable {κ α : Type} (same : κ → κ → Bool)

/-- No key equals a later one. -/
def Distinct (entries : List (κ × α)) : Prop := entries.Pairwise fun a b => same a.1 b.1 = false

variable {same} {entries : List (κ × α)} {key : κ}

theorem find?_nil : find? same key ([] : List (κ × α)) = none := rfl

theorem find?_cons (e : κ × α) : find? same key (e :: entries) =
    if same e.1 key then some e.2 else find? same key entries := rfl

theorem put_cons (e : κ × α) (value : α) : put same key value (e :: entries) =
    if same e.1 key then (e.1, value) :: entries else e :: put same key value entries := rfl

theorem remove_cons (e : κ × α) : remove same key (e :: entries) =
    if same e.1 key then entries else e :: remove same key entries := rfl

theorem distinct_nil : Distinct same ([] : List (κ × α)) := List.Pairwise.nil

theorem find?_eq_none : find? same key entries = none ↔ ∀ e ∈ entries, same e.1 key = false := by
  induction entries with
  | nil => simp [find?_nil]
  | cons e r ih =>
    rw [find?_cons]
    by_cases h : same e.1 key
    · simp [h]
    · simp [h, ih]

theorem find?_append (entries' : List (κ × α)) :
    find? same key (entries ++ entries') =
      (find? same key entries).or (find? same key entries') := by
  induction entries with
  | nil => rfl
  | cons e r ih =>
    rw [List.cons_append, find?_cons, find?_cons, ih]
    split <;> rfl

/-- What is found stands under an equal key. -/
theorem mem_of_find? {a : α} (h : find? same key entries = some a) :
    ∃ k, (k, a) ∈ entries ∧ same k key := by
  induction entries with
  | nil => cases h
  | cons e r ih =>
    rw [find?_cons] at h
    by_cases he : same e.1 key
    · rw [if_pos he] at h
      cases h
      exact ⟨e.1, List.mem_cons_self, he⟩
    · rw [if_neg he] at h
      obtain ⟨k, hk, hs⟩ := ih h
      exact ⟨k, List.mem_cons_of_mem e hk, hs⟩

/-- What stands under one of the distinct keys is found there. -/
theorem find?_of_mem {e : κ × α} (h : Distinct same entries) (he : e ∈ entries)
    (hself : same e.1 e.1) : find? same e.1 entries = some e.2 := by
  induction entries with
  | nil => cases he
  | cons d r ih =>
    rw [find?_cons]
    rcases List.mem_cons.mp he with rfl | he
    · rw [if_pos hself]
    · rw [(List.pairwise_cons.mp h).1 e he, if_neg (by simp)]
      exact ih (List.pairwise_cons.mp h).2 he

/-- Entries with the same keys in the same order have the same keys to be found, and what is found
stands in the same place. -/
theorem find?_rel {β : Type} {R : α → β → Prop} {entries' : List (κ × β)}
    (h : List.Forall₂ (fun e e' => e.1 = e'.1 ∧ R e.2 e'.2) entries entries') (key : κ) :
    Option.Rel R (find? same key entries) (find? same key entries') := by
  induction h with
  | nil => exact .none
  | cons hd _ ih =>
    rw [find?_cons, find?_cons, hd.1]
    split
    · exact .some hd.2
    · exact ih

/-- A key that is not found may stand at the end. -/
theorem Distinct.append (h : Distinct same entries) (hkey : find? same key entries = none)
    (a : α) : Distinct same (entries ++ [(key, a)]) := by
  refine List.pairwise_append.mpr ⟨h, List.pairwise_singleton _ _, fun e he e' he' => ?_⟩
  rw [List.mem_singleton.mp he']
  exact find?_eq_none.mp hkey e he

/-- The keys after storing are the ones before, and the new one only when none equals it. -/
theorem fst_put (value : α) : (put same key value entries).map (·.1) =
    if (find? same key entries).isSome then entries.map (·.1) else entries.map (·.1) ++ [key] := by
  induction entries with
  | nil => rfl
  | cons e r ih =>
    by_cases h : same e.1 key
    · simp [put_cons, find?_cons, h]
    · simp only [put_cons, find?_cons, h, Bool.false_eq_true, if_false, List.map_cons, ih]
      split <;> rfl

theorem put_of_find?_eq_none (h : find? same key entries = none) (value : α) :
    put same key value entries = entries ++ [(key, value)] := by
  induction entries with
  | nil => rfl
  | cons e r ih =>
    rw [find?_cons] at h
    split at h
    · cases h
    · next he => rw [put_cons, if_neg he, ih h, List.cons_append]

/-- Storing what stands under the key already changes nothing. -/
theorem put_of_find?_eq_some {value : α} (h : find? same key entries = some value) :
    put same key value entries = entries := by
  induction entries with
  | nil => cases h
  | cons e r ih =>
    rw [find?_cons] at h
    split at h
    · next he =>
      cases h
      rw [put_cons, if_pos he]
    · next he => rw [put_cons, if_neg he, ih h]

/-- What is there after storing was there before or is what was stored. -/
theorem mem_put {value : α} {e : κ × α} (h : e ∈ put same key value entries) :
    (∃ k, (k, e.2) ∈ entries) ∨ e.2 = value := by
  induction entries with
  | nil => exact Or.inr (congrArg Prod.snd (List.mem_singleton.mp h))
  | cons d r ih =>
    rw [put_cons] at h
    split at h <;> rcases List.mem_cons.mp h with rfl | h
    · exact Or.inr rfl
    · exact Or.inl ⟨e.1, List.mem_cons_of_mem d h⟩
    · exact Or.inl ⟨_, List.mem_cons_self⟩
    · exact (ih h).imp (fun ⟨k, hk⟩ => ⟨k, List.mem_cons_of_mem d hk⟩) id

/-- Storing pairs one by one gives values of these pairs only. -/
theorem mem_ofList {e : κ × α} (h : e ∈ ofList same entries) : ∃ d ∈ entries, d.2 = e.2 := by
  have hall : ∀ (l acc : List (κ × α)),
      e ∈ l.foldl (fun acc e => put same e.1 e.2 acc) acc → ∃ d ∈ acc ++ l, d.2 = e.2 := by
    intro l
    induction l with
    | nil => exact fun acc h => ⟨e, by simpa using h, rfl⟩
    | cons d r ih =>
      intro acc h
      obtain ⟨d', hd', he⟩ := ih _ h
      rcases List.mem_append.mp hd' with hd' | hd'
      · rcases mem_put hd' with ⟨k, hk⟩ | hd
        · exact ⟨_, List.mem_append_left _ hk, he⟩
        · exact ⟨d, by simp, hd.symm.trans he⟩
      · exact ⟨d', by simp [hd'], he⟩
  simpa using hall entries [] h

theorem distinct_iff_keys :
    Distinct same entries ↔ (entries.map (·.1)).Pairwise fun a b => same a b = false := by
  rw [Distinct, List.pairwise_map]

theorem Distinct.put (h : Distinct same entries) (key : κ) (value : α) :
    Distinct same (put same key value entries) := by
  rw [distinct_iff_keys, fst_put]
  split
  · exact distinct_iff_keys.mp h
  · next hnone =>
    have hnone : find? same key entries = none := by simpa using hnone
    have happ := distinct_iff_keys.mp (h.append hnone value)
    rwa [List.map_append] at happ

theorem remove_sublist (key : κ) : (remove same key entries).Sublist entries := by
  induction entries with
  | nil => exact List.Sublist.refl _
  | cons e r ih =>
    rw [remove_cons]
    split
    · exact List.sublist_cons_self e r
    · exact ih.cons_cons e

theorem Distinct.remove (h : Distinct same entries) (key : κ) :
    Distinct same (remove same key entries) := h.sublist (remove_sublist key)

theorem distinct_ofList (entries : List (κ × α)) : Distinct same (ofList same entries) := by
  have h : ∀ (l acc : List (κ × α)), Distinct same acc →
      Distinct same (l.foldl (fun acc e => Keyed.put same e.1 e.2 acc) acc) := by
    intro l
    induction l with
    | nil => exact fun _ h => h
    | cons e r ih => exact fun acc h => ih _ (h.put e.1 e.2)
  exact h entries [] distinct_nil

/-- Storing pairs with distinct keys one by one gives these pairs. -/
theorem ofList_eq_self (h : Distinct same entries) : ofList same entries = entries := by
  have hall : ∀ (l acc : List (κ × α)), Distinct same (acc ++ l) →
      l.foldl (fun acc e => put same e.1 e.2 acc) acc = acc ++ l := by
    intro l
    induction l with
    | nil => exact fun acc _ => (List.append_nil acc).symm
    | cons e r ih =>
      intro acc hacc
      have hnone : find? same e.1 acc = none :=
        find?_eq_none.mpr fun a ha => (List.pairwise_append.mp hacc).2.2 a ha e List.mem_cons_self
      rw [List.append_cons] at hacc ⊢
      rw [List.foldl_cons, put_of_find?_eq_none hnone]
      exact ih _ hacc
  exact hall entries [] h

end DbSchema.Keyed

namespace DbSchema

/-! ### First mentions -/

variable {κ : Type} [DecidableEq κ]

theorem eraseDups_append_singleton (l : List κ) (a : κ) :
    (l ++ [a]).eraseDups = if a ∈ l then l.eraseDups else l.eraseDups ++ [a] := by
  rw [List.eraseDups_append]
  by_cases ha : a ∈ l
  · rw [if_pos ha, show [a].removeAll l = [] by simp [List.removeAll, ha]]
    simp
  · rw [if_neg ha, show [a].removeAll l = [a] by simp [List.removeAll, ha], List.eraseDups_cons]
    simp

/-- What is mentioned first is mentioned once. -/
theorem nodup_eraseDups (l : List κ) : l.eraseDups.Nodup := by
  induction l using List.reverseRecOn with
  | nil => simp
  | append_singleton r a ih =>
    rw [eraseDups_append_singleton]
    split
    · exact ih
    · next ha =>
      refine List.nodup_append.mpr ⟨ih, List.nodup_singleton a, fun b hb c hc heq => ha ?_⟩
      rw [← List.mem_singleton.mp hc, ← heq]
      exact List.mem_eraseDups.mp hb

/-- A list without repetition mentions everything for the first time. -/
theorem eraseDups_eq_self {l : List κ} (h : l.Nodup) : l.eraseDups = l := by
  induction l using List.reverseRecOn with
  | nil => simp
  | append_singleton r a ih =>
    obtain ⟨hr, -, hra⟩ := List.nodup_append.mp h
    rw [eraseDups_append_singleton, if_neg fun ha => hra a ha a (List.mem_singleton_self a) rfl,
      ih hr]

theorem eraseDups_sublist (l : List κ) : l.eraseDups.Sublist l := by
  induction l using List.reverseRecOn with
  | nil => simp
  | append_singleton r a ih =>
    rw [eraseDups_append_singleton]
    split
    · exact ih.trans (List.sublist_append_left r [a])
    · exact ih.append (List.Sublist.refl [a])

/-- What was mentioned before is not mentioned for the first time. -/
theorem eraseDups_append_of_subset {l l' : List κ} (h : l' ⊆ l) :
    (l ++ l').eraseDups = l.eraseDups := by
  have hnone : l'.removeAll l = [] :=
    List.filter_eq_nil_iff.mpr fun a ha => by simpa using h ha
  rw [List.eraseDups_append, hnone, List.eraseDups_nil, List.append_nil]

end DbSchema
