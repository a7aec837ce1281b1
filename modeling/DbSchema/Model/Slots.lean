/-!
# Numbered cells and ordered tables of keys

A model keeps its objects in numbered cells and its registries in lists of keys with their
values, in the order of registration.

## Main definitions

* `Slots` — numbered cells; a cell that was never filled holds the default.
* `Keyed.find?`, `Keyed.put`, `Keyed.remove` — look-up, storing and removal by key, where
  equality of keys is given by the caller.

## Main results

* `Slots.get_set_self`, `Slots.get_set_other` — what a cell holds after another was filled.
-/

namespace DbSchema

/-- Numbered cells. -/
structure Slots (α : Type) where
  cells : List α
deriving Repr, Inhabited

namespace Slots

variable {α : Type} [Inhabited α]

/-- What a cell holds. -/
def get (s : Slots α) (i : Nat) : α := s.cells.getD i default

/-- A list of cells with one of them filled; cells before it are made when they are missing. -/
def setCell : List α → Nat → α → List α
  | [], 0, x => [x]
  | [], i + 1, x => default :: setCell [] i x
  | _ :: r, 0, x => x :: r
  | a :: r, i + 1, x => a :: setCell r i x

/-- The cells with one of them filled. -/
def set (s : Slots α) (i : Nat) (x : α) : Slots α := ⟨setCell s.cells i x⟩

/-- The number of the next cell. -/
def size (s : Slots α) : Nat := s.cells.length

theorem getD_setCell (cells : List α) (i j : Nat) (x : α) :
    (setCell cells i x).getD j default = if i = j then x else cells.getD j default := by
  induction cells generalizing i j with
  | nil =>
    induction i generalizing j with
    | zero => cases j <;> simp [setCell]
    | succ i ih =>
      cases j with
      | zero => simp [setCell]
      | succ j => simpa [setCell] using ih j
  | cons a r ih =>
    cases i with
    | zero => cases j <;> simp [setCell]
    | succ i =>
      cases j with
      | zero => simp [setCell]
      | succ j => simpa [setCell] using ih i j

@[simp] theorem get_set_self (s : Slots α) (i : Nat) (x : α) : (s.set i x).get i = x := by
  rw [get, set, getD_setCell, if_pos rfl]

theorem get_set_other (s : Slots α) {i j : Nat} (x : α) (h : i ≠ j) :
    (s.set i x).get j = s.get j := by
  rw [get, set, getD_setCell, if_neg h, get]

end Slots

namespace Keyed

variable {κ α : Type}

/-- The value stored under a key. -/
def find? (same : κ → κ → Bool) (key : κ) : List (κ × α) → Option α
  | [] => none
  | (k, a) :: r => if same k key then some a else find? same key r

/-- The entries after storing a value: an equal key keeps its place and its spelling, a new one
goes to the end. -/
def put (same : κ → κ → Bool) (key : κ) (value : α) : List (κ × α) → List (κ × α)
  | [] => [(key, value)]
  | (k, a) :: r => if same k key then (k, value) :: r else (k, a) :: put same key value r

/-- The entries without the first one under a key. -/
def remove (same : κ → κ → Bool) (key : κ) : List (κ × α) → List (κ × α)
  | [] => []
  | (k, a) :: r => if same k key then r else (k, a) :: remove same key r

/-- The entries that storing every pair in turn gives. -/
def ofList (same : κ → κ → Bool) (entries : List (κ × α)) : List (κ × α) :=
  entries.foldl (fun acc e => put same e.1 e.2 acc) []

end Keyed

end DbSchema
