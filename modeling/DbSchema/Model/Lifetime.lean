import DbSchema.Model.Validity

/-!
# What keeps objects alive

A schema holds its tables, a table its children, and every object whatever stands in the values of
its attributes; references from a child to its owner hold nothing.  An object that is not held any
more is gone, and references to it lead nowhere.

## Main definitions

* `Store.holds` — the objects that an object holds.
* `Store.sweep` — the store without the objects that the given ones do not hold.
-/

namespace DbSchema.Store

/-- The objects in the values of a list of attributes. -/
def refsIn (attributes : Params) : List Ref := attributes.flatMap fun p => p.2.refs

/-- The objects that an object holds. -/
def holds (st : Store) (r : Ref) : List Ref :=
  refsIn (notesOf st r) ++
    match r with
    | .schema s =>
      let x := st.schema s
      x.name.refs ++ x.database.refs ++ x.tables.flatMap fun e => .table e.2 :: e.1.refs
    | .table t =>
      let x := st.table t
      x.name.refs ++ (x.fields.flatMap fun e => .field e.2 :: e.1.refs) ++
        x.indices.map .index ++ x.constraints.map .constraint
    | .field f => refsIn (st.field f).attributes ++ (st.field f).order.refs
    | .index i => refsIn (st.index i).attributes
    | .constraint c => refsIn (st.constraint c).attributes

/-- What the given objects hold, directly or through others, added to what is known; `depth` bounds
the length of the way. -/
def heldBy (st : Store) : Nat → List Ref → List Ref → List Ref
  | 0, _, known => known
  | depth + 1, roots, known =>
    let fresh := (roots.filter fun r => !known.contains r).eraseDups
    if fresh.isEmpty then known else st.heldBy depth (fresh.flatMap st.holds) (known ++ fresh)

/-- A list of cells where those that are not kept hold the default. -/
def keepCells {α : Type} [Inhabited α] (keep : Nat → Bool) (cells : Slots α) (change : α → α) :
    Slots α :=
  ⟨cells.cells.mapIdx fun i x => if keep i then change x else default⟩

/-- Empties the cells of every object that the given ones do not hold, and every reference to such
an object. -/
def sweep (st : Store) (roots : List Ref) : Store :=
  let alive := st.heldBy (st.size + 1) roots []
  let owner (o : Option Ref) : Option Ref := o.filter alive.contains
  { st with
    schemas := keepCells (fun i => alive.contains (.schema ⟨i⟩)) st.schemas id
    tables := keepCells (fun i => alive.contains (.table ⟨i⟩)) st.tables fun x =>
      { x with owner := x.owner.filter fun s => alive.contains (.schema s) }
    fields := keepCells (fun i => alive.contains (.field ⟨i⟩)) st.fields fun x =>
      { x with owner := owner x.owner }
    indices := keepCells (fun i => alive.contains (.index ⟨i⟩)) st.indices fun x =>
      { x with owner := owner x.owner }
    constraints := keepCells (fun i => alive.contains (.constraint ⟨i⟩)) st.constraints fun x =>
      { x with owner := owner x.owner } }

end DbSchema.Store
