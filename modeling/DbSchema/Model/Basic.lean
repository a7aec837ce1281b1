import DbSchema.Model.Slots
import DbSchema.Model.Spec

/-!
# The model

A model holds any number of schemas, tables, fields, indices and constraints in numbered cells.
A schema lists its tables and a table its children; the way back, from a child to its table and
from a table to its schema, is a reference that does not keep its target alive.  Objects are made
from tidy descriptions, but their attributes may be assigned values of any shape later.

## Main definitions

* `Schema`, `Table`, `Field`, `Index`, `Constraint` — the objects.
* `Store` — the cells that hold them.
* `Edit` — an operation on a store, which may be refused and then says why.
-/

namespace DbSchema

/-- Attributes beyond the declared ones, in the order in which they were first assigned. -/
abbrev Notes := List (String × Value)

/-- The notes after one of them is assigned. -/
def Notes.put (notes : Notes) (name : String) (v : Value) : Notes :=
  Keyed.put (· == ·) name v notes

/-- The name of the note that says why an object was last found invalid. -/
def errorNote : String := "error"

/-- Why an object was last found invalid; empty text before it is checked. -/
def Notes.error (notes : Notes) : Value := (notes.lookup errorNote).getD (.text "")

/-- A registry of tables under their names, in order of registration. -/
structure Schema where
  name : Value := .text ""
  database : Value := .text ""
  tables : List (Value × TableId) := []
  notes : Notes := []
deriving Repr, Inhabited

/-- A table with its children; `owner` is the schema it belongs to, if that is alive. -/
structure Table where
  name : Value := .text ""
  owner : Option SchemaId := none
  /-- The fields under the names they were added with. -/
  fields : List (Value × FieldId) := []
  indices : List IndexId := []
  constraints : List ConstraintId := []
  options : List String := []
  /-- The order number of the next field. -/
  nextOrder : Nat := 1
  notes : Notes := []
deriving Repr, Inhabited

/-- A column; `owner` is the table it belongs to, if that is alive, or what was assigned in its
place. -/
structure Field extends FieldSpec where
  order : Value := .int 0
  owner : Option Ref := none
  notes : Notes := []
deriving Repr, Inhabited

/-- An index over an ordered list of field names. -/
structure Index extends IndexSpec where
  owner : Option Ref := none
  notes : Notes := []
deriving Repr, Inhabited

/-- A rule over an ordered list of field names. -/
structure Constraint extends ConstraintSpec where
  owner : Option Ref := none
  notes : Notes := []
deriving Repr, Inhabited

/-- The cells of all objects. -/
structure Store where
  schemas : Slots Schema := ⟨[]⟩
  tables : Slots Table := ⟨[]⟩
  fields : Slots Field := ⟨[]⟩
  indices : Slots Index := ⟨[]⟩
  constraints : Slots Constraint := ⟨[]⟩
  /-- The number of the next shared node of a document. -/
  nextNode : Nat := 0
deriving Repr, Inhabited

namespace Store

/-- The store without any object. -/
def empty : Store := {}

/-- The schema with a number. -/
def schema (st : Store) (s : SchemaId) : Schema := st.schemas.get s.index

/-- The table with a number. -/
def table (st : Store) (t : TableId) : Table := st.tables.get t.index

/-- The field with a number. -/
def field (st : Store) (f : FieldId) : Field := st.fields.get f.index

/-- The index with a number. -/
def index (st : Store) (i : IndexId) : Index := st.indices.get i.index

/-- The constraint with a number. -/
def constraint (st : Store) (c : ConstraintId) : Constraint := st.constraints.get c.index

/-- The store with one schema replaced. -/
def setSchema (st : Store) (s : SchemaId) (x : Schema) : Store :=
  { st with schemas := st.schemas.set s.index x }

/-- The store with one table replaced. -/
def setTable (st : Store) (t : TableId) (x : Table) : Store :=
  { st with tables := st.tables.set t.index x }

/-- The store with one field replaced. -/
def setField (st : Store) (f : FieldId) (x : Field) : Store :=
  { st with fields := st.fields.set f.index x }

/-- The store with one index replaced. -/
def setIndex (st : Store) (i : IndexId) (x : Index) : Store :=
  { st with indices := st.indices.set i.index x }

/-- The store with one constraint replaced. -/
def setConstraint (st : Store) (c : ConstraintId) (x : Constraint) : Store :=
  { st with constraints := st.constraints.set c.index x }

/-- The number of cells in use. -/
def size (st : Store) : Nat :=
  st.schemas.size + st.tables.size + st.fields.size + st.indices.size + st.constraints.size

end Store

/-- An operation on a store: it gives a result or is refused, and leaves a store in both cases. -/
abbrev Edit := ExceptT ModelError (StateM Store)

namespace Edit

/-- A question to the store as an operation. -/
def ask {α : Type} (question : Store → Except ModelError α) : Edit α := do
  match question (← get) with
  | .ok a => return a
  | .error e => throw e

/-- Makes a schema. -/
def addSchemaCell (x : Schema) : Edit SchemaId := do
  let s : SchemaId := ⟨(← get).schemas.size⟩
  modify (·.setSchema s x)
  return s

/-- Makes a table. -/
def addTableCell (x : Table) : Edit TableId := do
  let t : TableId := ⟨(← get).tables.size⟩
  modify (·.setTable t x)
  return t

/-- Makes a field. -/
def addFieldCell (x : Field) : Edit FieldId := do
  let f : FieldId := ⟨(← get).fields.size⟩
  modify (·.setField f x)
  return f

/-- Makes an index. -/
def addIndexCell (x : Index) : Edit IndexId := do
  let i : IndexId := ⟨(← get).indices.size⟩
  modify (·.setIndex i x)
  return i

/-- Makes a constraint. -/
def addConstraintCell (x : Constraint) : Edit ConstraintId := do
  let c : ConstraintId := ⟨(← get).constraints.size⟩
  modify (·.setConstraint c x)
  return c

/-- Makes a field from parameters given by name. -/
def newField (params : Params) : Edit FieldId := do
  let spec ← ask fun _ => FieldSpec.ofParams params
  addFieldCell { toFieldSpec := spec }

/-- Makes an index from parameters given by name. -/
def newIndex (params : Params) : Edit IndexId := do
  let spec ← ask fun _ => IndexSpec.ofParams params
  addIndexCell { toIndexSpec := spec }

/-- Makes a constraint from parameters given by name. -/
def newConstraint (params : Params) : Edit ConstraintId := do
  let spec ← ask fun _ => ConstraintSpec.ofParams params
  addConstraintCell { toConstraintSpec := spec }

/-- Changes a schema. -/
def onSchema (s : SchemaId) (f : Schema → Schema) : Edit Unit :=
  modify fun st => st.setSchema s (f (st.schema s))

/-- Changes a table. -/
def onTable (t : TableId) (f : Table → Table) : Edit Unit :=
  modify fun st => st.setTable t (f (st.table t))

/-- Changes a field. -/
def onField (i : FieldId) (f : Field → Field) : Edit Unit :=
  modify fun st => st.setField i (f (st.field i))

/-- Changes an index. -/
def onIndex (i : IndexId) (f : Index → Index) : Edit Unit :=
  modify fun st => st.setIndex i (f (st.index i))

/-- Changes a constraint. -/
def onConstraint (c : ConstraintId) (f : Constraint → Constraint) : Edit Unit :=
  modify fun st => st.setConstraint c (f (st.constraint c))

end Edit

end DbSchema
