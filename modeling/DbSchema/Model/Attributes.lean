import DbSchema.Model.Validity

/-!
# Attributes and equality

Objects can be read and changed attribute by attribute, and compared.  An attribute takes whatever
is assigned to it, and one that is not declared is made by assigning it.

## Main definitions

* `attributeOf` — an attribute of an object by name.
* `Edit.assign` — changes an attribute of an object by name.
* `equalObjects` — equality of children by content, of tables and schemas by identity.
-/

namespace DbSchema

/-- The object that a reference leads to, as a value. -/
def ownerValue (owner : Option Ref) : Value := owner.elim .null .object

/-- The declared attributes of an object that are not worked out. -/
def declaredOf (st : Store) : Ref → Params
  | .schema s => [("name", (st.schema s).name), ("database", (st.schema s).database)]
  | .table t =>
    [("name", (st.table t).name), ("schema", ownerValue ((st.table t).owner.map .schema))]
  | .field f =>
    let x := st.field f
    x.attributes ++ [("order", x.order), ("table", ownerValue x.owner)]
  | .index i => (st.index i).attributes ++ [("table", ownerValue (st.index i).owner)]
  | .constraint c => (st.constraint c).attributes ++ [("table", ownerValue (st.constraint c).owner)]

/-- An attribute of an object that is not declared with a value of its own: one that is worked out,
or one that was assigned. -/
def furtherOf (st : Store) (r : Ref) (name : String) : Except ModelError Value :=
  let noted : Except ModelError Value :=
    if name = errorNote then .ok (notesOf st r).error
    else
      match (notesOf st r).lookup name with
      | some v => .ok v
      | none => lacks r name
  match r with
  | .field f =>
    match name with
    | "normalized_type" => ((st.field f).normalizedType.map .text).mapError .fault
    | "is_primary_key" => (isPrimaryKey st f).map .bool
    | _ => noted
  | _ => noted

/-- An attribute of an object by name. -/
def attributeOf (st : Store) (r : Ref) (name : String) : Except ModelError Value :=
  match (declaredOf st r).lookup name with
  | some v => .ok v
  | none => furtherOf st r name

/-- The owner that an assigned value means: none for null, else an object. -/
def ownerOf? : Value → Option (Option Ref)
  | .null => some none
  | .object r => some (some r)
  | _ => none

namespace Edit

/-- Changes the owner of a child; `change` stores it. -/
def assignOwner (v : Value) (change : Option Ref → Edit Unit) : Edit Unit :=
  (ownerOf? v).elim (throw (.fault (.notText v))) change

/-- Changes an attribute of a field. -/
def assignField (f : FieldId) (name : String) (v : Value) : Edit Unit := do
  match ((← get).field f).fill name v with
  | some spec => onField f fun x => { x with toFieldSpec := spec }
  | none =>
    match name with
    | "order" => onField f fun x => { x with order := v }
    | "table" => assignOwner v fun owner => onField f fun x => { x with owner }
    | "normalized_type" | "is_primary_key" =>
      throw (.fault (.noOperation (.object (.field f)) name))
    | _ => note name v (.field f)

/-- Changes an attribute of an index. -/
def assignIndex (i : IndexId) (name : String) (v : Value) : Edit Unit := do
  match ((← get).index i).fill name v with
  | some spec => onIndex i fun x => { x with toIndexSpec := spec }
  | none =>
    match name with
    | "table" => assignOwner v fun owner => onIndex i fun x => { x with owner }
    | _ => note name v (.index i)

/-- Changes an attribute of a constraint. -/
def assignConstraint (c : ConstraintId) (name : String) (v : Value) : Edit Unit := do
  match ((← get).constraint c).fill name v with
  | some spec => onConstraint c fun x => { x with toConstraintSpec := spec }
  | none =>
    match name with
    | "table" => assignOwner v fun owner => onConstraint c fun x => { x with owner }
    | _ => note name v (.constraint c)

/-- Changes an attribute of an object.  A table is renamed and given to a schema by its own
rules. -/
def assign (r : Ref) (name : String) (v : Value) : Edit Unit :=
  match r with
  | .schema s =>
    match name with
    | "name" => onSchema s fun x => { x with name := v }
    | "database" => onSchema s fun x => { x with database := v }
    | _ => note name v r
  | .table t =>
    match name with
    | "name" => discard (setName t v)
    | "schema" => discard (setOwner t v)
    | _ => note name v r
  | .field f => assignField f name v
  | .index i => assignIndex i name v
  | .constraint c => assignConstraint c name v

end Edit

/-- Equality of attributes one by one. -/
def sameAttributes (xs ys : Params) : Bool := Value.sameAll (xs.map (·.2)) (ys.map (·.2))

/-- Equality of two values where children are compared by content, without regard to order number
and owner. -/
def equalObjects (st : Store) : Value → Value → Bool
  | .object (.field f), .object (.field g) =>
    f == g || sameAttributes (st.field f).attributes (st.field g).attributes
  | .object (.index i), .object (.index j) =>
    i == j || sameAttributes (st.index i).attributes (st.index j).attributes
  | .object (.constraint c), .object (.constraint d) =>
    c == d || sameAttributes (st.constraint c).attributes (st.constraint d).attributes
  | v, w => v.same w

end DbSchema
