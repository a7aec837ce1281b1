import DbSchema.Model.Children

/-!
# Validity

Checking a schema checks its tables in order of registration, and in each table the name, the
number of fields, and then every field, index and constraint.  The first rule that is broken is
reported.

## Main definitions

* `checkField`, `checkIndex`, `checkConstraint`, `checkTable`, `checkSchema` — the checks.
* `Edit.isValid` — checks an object and leaves the reason in its `error`.
-/

namespace DbSchema

/-- Checks every member of a list in turn. -/
def checkAll {α : Type} (check : α → Except ModelError Unit) : List α → Except ModelError Unit
  | [] => .ok ()
  | a :: r =>
    match check a with
    | .ok () => checkAll check r
    | .error e => .error e

/-- A broken rule of a child. -/
def broken {α : Type} (r : ChildReason) : Except ModelError α := .error (.childInvalid r)

/-- A field has a name and a type and is the one its table lists under its name. -/
def checkField (st : Store) (f : FieldId) : Except ModelError Unit :=
  let x := st.field f
  let label := st.plain x.name
  if !x.name.truthy then .error .missingFieldName
  else if !x.dataType.truthy then broken (.noDataType label)
  else
    match x.owner with
    | none => broken (.noTable .field label)
    | some (.table t) =>
      let missing : Except ModelError Unit :=
        broken (.notRegistered label (st.plain (st.table t).name))
      match fieldNamed st t x.name with
      | .ok g => if g = f then .ok () else missing
      | .error (.fieldNotFound _) => missing
      | .error e => .error e
    | some r => lacks r "get_field"

/-- What is not named is called so in messages. -/
def unnamed : String := "(unnamed)"

/-- What an index is called in messages. -/
def indexLabel (st : Store) (x : Index) : String :=
  if x.name.truthy then st.plain x.name else unnamed

/-- An index lists at least one field, and only fields of its table. -/
def checkIndex (st : Store) (i : IndexId) : Except ModelError Unit :=
  let x := st.index i
  let label := indexLabel st x
  match x.owner with
  | none => broken (.noTable .index label)
  | some owner =>
    if !x.fields.truthy then broken (.noFields .index label)
    else checkFieldsExist st owner x.fields

/-- The label of a kind, which must be a member of a closed set. -/
def kindLabel : Value → Except ModelError String
  | .constraintKind k => .ok k.label
  | .indexKind k => .ok k.label
  | v => .error (.fault (.noOperation v "value"))

/-- What a constraint is called in messages: its name, else its kind. -/
def constraintLabel (st : Store) (x : Constraint) : Except ModelError String :=
  if x.name.truthy then .ok (st.plain x.name)
  else if x.kind.truthy then kindLabel x.kind
  else .ok unnamed

/-- A foreign key names a table; when the schema of its own table lists that table, the reference
fields must be fields of it. -/
def checkReference (st : Store) (x : Constraint) (label : String) (owner : Ref) :
    Except ModelError Unit :=
  if !x.referenceTable.truthy then broken (.noReference label)
  else
    match owner with
    | .table t =>
      match (st.table t).owner with
      | none => .ok ()
      | some s =>
        match lookupTable st s x.referenceTable with
        | .error e => .error e
        | .ok none => .ok ()
        | .ok (some u) => checkFieldsExist st (.table u) x.referenceFields
    | r => lacks r "schema"

/-- A constraint has what its kind needs: an expression for a check, fields for every other kind,
and a reference for a foreign key; it lists only fields of its table. -/
def checkConstraint (st : Store) (c : ConstraintId) : Except ModelError Unit :=
  let x := st.constraint c
  match constraintLabel st x with
  | .error e => .error e
  | .ok label =>
    match x.owner with
    | none => broken (.noTable .constraint label)
    | some owner =>
      if x.kind.same .null then broken (.noKind label)
      else if x.isOfKind .check && !x.expression.truthy then broken (.noExpression label)
      else if !x.isOfKind .check && !x.fields.truthy then broken (.noFields .constraint label)
      else
        match checkFieldsExist st owner x.fields with
        | .error e => .error e
        | .ok () =>
          if x.isOfKind .foreignKey then checkReference st x label owner else .ok ()

/-- A table has a name, fields, and only valid children. -/
def checkTable (st : Store) (t : TableId) : Except ModelError Unit :=
  let x := st.table t
  if !x.name.truthy then .error .missingTableName
  else
    match fieldsOf st t with
    | .error e => .error e
    | .ok fields =>
      match checkAll (checkField st) fields with
      | .error e => .error e
      | .ok () =>
        match checkAll (checkIndex st) x.indices with
        | .error e => .error e
        | .ok () => checkAll (checkConstraint st) x.constraints

/-- A schema has tables, all of them valid. -/
def checkSchema (st : Store) (s : SchemaId) : Except ModelError Unit :=
  match tablesOf st s with
  | .error e => .error e
  | .ok tables => checkAll (checkTable st) tables

/-- Checks an object of any kind. -/
def checkObject (st : Store) : Ref → Except ModelError Unit
  | .schema s => checkSchema st s
  | .table t => checkTable st t
  | .field f => checkField st f
  | .index i => checkIndex st i
  | .constraint c => checkConstraint st c

/-- The attributes of an object beyond the declared ones. -/
def notesOf (st : Store) : Ref → Notes
  | .schema s => (st.schema s).notes
  | .table t => (st.table t).notes
  | .field f => (st.field f).notes
  | .index i => (st.index i).notes
  | .constraint c => (st.constraint c).notes

/-- The reason left by the last check of an object. -/
def errorText (st : Store) (r : Ref) : String := st.plain (notesOf st r).error

namespace Edit

/-- Assigns an attribute beyond the declared ones. -/
def note (name : String) (v : Value) : Ref → Edit Unit
  | .schema s => onSchema s fun x => { x with notes := x.notes.put name v }
  | .table t => onTable t fun x => { x with notes := x.notes.put name v }
  | .field f => onField f fun x => { x with notes := x.notes.put name v }
  | .index i => onIndex i fun x => { x with notes := x.notes.put name v }
  | .constraint c => onConstraint c fun x => { x with notes := x.notes.put name v }

/-- Checks an object and leaves the reason on it, an empty one when it is valid; a fault is no
verdict and is passed on. -/
def isValid (r : Ref) : Edit Bool := do
  let st ← get
  match checkObject st r with
  | .ok () =>
    note errorNote (.text "") r
    return true
  | .error e =>
    match e.fault? with
    | some f => throw (.fault f)
    | none =>
      note errorNote (.text (st.message e)) r
      return false

end Edit

end DbSchema
