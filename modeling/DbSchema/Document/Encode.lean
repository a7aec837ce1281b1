import DbSchema.Model.Validity

/-!
# Schemas as documents

A schema is written as one document: a mapping with the tables and, when there is something to say
about the schema itself, its name and database.  Attributes that have their default are left out.

## Main definitions

* `encodeField`, `encodeIndex`, `encodeConstraint` — the mapping of a child.
* `encodeTable`, `encodeSchema` — the mapping of a table or a schema.
-/

namespace DbSchema

/-- An entry that is written only under a condition. -/
def entryIf (condition : Bool) (key : String) (v : Value) : List (String × Value) :=
  if condition then [(key, v)] else []

/-- The attribute of an object as a value that is recognised when it occurs twice. -/
def slotValue (owner : Ref) (name : String) (v : Value) : Value := v.markedAs (.slot owner name)

/-- The mapping of a field. -/
def encodeField (st : Store) (f : FieldId) : Value :=
  let x := st.field f
  let slot (name : String) (v : Value) : Value := slotValue (.field f) name v
  .ofPairs <|
    [("name", slot "name" x.name), ("data_type", slot "data_type" x.dataType)] ++
    entryIf x.size.truthy "size" (slot "size" x.size) ++
    entryIf (!x.nullable.truthy) "nullable" (.bool false) ++
    entryIf (!x.default.same .null) "default" (slot "default_value" x.default) ++
    entryIf x.autoIncrement.truthy "auto_increment" (.bool true) ++
    entryIf (!x.comments.same .null) "comments" (slot "comments" x.comments) ++
    entryIf x.extra.truthy "extra" (slot "extra" x.extra)

/-- The mapping of an index, whose kind must have a label unless it is the ordinary one. -/
def encodeIndex (st : Store) (i : IndexId) : Except ModelError Value := do
  let x := st.index i
  let slot (name : String) (v : Value) : Value := slotValue (.index i) name v
  let kind ←
    if x.kind.same (.indexKind .normal) then pure []
    else do pure [("type", Value.text (← kindLabel x.kind))]
  return .ofPairs <|
    entryIf x.name.truthy "name" (slot "name" x.name) ++ kind ++
    [("fields", slot "fields" x.fields)] ++
    entryIf x.options.truthy "options" (slot "options" x.options)

/-- The mapping of a constraint, whose kind must have a label unless there is none. -/
def encodeConstraint (st : Store) (c : ConstraintId) : Except ModelError Value := do
  let x := st.constraint c
  let optional (name : String) (v : Value) : List (String × Value) :=
    entryIf v.truthy name (slotValue (.constraint c) name v)
  let kind ←
    if x.kind.same .null then pure []
    else do pure [("type", Value.text (← kindLabel x.kind))]
  return .ofPairs <|
    optional "name" x.name ++ kind ++
    optional "fields" x.fields ++
    optional "reference_table" x.referenceTable ++
    optional "expression" x.expression ++
    optional "on_delete" x.onDelete ++
    optional "on_update" x.onUpdate ++
    optional "match_type" x.matchType ++
    optional "reference_fields" x.referenceFields ++
    entryIf (!x.deferrable.truthy) "deferrable" (.bool false) ++
    optional "options" x.options

/-- The values that a list of objects becomes, one by one. -/
def encodeAll {α : Type} (encode : α → Except ModelError Value) :
    List α → Except ModelError (List Value)
  | [] => .ok []
  | a :: r => do
    let v ← encode a
    let vs ← encodeAll encode r
    return v :: vs

/-- The mapping of a table, which must have fields. -/
def encodeTable (st : Store) (t : TableId) : Except ModelError Value := do
  let x := st.table t
  let fields ← fieldsOf st t
  let indices ← encodeAll (encodeIndex st) x.indices
  let constraints ← encodeAll (encodeConstraint st) x.constraints
  return .ofPairs <|
    [("table", slotValue (.table t) "name" x.name)] ++
    entryIf (!x.options.isEmpty) "options" (.ofTexts x.options) ++
    [("fields", .ofList (fields.map (encodeField st)))] ++
    entryIf (!indices.isEmpty) "indices" (.ofList indices) ++
    entryIf (!constraints.isEmpty) "constraints" (.ofList constraints)

/-- The name and the database of a schema, as far as they are given. -/
def encodeHead (st : Store) (s : SchemaId) : List (String × Value) :=
  let x := st.schema s
  entryIf x.name.truthy "name" (slotValue (.schema s) "name" x.name) ++
    entryIf x.database.truthy "database" (slotValue (.schema s) "database" x.database)

/-- The mapping of a schema, which must have tables. -/
def encodeSchema (st : Store) (s : SchemaId) : Except ModelError Value := do
  let head := encodeHead st s
  let tables ← encodeAll (encodeTable st) (← tablesOf st s)
  return .ofPairs <|
    entryIf (!head.isEmpty) "schema" (.ofPairs head) ++ [("tables", .ofList tables)]

end DbSchema
