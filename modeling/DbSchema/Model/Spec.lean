import DbSchema.Names
import DbSchema.Value.Integer

/-!
# Describing fields, indices and constraints

Children are described by attributes that may hold values of any shape.  Tidying a description
trims its texts, reads its size and its kind, and refuses what cannot be read.

## Main definitions

* `bindParams` — parameters given in order or by name.
* `FieldSpec`, `IndexSpec`, `ConstraintSpec` — the attributes with their defaults.
* `FieldSpec.tidy`, `IndexSpec.tidy`, `ConstraintSpec.tidy` — the tidy description, or why there is
  none.
-/

namespace DbSchema

/-- Parameters by name. -/
abbrev Params := List (String × Value)

/-- The parameters by name when the first ones are given without names: there must not be more of
those than names, and no parameter may be given twice. -/
def bindParams (names : List String) (values : List Value) (params : Params) : Option Params :=
  let placed := names.zip values
  if names.length < values.length ∨ params.any (fun p => placed.any (·.1 == p.1)) then none
  else some (placed ++ params)

/-- The text of an attribute, trimmed; null counts as empty. -/
def cleanText (what : String) : Value → Except ModelError String
  | .null => .ok ""
  | .text s => .ok (Text.trim s)
  | v => .error (.wrongType (.notText what v))

/-- The names that one attribute gives. -/
def nameList (v : Value) : Except ModelError (List String) :=
  match splitNames [v] with
  | .ok names => .ok names
  | .error r => .error (.wrongType r)

/-- Fills in parameters one by one; `fill` knows their names. -/
def fillParams {σ : Type} (fill : σ → String → Value → Option σ) : σ → Params → Option σ
  | spec, [] => some spec
  | spec, (name, v) :: r =>
    match fill spec name v with
    | some spec => fillParams fill spec r
    | none => none

/-! ### Fields -/

/-- The attributes of a field. -/
structure FieldSpec where
  name : Value := .text ""
  dataType : Value := .text ""
  size : Value := .ofList []
  nullable : Value := .bool true
  default : Value := .null
  autoIncrement : Value := .bool false
  comments : Value := .null
  extra : Value := .map [] .own
deriving Repr, Inhabited

namespace FieldSpec

/-- The names of the attributes in the order in which they may be given without names. -/
def parameters : List String :=
  ["name", "data_type", "size", "is_nullable", "default_value", "is_auto_increment", "comments",
    "extra"]

/-- The attributes under their names. -/
def attributes (spec : FieldSpec) : Params :=
  [("name", spec.name), ("data_type", spec.dataType), ("size", spec.size),
    ("is_nullable", spec.nullable), ("default_value", spec.default),
    ("is_auto_increment", spec.autoIncrement), ("comments", spec.comments), ("extra", spec.extra)]

/-- The description with one attribute filled in. -/
def fill (spec : FieldSpec) (name : String) (v : Value) : Option FieldSpec :=
  match name with
  | "name" => some { spec with name := v }
  | "data_type" => some { spec with dataType := v }
  | "size" => some { spec with size := v }
  | "is_nullable" => some { spec with nullable := v }
  | "default_value" => some { spec with default := v }
  | "is_auto_increment" => some { spec with autoIncrement := v }
  | "comments" => some { spec with comments := v }
  | "extra" => some { spec with extra := v }
  | _ => none

/-- The description with a trimmed name and type and with its size as a list of integers. -/
def tidy (spec : FieldSpec) : Except ModelError FieldSpec := do
  let name ← cleanText "field name" spec.name
  let dataType ← cleanText "data type" spec.dataType
  let size ← parseSize spec.size
  return { spec with name := .text name, dataType := .text dataType, size := .ofInts size }

end FieldSpec

/-! ### Indices -/

/-- The attributes of an index. -/
structure IndexSpec where
  name : Value := .text ""
  fields : Value := .ofList []
  kind : Value := .indexKind .normal
  options : Value := .ofList []
deriving Repr, Inhabited

/-- The kind of index that a value names. -/
def IndexKind.ofValue? : Value → Option IndexKind
  | .indexKind k => some k
  | .text s => IndexKind.ofText? s
  | _ => none

namespace IndexSpec

/-- The names of the attributes in the order in which they may be given without names. -/
def parameters : List String := ["name", "fields", "type", "options"]

/-- The attributes under their names. -/
def attributes (spec : IndexSpec) : Params :=
  [("name", spec.name), ("fields", spec.fields), ("type", spec.kind), ("options", spec.options)]

/-- The description with one attribute filled in. -/
def fill (spec : IndexSpec) (name : String) (v : Value) : Option IndexSpec :=
  match name with
  | "name" => some { spec with name := v }
  | "fields" => some { spec with fields := v }
  | "type" => some { spec with kind := v }
  | "options" => some { spec with options := v }
  | _ => none

/-- The description with a trimmed name, with lists of names, and with its kind read. -/
def tidy (spec : IndexSpec) : Except ModelError IndexSpec := do
  let name ← cleanText "index name" spec.name
  let fields ← nameList spec.fields
  let options ← nameList spec.options
  match IndexKind.ofValue? spec.kind with
  | some kind =>
    return { name := .text name, fields := .ofTexts fields, kind := .indexKind kind,
             options := .ofTexts options }
  | none => throw (.childInvalid (.invalidIndexKind spec.kind))

end IndexSpec

/-! ### Constraints -/

/-- The attributes of a constraint. -/
structure ConstraintSpec where
  name : Value := .text ""
  kind : Value := .null
  fields : Value := .ofList []
  referenceTable : Value := .text ""
  referenceFields : Value := .ofList []
  expression : Value := .text ""
  onDelete : Value := .text ""
  onUpdate : Value := .text ""
  matchType : Value := .text ""
  deferrable : Value := .bool true
  options : Value := .ofList []
deriving Repr, Inhabited

/-- The kind of constraint that a value names. -/
def ConstraintKind.ofValue? : Value → Option ConstraintKind
  | .constraintKind k => some k
  | .text s => ConstraintKind.ofText? s
  | _ => none

namespace ConstraintSpec

/-- The names of the attributes in the order in which they may be given without names. -/
def parameters : List String :=
  ["name", "type", "fields", "reference_table", "reference_fields", "expression", "on_delete",
    "on_update", "match_type", "deferrable", "options"]

/-- The attributes under their names. -/
def attributes (spec : ConstraintSpec) : Params :=
  [("name", spec.name), ("type", spec.kind), ("fields", spec.fields),
    ("reference_table", spec.referenceTable), ("reference_fields", spec.referenceFields),
    ("expression", spec.expression), ("on_delete", spec.onDelete), ("on_update", spec.onUpdate),
    ("match_type", spec.matchType), ("deferrable", spec.deferrable), ("options", spec.options)]

/-- The description with one attribute filled in. -/
def fill (spec : ConstraintSpec) (name : String) (v : Value) : Option ConstraintSpec :=
  match name with
  | "name" => some { spec with name := v }
  | "type" => some { spec with kind := v }
  | "fields" => some { spec with fields := v }
  | "reference_table" => some { spec with referenceTable := v }
  | "reference_fields" => some { spec with referenceFields := v }
  | "expression" => some { spec with expression := v }
  | "on_delete" => some { spec with onDelete := v }
  | "on_update" => some { spec with onUpdate := v }
  | "match_type" => some { spec with matchType := v }
  | "deferrable" => some { spec with deferrable := v }
  | "options" => some { spec with options := v }
  | _ => none

/-- The kind that a value gives: none for null and for empty text. -/
def readKind (v : Value) : Except ModelError (Option ConstraintKind) :=
  match v with
  | .null | .text "" => .ok none
  | v =>
    match ConstraintKind.ofValue? v with
    | some k => .ok (some k)
    | none => .error (.childInvalid (.invalidConstraintKind v))

/-- The description with a trimmed name, with lists of names, and with its kind read. -/
def tidy (spec : ConstraintSpec) : Except ModelError ConstraintSpec := do
  let name ← cleanText "constraint name" spec.name
  let fields ← nameList spec.fields
  let referenceFields ← nameList spec.referenceFields
  let options ← nameList spec.options
  let kind ← readKind spec.kind
  return {
    spec with
    name := .text name
    kind := kind.elim .null .constraintKind
    fields := .ofTexts fields
    referenceFields := .ofTexts referenceFields
    options := .ofTexts options }

end ConstraintSpec

/-! ### Descriptions from parameters -/

/-- The tidy description that parameters given by name make. -/
def specOf {σ : Type} (fill : σ → String → Value → Option σ) (tidy : σ → Except ModelError σ)
    (default : σ) (params : Params) : Except ModelError σ :=
  match fillParams fill default params with
  | some spec => tidy spec
  | none => .error (.fault .arguments)

/-- The description of a field that parameters make. -/
def FieldSpec.ofParams (params : Params) : Except ModelError FieldSpec :=
  specOf fill tidy {} params

/-- The description of an index that parameters make. -/
def IndexSpec.ofParams (params : Params) : Except ModelError IndexSpec :=
  specOf fill tidy {} params

/-- The description of a constraint that parameters make. -/
def ConstraintSpec.ofParams (params : Params) : Except ModelError ConstraintSpec :=
  specOf fill tidy {} params

end DbSchema
