import DbSchema.Error.Category
import DbSchema.Error.Limits

/-!
# Errors of the model

The reasons why an operation on schemas, tables and their children is refused.

## Main definitions

* `ModelError` — the reasons.
* `ModelError.fault?` — the fault behind an error, if it is one.
* `ModelError.report?` — category, wording and details; a fault has none.
* `ModelError.message` — the wording alone.
-/

namespace DbSchema

/-- The children of a table. -/
inductive ChildKind
  | field
  | index
  | constraint
deriving DecidableEq, Repr, Inhabited

/-- The name of a kind of child inside a sentence. -/
def ChildKind.noun : ChildKind → String
  | field => "field"
  | index => "index"
  | constraint => "constraint"

/-- The name of a kind of child at the start of a sentence. -/
def ChildKind.title : ChildKind → String
  | field => "Field"
  | index => "Index"
  | constraint => "Constraint"

/-- The collections that may be found empty. -/
inductive Collection
  | indices
  | constraints
  | tables
deriving DecidableEq, Repr, Inhabited

/-- The name of a collection. -/
def Collection.noun : Collection → String
  | indices => "indices"
  | constraints => "constraints"
  | tables => "tables"

/-- A value that does not have the shape an operation needs. -/
inductive TypeReason
  /-- An item of a list of names is no text. -/
  | notName (v : Value)
  /-- A list of names is neither text nor list. -/
  | notNames (v : Value)
  /-- An attribute is no text. -/
  | notText (what : String) (v : Value)
  /-- The owner of a table is no schema. -/
  | notSchema (v : Value)
  /-- The object added is no child of the right kind. -/
  | notChild (kind : ChildKind) (v : Value)
  /-- The object registered is no table. -/
  | notTable (v : Value)
  /-- Both a child and parameters for one were given. -/
  | childAndParameters (kind : ChildKind)
  /-- Both a table and parameters for one were given. -/
  | tableAndParameters
deriving Repr, Inhabited

/-- A rule that a field, an index or a constraint breaks; `label` names it in the message. -/
inductive ChildReason
  | invalidSize (v : Value)
  | invalidIndexKind (v : Value)
  | invalidConstraintKind (v : Value)
  | noDataType (label : String)
  | noTable (kind : ChildKind) (label : String)
  | notRegistered (label table : String)
  | noFields (kind : ChildKind) (label : String)
  | noKind (label : String)
  | noExpression (label : String)
  | noReference (label : String)
  | owned (kind : ChildKind) (label owner : String)
deriving Repr, Inhabited

/-- The kind of child whose rule is broken. -/
def ChildReason.kind : ChildReason → ChildKind
  | invalidSize _ | noDataType _ | notRegistered .. => .field
  | invalidIndexKind _ => .index
  | invalidConstraintKind _ | noKind _ | noExpression _ | noReference _ => .constraint
  | noTable k _ | noFields k _ | owned k _ _ => k

/-- The reasons why an operation on a model is refused. -/
inductive ModelError
  | missingFieldName
  | missingTableName
  | duplicateField (name : Value)
  | unknownField (name : Value)
  | nameConflict (name : Value)
  | noPrimaryKey
  | empty (what : Collection)
  | noFields
  | fieldNotFound (name : Value)
  | tableNotFound (name : Value)
  | wrongType (reason : TypeReason)
  | childInvalid (reason : ChildReason)
  | fault (f : Fault)
deriving Repr, Inhabited

namespace ModelError

/-- The value that a wrong shape shows. -/
def typeValue? : TypeReason → Option Value
  | .notName v | .notNames v | .notText _ v | .notSchema v | .notChild _ v | .notTable v => some v
  | .childAndParameters _ | .tableAndParameters => none

/-- The value that a broken rule of a child shows. -/
def childValue? : ChildReason → Option Value
  | .invalidSize v | .invalidIndexKind v | .invalidConstraintKind v => some v
  | _ => none

/-- The value that an error shows. -/
def value? : ModelError → Option Value
  | duplicateField v | unknownField v | nameConflict v | fieldNotFound v | tableNotFound v => some v
  | wrongType r => typeValue? r
  | childInvalid r => childValue? r
  | _ => none

/-- The fault behind an error: it is one, or it shows a value that has no text. -/
def fault? : ModelError → Option Fault
  | fault f => some f
  | e => e.value?.bind Value.showFault?

/-- The wording of a wrong shape. -/
def typeMessage (shown : Ref → String) : TypeReason → String
  | .notName v => "Expected a name string, got " ++ v.display shown
  | .notNames v => "Expected a name string or list, got " ++ v.display shown
  | .notText what v => "Expected a string for " ++ what ++ ", got " ++ v.display shown
  | .notSchema v => "Not a schema object: " ++ v.display shown
  | .notChild kind v => "Not a " ++ kind.title ++ " object: " ++ v.display shown
  | .notTable v => "Not a Table object: " ++ v.display shown
  | .childAndParameters kind =>
    "Pass either a " ++ kind.title ++ " or keyword parameters, not both"
  | .tableAndParameters => "Pass either a Table or keyword parameters, not both"

/-- The wording of a broken rule of a child. -/
def childMessage (shown : Ref → String) : ChildReason → String
  | .invalidSize v => "Invalid size " ++ v.display shown
  | .invalidIndexKind v => "Invalid index type \"" ++ v.plain shown ++ "\""
  | .invalidConstraintKind v => "Invalid constraint type \"" ++ v.plain shown ++ "\""
  | .noDataType label => "Field \"" ++ label ++ "\" has no data type"
  | .noTable kind label => kind.title ++ " \"" ++ label ++ "\" has no table"
  | .notRegistered label table =>
    "Field \"" ++ label ++ "\" is not part of table \"" ++ table ++ "\""
  | .noFields kind label => kind.title ++ " \"" ++ label ++ "\" has no fields"
  | .noKind label => "Constraint \"" ++ label ++ "\" has no type"
  | .noExpression label => "Check constraint \"" ++ label ++ "\" has no expression"
  | .noReference label => "Foreign key \"" ++ label ++ "\" has no reference table"
  | .owned kind label owner =>
    kind.title ++ " \"" ++ label ++ "\" already belongs to table \"" ++ owner ++ "\""

/-- The report of an error of a category that takes the given arguments. -/
def describe (shown : Ref → String) (c : Category) (args : List Value) : Report :=
  (c.report? shown args).getD ⟨c, "", []⟩

/-- Category, wording and details of an error; a fault is outside every category. -/
def report? (shown : Ref → String) : ModelError → Option Report
  | missingFieldName => some (describe shown .missingName [.text "No field name"])
  | missingTableName => some (describe shown .missingName [.text "No table name"])
  | duplicateField n => some (describe shown .duplicateField [n])
  | unknownField n => some (describe shown .unknownField [n])
  | nameConflict v => some (describe shown .nameConflict [v])
  | noPrimaryKey => some (describe shown .noPrimaryKey [.text "No primary key"])
  | empty what => some (describe shown .emptyCollection [.text what.noun])
  | noFields => some (describe shown .noFields [])
  | fieldNotFound v =>
    some (describe shown .notFound [.text ("Field \"" ++ v.plain shown ++ "\" does not exist")])
  | tableNotFound v =>
    some (describe shown .notFound [.text ("Table \"" ++ v.plain shown ++ "\" does not exist")])
  | wrongType r => some (describe shown .wrongType [.text (typeMessage shown r)])
  | childInvalid r =>
    some (describe shown .childInvalid [.text r.kind.noun, .text (childMessage shown r)])
  | fault _ => none

/-- The wording of an error. -/
def message (shown : Ref → String) (e : ModelError) : String :=
  match e with
  | fault f => f.message shown
  | e => ((e.report? shown).map (·.message)).getD ""

end ModelError

end DbSchema
