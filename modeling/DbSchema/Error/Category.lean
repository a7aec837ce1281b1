import DbSchema.Value.Display

/-!
# Categories of errors

Every error of the library belongs to a category; categories form a tree below one root, and a
few also belong to a general family.

## Main definitions

* `Category` — the categories, `Category.parent?` their tree.
* `Category.lineage` — the categories above one, nearest first.
* `Report` — an error as callers see it: category, message and named details.
* `Category.report?` — the report that a list of arguments describes.
-/

namespace DbSchema

/-- The categories of errors. -/
inductive Category
  | root
  | missingName
  | duplicateField
  | unknownField
  | nameConflict
  | noPrimaryKey
  | emptyCollection
  | noFields
  | notFound
  | wrongType
  | childInvalid
  | load
  | config
  | introspection
  | unsupportedDatabase
deriving DecidableEq, Repr, Inhabited

/-- The general families that some categories also belong to. -/
inductive Family
  | lookup
  | type
deriving DecidableEq, Repr, Inhabited

/-- The names of the details that an error may carry. -/
inductive Detail
  | fieldName
  | name
  | kind
  | driver
deriving DecidableEq, Repr, Inhabited

/-- An error as callers see it. -/
structure Report where
  category : Category
  message : String
  details : List (Detail × Value)
deriving Repr, Inhabited

namespace Category

/-- The category that one belongs to. -/
def parent? : Category → Option Category
  | root => none
  | noFields => some emptyCollection
  | unsupportedDatabase => some introspection
  | _ => some root

/-- The general family that a category also belongs to. -/
def family? : Category → Option Family
  | notFound => some .lookup
  | wrongType => some .type
  | _ => none

/-- The categories above one, nearest first. -/
def lineage (c : Category) : List Category :=
  match c.parent? with
  | none => []
  | some p =>
    match p.parent? with
    | none => [p]
    | some q => [p, q]

/-- The text of an error that was given only arguments: nothing, the argument, or all of them. -/
def argumentsText (shown : Ref → String) : List Value → String
  | [] => ""
  | [v] => v.plain shown
  | vs => (Value.tuple vs .own).display shown

/-- The given wording, unless it is empty or absent and the standard one is used. -/
def wording (shown : Ref → String) (given : Option Value) (standard : String) : String :=
  match given with
  | some v => if v.truthy then v.plain shown else standard
  | none => standard

/-- The report of an error with one named detail and an optional wording. -/
def detailed (shown : Ref → String) (c : Category) (d : Detail) (standard : String → String) :
    List Value → Option Report
  | [v] => some ⟨c, standard (v.plain shown), [(d, v)]⟩
  | [v, m] => some ⟨c, wording shown (some m) (standard (v.plain shown)), [(d, v)]⟩
  | _ => none

/-- The report of an error of a category that was given some arguments, if it takes them. -/
def report? (shown : Ref → String) (c : Category) (args : List Value) : Option Report :=
  match c with
  | duplicateField =>
    detailed shown c .fieldName (fun n => "Can't create field: \"" ++ n ++ "\" exists") args
  | unknownField => detailed shown c .fieldName (fun n => "Invalid field \"" ++ n ++ "\"") args
  | nameConflict =>
    detailed shown c .name (fun n => "Can't use table name \"" ++ n ++ "\": table exists") args
  | emptyCollection => detailed shown c .kind (fun k => "No " ++ k) args
  | noFields =>
    match args with
    | [] => some ⟨c, "No fields", [(.kind, .text "fields")]⟩
    | [m] => some ⟨c, wording shown (some m) "No fields", [(.kind, .text "fields")]⟩
    | _ => none
  | childInvalid =>
    match args with
    | [k, m] => some ⟨c, m.plain shown, [(.kind, k)]⟩
    | _ => none
  | unsupportedDatabase =>
    match args with
    | [d] => some ⟨c, d.plain shown ++ " not supported", [(.driver, d)]⟩
    | _ => none
  | _ => some ⟨c, argumentsText shown args, []⟩

end Category

end DbSchema
