import DbSchema.Value.Display

/-!
# Faults

A fault is a failure that no rule of a schema describes: a value of the wrong shape reached an
operation that cannot use it.

## Main definitions

* `Fault` — the faults.
* `FaultKind`, `Fault.kind` — the family that a fault belongs to.
* `Fault.message` — the wording.
-/

namespace DbSchema

/-- The families of faults. -/
inductive FaultKind
  | type
  | value
  | key
  | index
  | operation
  | overflow
  | directory
  | missingFile
  | existingFile
  | notDirectory
  | system
  | depth
deriving DecidableEq, Repr, Inhabited

/-- A failure of an operation on values. -/
inductive Fault
  /-- A parameter is missing, unknown or given twice. -/
  | arguments
  /-- The value cannot be a key. -/
  | unhashable (v : Value)
  /-- The value cannot be turned into an integer at all. -/
  | noInteger (v : Value)
  /-- The text is not an integer. -/
  | badInteger (literal : Value)
  /-- The integer has too many digits to be read. -/
  | longInteger (digits : Nat)
  /-- The integer has too many digits to be written. -/
  | unwritableInteger
  /-- An object with a reference to its owner cannot be written inside a document. -/
  | unwritableReference
  /-- An infinity has no integer part. -/
  | infiniteInteger
  /-- Not a number has no integer part. -/
  | nanInteger
  /-- A text was needed. -/
  | notText (v : Value)
  /-- The value has no items. -/
  | notIterable (v : Value)
  /-- The rows are of a form that cannot be asked for a column. -/
  | notIndexed
  /-- Two values have no order. -/
  | unordered (v w : Value)
  /-- A row has no such column. -/
  | missingKey (key : Value)
  /-- The value has no such operation. -/
  | noOperation (v : Value) (name : String)
  /-- The rows are of a form that has no such operation. -/
  | noRowOperation (name : String)
  /-- Keys that are no texts cannot be listed. -/
  | unlistable
  /-- A position is outside a text. -/
  | position
  /-- A date or number in a document does not exist. -/
  | impossible
  /-- A number of a document is too large to be handled. -/
  | tooLarge
  /-- A word of a document is not among the known ones. -/
  | unknownWord (word : String)
  /-- A date in a document is no date. -/
  | notADate
  /-- A folder stands where a file was expected. -/
  | isFolder
  /-- A folder on the way to a file is missing. -/
  | noSuchFolder
  /-- A file stands where a folder was to be made. -/
  | fileInTheWay
  /-- A file stands where a path goes on. -/
  | notFolder
  /-- The name of a file is too long. -/
  | longName
  /-- Values are nested too deeply, or without end. -/
  | tooDeep
deriving Repr, Inhabited

/-- The name of a value's shape. -/
def Value.shapeName : Value → String
  | .null => "NoneType"
  | .bool _ => "bool"
  | .int _ => "int"
  | .float _ => "float"
  | .text _ => "str"
  | .bytes _ => "bytes"
  | .date .. => "datetime.date"
  | .datetime .. => "datetime.datetime"
  | .indexKind _ => indexFamily
  | .constraintKind _ => constraintFamily
  | .list .. => "list"
  | .tuple .. => "tuple"
  | .set .. => "set"
  | .map .. => "dict"
  | .object (.schema _) => "Schema"
  | .object (.table _) => "Table"
  | .object (.field _) => "Field"
  | .object (.index _) => "Index"
  | .object (.constraint _) => "Constraint"

mutual

/-- The value that keeps another one from being a key: itself, or the first such item of a
tuple. -/
def Value.unhashablePart : Value → Value
  | .tuple items m => (Value.unhashableItem items).getD (.tuple items m)
  | v => v

/-- The first item that cannot be a key. -/
def Value.unhashableItem : List Value → Option Value
  | [] => none
  | v :: r => if v.hashable then Value.unhashableItem r else some (Value.unhashablePart v)

end

namespace Fault

/-- The family of a fault. -/
def kind : Fault → FaultKind
  | arguments | unhashable _ | noInteger _ | notText _ | notIterable _ | notIndexed | unordered ..
  | unlistable | unwritableReference => .type
  | badInteger _ | longInteger _ | unwritableInteger | nanInteger | impossible => .value
  | infiniteInteger | tooLarge => .overflow
  | missingKey _ | unknownWord _ => .key
  | noOperation .. | noRowOperation _ | notADate => .operation
  | position => .index
  | isFolder => .directory
  | noSuchFolder => .missingFile
  | fileInTheWay => .existingFile
  | notFolder => .notDirectory
  | longName => .system
  | tooDeep => .depth

/-- The wording of a fault. -/
def message (shown : Ref → String) : Fault → String
  | arguments => "wrong arguments"
  | unhashable v => "unhashable type: '" ++ v.unhashablePart.shapeName ++ "'"
  | noInteger v =>
    "int() argument must be a string, a bytes-like object or a real number, not '" ++
      v.shapeName ++ "'"
  | badInteger v => "invalid literal for int() with base 10: " ++ v.display shown
  | longInteger n =>
    "Exceeds the limit (" ++ toString Number.maxDigits ++
      " digits) for integer string conversion: value has " ++ toString n ++
      " digits; use sys.set_int_max_str_digits() to increase the limit"
  | unwritableInteger =>
    "Exceeds the limit (" ++ toString Number.maxDigits ++
      " digits) for integer string conversion; use sys.set_int_max_str_digits() to increase " ++
      "the limit"
  | unwritableReference => "cannot write a reference to an owner"
  | infiniteInteger => "cannot convert float infinity to integer"
  | nanInteger => "cannot convert float NaN to integer"
  | notText (.bytes _) => "cannot use a string pattern on a bytes-like object"
  | notText v => "expected string or bytes-like object, got '" ++ v.shapeName ++ "'"
  | notIterable v => "'" ++ v.shapeName ++ "' object is not iterable"
  | notIndexed => "'Row' object is not subscriptable"
  | unordered v w =>
    "'<' not supported between instances of '" ++ v.shapeName ++ "' and '" ++ w.shapeName ++ "'"
  | missingKey v => v.display shown
  | noOperation v name => "'" ++ v.shapeName ++ "' object has no attribute '" ++ name ++ "'"
  | noRowOperation name => "'Row' object has no attribute '" ++ name ++ "'"
  | unlistable => "sequence item 0: expected str instance"
  | position => "string index out of range"
  | impossible => "value is out of range"
  | tooLarge => "value is too large"
  | unknownWord word => Text.quote word
  | notADate => "'NoneType' object has no attribute 'groupdict'"
  | isFolder => "Is a directory"
  | noSuchFolder => "No such file or directory"
  | fileInTheWay => "File exists"
  | notFolder => "Not a directory"
  | longName => "File name too long"
  | tooDeep => "maximum recursion depth exceeded"

end Fault

end DbSchema
