/-!
# Tags

A tag says what a node stands for.  A plain scalar without a tag gets the one its text looks like.

## Main definitions

* `Tag` — the tags that have a meaning here; `Tag.ofUri` reads a written one.
* `plainTag` — the tag of a scalar by its text.
-/

namespace DbSchema.Yaml

/-- The tags. -/
inductive Tag
  | null
  | bool
  | int
  | float
  | binary
  | timestamp
  | str
  | seq
  | map
  | set
  | omap
  | pairs
  | merge
  | value
  | unknown
deriving DecidableEq, Repr, Inhabited

namespace Tag

/-- The part that all standard tags begin with. -/
def standard : String := "tag:yaml.org,2002:"

/-- The last part of a standard tag. -/
def name : Tag → String
  | null => "null"
  | bool => "bool"
  | int => "int"
  | float => "float"
  | binary => "binary"
  | timestamp => "timestamp"
  | str => "str"
  | seq => "seq"
  | map => "map"
  | set => "set"
  | omap => "omap"
  | pairs => "pairs"
  | merge => "merge"
  | value => "value"
  | unknown => ""

/-- The tags that have a name. -/
def named : List Tag :=
  [null, bool, int, float, binary, timestamp, str, seq, map, set, omap, pairs, merge, value]

/-- The tag that is written in full. -/
def ofUri (uri : String) : Tag :=
  (named.find? fun t => standard ++ t.name == uri).getD unknown

end Tag

/-- A word in lower case, with a capital, and in upper case. -/
def spellings (word : String) : List String := [word, word.capitalize, word.toUpper]

/-- The words for the truth values. -/
def trueWords : List String := ["yes", "true", "on"]

/-- The words for the truth values. -/
def falseWords : List String := ["no", "false", "off"]

/-- Whether a text is a spelling of a truth value. -/
def looksBool (s : String) : Bool :=
  (trueWords ++ falseWords).any fun w => (spellings w).contains s

/-- Whether a text is a spelling of null. -/
def looksNull (s : String) : Bool := s == "" || s == "~" || (spellings "null").contains s

/-- A digit or an underscore. -/
def isDigitOrLine (c : Char) : Bool := c.isDigit || c == '_'

/-- The characters after a sign, if there is one. -/
def dropSign : List Char → List Char
  | '+' :: r | '-' :: r => r
  | cs => cs

/-- The characters after one or more groups of a colon and a number below sixty. -/
def sixties? : List Char → Option (List Char)
  | ':' :: a :: ':' :: r => if a.isDigit then sixties? (':' :: r) else none
  | ':' :: a :: b :: ':' :: r =>
    if !a.isDigit then none
    else if b.isDigit ∧ a ≤ '5' then sixties? (':' :: r)
    else some (b :: ':' :: r)
  | ':' :: a :: b :: r =>
    if !a.isDigit then none else if b.isDigit ∧ a ≤ '5' then some r else some (b :: r)
  | [':', a] => if a.isDigit then some [] else none
  | _ => none

/-- Whether a text is a base-sixty integer with the sign taken off. -/
def looksSixtyInt (cs : List Char) : Bool :=
  match cs with
  | d :: r =>
    d.isDigit && d != '0' &&
      (match sixties? (r.dropWhile isDigitOrLine) with
        | some rest => rest.isEmpty
        | none => false)
  | [] => false

/-- Whether a text is an integer. -/
def looksInt (s : String) : Bool :=
  match dropSign s.toList with
  | ['0'] => true
  | '0' :: 'b' :: r => !r.isEmpty && r.all fun c => c == '0' || c == '1' || c == '_'
  | '0' :: 'x' :: r =>
    !r.isEmpty &&
      r.all fun c => c.isDigit || ('a' ≤ c && c ≤ 'f') || ('A' ≤ c && c ≤ 'F') || c == '_'
  | '0' :: r => r.all fun c => ('0' ≤ c && c ≤ '7') || c == '_'
  | d :: r => d.isDigit && (r.all isDigitOrLine || looksSixtyInt (d :: r))
  | [] => false

/-- Whether the characters are an exponent with a sign, or nothing. -/
def looksExponent : List Char → Bool
  | [] => true
  | e :: sign :: r =>
    (e == 'e' || e == 'E') && (sign == '+' || sign == '-') && !r.isEmpty && r.all Char.isDigit
  | _ => false

/-- Whether the characters are a point with digits and an exponent after it. -/
def looksFraction : List Char → Bool
  | '.' :: r => looksExponent (r.dropWhile isDigitOrLine)
  | _ => false

/-- Whether the characters are base-sixty places with a point and digits after them. -/
def looksSixtyFraction (cs : List Char) : Bool :=
  match sixties? cs with
  | some ('.' :: r) => r.all isDigitOrLine
  | _ => false

/-- Whether a text is a floating-point number. -/
def looksFloat (s : String) : Bool :=
  let unsigned := dropSign s.toList
  [".inf", ".Inf", ".INF"].contains (String.ofList unsigned) ||
    [".nan", ".NaN", ".NAN"].contains s ||
    (match s.toList with
      | '.' :: d :: r => d.isDigit && looksExponent (r.dropWhile isDigitOrLine)
      | _ => false) ||
    (match unsigned with
      | d :: r =>
        d.isDigit && (looksFraction (r.dropWhile isDigitOrLine) ||
          looksSixtyFraction (r.dropWhile isDigitOrLine))
      | [] => false)

/-- The digits in front, at least `least` and at most `most` of them, and the rest. -/
def digitsBetween? (least most : Nat) (cs : List Char) : Option (List Char × List Char) :=
  let ds := (cs.take most).takeWhile Char.isDigit
  if ds.length < least then none else some (ds, cs.drop ds.length)

/-- The rest after one character. -/
def dropChar? (c : Char) : List Char → Option (List Char)
  | d :: r => if d = c then some r else none
  | [] => none

/-- The number that digits denote. -/
def digitsValue (ds : List Char) : Nat := ds.foldl (fun n d => n * 10 + (d.toNat - 48)) 0

/-- The written parts of a timestamp. -/
structure Stamp where
  year : Nat
  month : Nat
  day : Nat
  /-- Whether month and day have two digits each. -/
  padded : Bool
  /-- Hour, minute and second, the digits of the fraction, and the zone. -/
  time : Option (Nat × Nat × Nat × List Char × Option Int)
deriving Repr, Inhabited

/-- The zone of a timestamp in minutes: the letter of universal time, or sign, hours and
minutes. -/
def zone? : List Char → Option Int
  | ['Z'] => some 0
  | sign :: r =>
    if sign = '+' ∨ sign = '-' then do
      let (hours, r) ← digitsBetween? 1 2 r
      let minutes ←
        match r with
        | [] => some 0
        | ':' :: r => do
          let (ds, r) ← digitsBetween? 2 2 r
          if r.isEmpty then some (digitsValue ds) else none
        | _ => none
      let total : Nat := digitsValue hours * 60 + minutes
      return if sign = '-' then -(total : Int) else (total : Int)
    else none
  | [] => none

/-- The time of a timestamp: hour, minute, second, fraction and zone. -/
def stampTime? (cs : List Char) : Option (Nat × Nat × Nat × List Char × Option Int) := do
  let (h, cs) ← digitsBetween? 1 2 cs
  let (m, cs) ← digitsBetween? 2 2 (← dropChar? ':' cs)
  let (s, cs) ← digitsBetween? 2 2 (← dropChar? ':' cs)
  let (fraction, cs) :=
    match cs with
    | '.' :: r => (r.takeWhile Char.isDigit, r.dropWhile Char.isDigit)
    | r => ([], r)
  let time (zone : Option Int) := (digitsValue h, digitsValue m, digitsValue s, fraction, zone)
  if cs.isEmpty then return time none
  let zone ← zone? (cs.dropWhile fun c => c == ' ' || c == '\t')
  return time (some zone)

/-- The parts of a timestamp. -/
def stamp? (s : String) : Option Stamp := do
  let (year, cs) ← digitsBetween? 4 4 s.toList
  let (month, cs) ← digitsBetween? 1 2 (← dropChar? '-' cs)
  let (day, cs) ← digitsBetween? 1 2 (← dropChar? '-' cs)
  let date (time : Option (Nat × Nat × Nat × List Char × Option Int)) : Stamp :=
    ⟨digitsValue year, digitsValue month, digitsValue day,
      month.length == 2 && day.length == 2, time⟩
  match cs with
  | [] => return date none
  | c :: r =>
    if c = 'T' ∨ c = 't' then return date (some (← stampTime? r))
    else if c = ' ' ∨ c = '\t' then
      return date (some (← stampTime? (r.dropWhile fun c => c == ' ' || c == '\t')))
    else none

/-- Whether a text is a date with two digits for month and day, or a date with a time. -/
def looksTimestamp (s : String) : Bool :=
  match stamp? s with
  | some stamp => stamp.padded || stamp.time.isSome
  | none => false

/-- A text without the line break at its end, if it has one. -/
def dropFinalBreak (s : String) : String :=
  if s.toList.getLast? = some '\n' then String.ofList s.toList.dropLast else s

/-- The signs of tags, anchors and aliases, which stand for nothing alone. -/
def signWords : List String := ["!", "&", "*"]

/-- The tag that a text on one line looks like. -/
def lineTag (s : String) : Tag :=
  if looksBool s then .bool
  else if looksFloat s then .float
  else if looksInt s then .int
  else if s = "<<" then .merge
  else if looksNull s then .null
  else if looksTimestamp s then .timestamp
  else if s = "=" then .value
  else if signWords.contains s then .unknown
  else .str

/-- The tag of a scalar by its text; a line break at the end makes no difference unless it is all
there is. -/
def plainTag (s : String) : Tag := if s = "\n" then .str else lineTag (dropFinalBreak s)

end DbSchema.Yaml
