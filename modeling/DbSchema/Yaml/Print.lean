import DbSchema.Yaml.Form
import DbSchema.Yaml.Sheet

/-!
# Values as text

A value is written in blocks, with two spaces of indentation and the keys in their order.  What
occurs in several places is written where it occurs first, under an anchor, and referred to by an
alias everywhere else.

## Main definitions

* `printForm` — a form at its place, with the anchors of what is shared.
* `printDocument` — the text of a value.
-/

namespace DbSchema.Yaml

/-! ### Anchors -/

/-- The name of the anchor with a number. -/
def anchorName (n : Nat) : String :=
  let ds := Nat.toDigits 10 n
  "id" ++ String.ofList (List.replicate (3 - ds.length) '0' ++ ds)

/-! ### Scalars -/

/-- Writes a scalar in the first style that it admits; inside a simple key a line is never
broken. -/
def Sheet.scalar (indent : Nat) (isKey : Bool) (tag : Tag) (text : String) (s : Sheet) : Sheet :=
  let cs := text.toList
  let a := analyse cs
  let oneLine := !(isKey && (a.multiline || cs.isEmpty))
  let tagged (s : Sheet) := if tag = .str then s else s.indicator tag.written true false false
  if tag = .binary then
    if !isKey && a.block && !cs.isEmpty then (tagged s).literal indent cs
    else (tagged s).double indent (!isKey) cs
  else if plainTag text = tag && a.plain && oneLine then s.plain indent (!isKey) cs
  else if a.single && !(isKey && a.multiline) then (tagged s).single indent (!isKey) cs
  else (tagged s).double indent (!isKey) cs

/-! ### Collections -/

/-- Where a node stands. -/
structure Place where
  /-- The indentation of the block that holds the node. -/
  indent : Option Nat
  inMapping : Bool
  isKey : Bool
deriving Repr, Inhabited

/-- The indentation one level deeper. -/
def deeper (indent : Option Nat) : Nat :=
  match indent with
  | none => 0
  | some n => n + 2

/-- The number of an anchor, counted from one. -/
def anchorNumber (anchors : List Identity) (i : Identity) : Nat := anchors.idxOf i + 1

/-- The anchor of a form that is shared. -/
def anchorOf? (anchors : List Identity) (x : Form) : Option String :=
  (x.identity?.filter anchors.contains).map fun i => anchorName (anchorNumber anchors i)

/-- Whether a form can be a key on the line of its colon: short, not empty, and on one line. -/
def isSimpleKey (anchors : List Identity) (x : Form) : Bool :=
  match x with
  | .alias _ => true
  | .scalar tag text _ =>
    let anchor := (anchorOf? anchors x).elim 0 String.length
    decide (anchor + tag.written.length + text.length < 128) && text != "" &&
      !text.toList.any isScalarBreak
  | .sequence _ [] _ => true
  | _ => false

namespace Sheet

/-- A sequence without items. -/
def emptySequence (s : Sheet) : Sheet :=
  (s.indicator "[" true true false).indicator "]" false false false

/-- A mapping without entries. -/
def emptyMapping (s : Sheet) : Sheet :=
  (s.indicator "\x7b" true true false).indicator "\x7d" false false false

/-- A sign that stands for itself, such as an alias. -/
def sign (s : Sheet) (text : String) : Sheet := s.indicator text true false false

/-- What stands in front of a node: its anchor and its tag, if it has them. -/
def properties (s : Sheet) (anchor tag : Option String) : Sheet :=
  let s := anchor.elim s fun a => s.sign ("&" ++ a)
  tag.elim s s.sign

end Sheet

/-- The indentation of the items of a sequence: inside a mapping it is that of the mapping. -/
def itemIndent (place : Place) (s : Sheet) : Nat :=
  match place.indent with
  | some n => if place.inMapping && !s.fresh then n else n + 2
  | none => 0

/-- Writes a key with its colon, on a line of its own unless it is simple; `write` writes the key at
its place. -/
def printKey (indent : Nat) (simple : Bool) (write : Place → Sheet → Sheet) (s : Sheet) : Sheet :=
  let s := s.indentTo indent
  if simple then
    (write ⟨some indent, true, true⟩ s).indicator ":" false false false
  else
    let s := write ⟨some indent, true, false⟩ (s.indicator "?" true false true)
    (s.indentTo indent).indicator ":" true false true

mutual

/-- Writes a form at its place. -/
def printForm (anchors : List Identity) (place : Place) (x : Form) (s : Sheet) : Sheet :=
  let anchor := anchorOf? anchors x
  match x with
  | .alias i => s.sign ("*" ++ anchorName (anchorNumber anchors i))
  | .scalar tag text _ =>
    (s.properties anchor none).scalar ((place.indent.map (· + 2)).getD 2) place.isKey tag text
  | .sequence tag items _ =>
    let s := s.properties anchor tag
    if items.isEmpty then s.emptySequence else printItems anchors (itemIndent place s) items s
  | .mapping tag entries _ =>
    let s := s.properties anchor tag
    if entries.isEmpty then s.emptyMapping
    else printEntries anchors (deeper place.indent) entries s

/-- Writes the items of a block sequence. -/
def printItems (anchors : List Identity) (indent : Nat) : List Form → Sheet → Sheet
  | [], s => s
  | x :: r, s =>
    let s := (s.indentTo indent).indicator "-" true false true
    printItems anchors indent r (printForm anchors ⟨some indent, false, false⟩ x s)

/-- Writes the entries of a block mapping. -/
def printEntries (anchors : List Identity) (indent : Nat) : List (Form × Form) → Sheet → Sheet
  | [], s => s
  | (k, x) :: r, s =>
    let s := printKey indent (isSimpleKey anchors k) (fun place => printForm anchors place k) s
    printEntries anchors indent r (printForm anchors ⟨some indent, true, false⟩ x s)

end

/-- The text of a document. -/
def Form.text (x : Form) : String :=
  ((printForm x.shared ⟨none, false, false⟩ x {}).indentTo 0).text

/-- The text of a document that holds a value; `describe` says what the objects in it are, of which
there are at most `objects`. -/
def printDocument (describe : Ref → Except Fault Description) (objects : Nat) (v : Value) :
    Except Fault String :=
  (Form.ofValue describe objects v).map Form.text

end DbSchema.Yaml
