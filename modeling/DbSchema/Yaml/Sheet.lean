import DbSchema.Yaml.Character

/-!
# The sheet a document is written on

What is written next depends on the column reached and on what the line holds so far.  The sheet
keeps both, and writes scalars in the styles of the format; a line that has grown too long is
broken at the next space where the style allows it.

## Main definitions

* `Sheet` — the text so far and the position in it.
* `Analysis`, `analyse` — which styles a text admits.
* `Sheet.plain`, `Sheet.single`, `Sheet.double`, `Sheet.literal` — the styles.
-/

namespace DbSchema.Yaml

/-- The text written so far and the position in it. -/
structure Sheet where
  text : String := ""
  column : Nat := 0
  /-- Whether the last thing written was white space. -/
  spaced : Bool := true
  /-- Whether the line holds nothing but indentation and indicators. -/
  fresh : Bool := true
deriving Repr, Inhabited

namespace Sheet

/-- The column after which a line is broken. -/
def width : Nat := 80

/-- Writes characters without further thought. -/
def put (s : Sheet) (cs : List Char) : Sheet :=
  { s with text := s.text ++ String.ofList cs, column := s.column + cs.length }

/-- Starts a new line with the given line break. -/
def breakWith (s : Sheet) (br : Char) : Sheet := ⟨s.text.push br, 0, true, true⟩

/-- Starts a new line. -/
def newLine (s : Sheet) : Sheet := s.breakWith '\n'

/-- Goes to a column, on a new line unless nothing but indentation precedes it. -/
def indentTo (indent : Nat) (s : Sheet) : Sheet :=
  let s :=
    if !s.fresh || decide (indent < s.column) || (s.column == indent && !s.spaced) then s.newLine
    else s
  if s.column < indent then
    { s.put (List.replicate (indent - s.column) ' ') with spaced := true }
  else s

/-- Goes to a column in the middle of a scalar. -/
def foldTo (indent : Nat) (s : Sheet) : Sheet :=
  { s.indentTo indent with spaced := false, fresh := false }

/-- Writes an indicator with a space before it where needed.  `spacedAfter` tells whether it counts
as white space, `keepsFresh` whether it leaves the line as good as empty. -/
def indicator (s : Sheet) (sign : String) (needsSpace : Bool) (spacedAfter keepsFresh : Bool) :
    Sheet :=
  let s := if s.spaced || !needsSpace then s else s.put [' ']
  { s.put sign.toList with spaced := spacedAfter, fresh := s.fresh && keepsFresh }

end Sheet

/-! ### What a text admits -/

/-- The line breaks that a written scalar may hold. -/
def isScalarBreak (c : Char) : Bool :=
  decide (c = '\n' ∨ c.toNat = 0x85 ∨ c.toNat = 0x2028 ∨ c.toNat = 0x2029)

/-- Whether a character can stand outside of double quotes. -/
def isOrdinary (c : Char) : Bool :=
  let n := c.toNat
  decide (n = 0xA ∨ n = 0x85 ∨ (0x20 ≤ n ∧ n ≤ 0x7E) ∨ (0xA0 ≤ n ∧ n ≤ 0xD7FF) ∨
    (0xE000 ≤ n ∧ n ≤ 0xFFFD ∧ n ≠ 0xFEFF) ∨ (0x10000 ≤ n ∧ n < 0x10FFFF))

/-- Whether some two neighbours satisfy one test each. -/
def hasNeighbours (p q : Char → Bool) (cs : List Char) : Bool :=
  (cs.zip cs.tail).any fun e => p e.1 && q e.2

/-- Whether a list begins with a character that would mean something else than text. -/
def beginsWithIndicator (cs : List Char) : Bool :=
  match cs with
  | [] => false
  | c :: r =>
    "#,[]\x7b\x7d&*!|>'\"%@\x60".toList.contains c ||
      ("?:-".toList.contains c && isSpaceOrEnd r.head?) ||
      cs.take 3 == ['-', '-', '-'] || cs.take 3 == ['.', '.', '.']

/-- Whether a colon ends a word, or a word begins with a number sign, after the first character. -/
def holdsIndicator : List Char → Bool
  | [] => false
  | c :: r =>
    (match r with
      | ':' :: after => isSpaceOrEnd after.head?
      | '#' :: _ => isSpaceOrEnd (some c)
      | _ => false) || holdsIndicator r

/-- Which styles a text admits. -/
structure Analysis where
  multiline : Bool
  plain : Bool
  single : Bool
  block : Bool
deriving Repr, Inhabited

/-- Looks a text over. -/
def analyse (cs : List Char) : Analysis :=
  if cs.isEmpty then ⟨false, true, true, false⟩
  else
    let atEdge (p : Char → Bool) := cs.head?.any p || cs.getLast?.any p
    let isSpace (c : Char) := c == ' '
    let special := !cs.all isOrdinary
    let multiline := cs.any isScalarBreak
    let breakSpace := hasNeighbours isScalarBreak isSpace cs
    let spaceBreak := hasNeighbours isSpace isScalarBreak cs
    { multiline
      plain := !(special || multiline || breakSpace || spaceBreak || atEdge isSpace ||
        atEdge isScalarBreak || beginsWithIndicator cs || holdsIndicator cs)
      single := !(special || breakSpace || spaceBreak)
      block := !(special || spaceBreak || cs.getLast?.any isSpace) }

/-! ### The styles -/

namespace Sheet

/-- Writes the words of a plain scalar.  `held` is what was read and not yet written, in reverse,
and `inSpaces` whether that is a run of spaces. -/
def plainText (indent : Nat) (split : Bool) (inSpaces : Bool) (held : List Char) :
    List Char → Sheet → Sheet
  | [], s => s.put held.reverse
  | c :: r, s =>
    if inSpaces && c != ' ' then
      let s :=
        if held.length = 1 ∧ width < s.column ∧ split then s.foldTo indent
        else s.put held.reverse
      plainText indent split false [c] r s
    else if !inSpaces && c == ' ' then
      plainText indent split true [c] r (s.put held.reverse)
    else plainText indent split inSpaces (c :: held) r s

/-- Writes a plain scalar. -/
def plain (indent : Nat) (split : Bool) (cs : List Char) (s : Sheet) : Sheet :=
  let s := if s.spaced then s else s.put [' ']
  plainText indent split false [] cs { s with spaced := false, fresh := false }

/-- The part of a quoted text that is being read. -/
inductive Run
  | word
  | spaces
  | breaks
deriving DecidableEq, Repr, Inhabited

/-- The run that a character belongs to. -/
def Run.of (c : Char) : Run :=
  if c = ' ' then .spaces else if isScalarBreak c then .breaks else .word

/-- Writes a run of a text in single quotes.  `inner` tells that it is at neither end. -/
def singleRun (indent : Nat) (split inner : Bool) (run : Run) (held : List Char) (s : Sheet) :
    Sheet :=
  match run with
  | .word => s.put held
  | .spaces =>
    if held.length = 1 ∧ width < s.column ∧ split ∧ inner then s.indentTo indent else s.put held
  | .breaks =>
    let s := if held.head? = some '\n' then s.newLine else s
    (held.foldl Sheet.breakWith s).indentTo indent

/-- Writes the text between single quotes.  `held` is the run that was read and not yet written, in
reverse, and `atStart` whether it begins the text. -/
def singleText (indent : Nat) (split : Bool) (atStart : Bool) (run : Run) (held : List Char) :
    List Char → Sheet → Sheet
  | [], s => if held.isEmpty then s else singleRun indent split false run held.reverse s
  | c :: r, s =>
    if c = '\'' then
      let s := if held.isEmpty then s else singleRun indent split (!atStart) run held.reverse s
      singleText indent split false .word [] r (s.put ['\'', '\''])
    else if held.isEmpty ∨ Run.of c = run then
      singleText indent split atStart (Run.of c) (c :: held) r s
    else
      singleText indent split false (Run.of c) [c] r
        (singleRun indent split (!atStart) run held.reverse s)

/-- Writes a scalar between single quotes. -/
def single (indent : Nat) (split : Bool) (cs : List Char) (s : Sheet) : Sheet :=
  (singleText indent split true .word [] cs (s.indicator "'" true false false)).indicator
    "'" false false false

/-- The letter of a short escape. -/
def escapeLetter? (c : Char) : Option Char :=
  match c.toNat with
  | 0 => some '0'
  | 7 => some 'a'
  | 8 => some 'b'
  | 9 => some 't'
  | 0xA => some 'n'
  | 0xB => some 'v'
  | 0xC => some 'f'
  | 0xD => some 'r'
  | 0x1B => some 'e'
  | 0x22 => some '"'
  | 0x5C => some '\\'
  | 0x85 => some 'N'
  | 0x2028 => some 'L'
  | 0x2029 => some 'P'
  | _ => none

/-- A number in upper-case hexadecimal digits, padded with zeros. -/
def hexUpper (places n : Nat) : List Char :=
  let ds := (Nat.toDigits 16 n).map Char.toUpper
  List.replicate (places - ds.length) '0' ++ ds

/-- The escape of a character. -/
def escape (c : Char) : List Char :=
  match escapeLetter? c with
  | some letter => ['\\', letter]
  | none =>
    let n := c.toNat
    if n ≤ 0xFF then '\\' :: 'x' :: hexUpper 2 n
    else if n ≤ 0xFFFF then '\\' :: 'u' :: hexUpper 4 n
    else '\\' :: 'U' :: hexUpper 8 n

/-- Whether a character must be escaped between double quotes. -/
def needsEscape (c : Char) : Bool :=
  let n := c.toNat
  c == '"' || c == '\\' || n == 0x2028 || n == 0x2029 || n == 0xFEFF ||
    !decide ((0x20 ≤ n ∧ n ≤ 0x7E) ∨ (0xA0 ≤ n ∧ n ≤ 0xD7FF) ∨ (0xE000 ≤ n ∧ n ≤ 0xFFFD))

/-- Breaks the line inside double quotes after writing what was held; the next character keeps its
place with a backslash if it is a space. -/
def doubleFold (indent : Nat) (held : List Char) (next : Option Char) (s : Sheet) : Sheet :=
  let s := (s.put (held.reverse ++ ['\\'])).foldTo indent
  if next = some ' ' then s.put ['\\'] else s

/-- Writes the text between double quotes.  `held` is what was read and not yet written, in
reverse. -/
def doubleText (indent : Nat) (split : Bool) (atStart : Bool) (held : List Char) :
    List Char → Sheet → Sheet
  | [], s => s.put held.reverse
  | c :: r, s =>
    let inner := split && !atStart && !r.isEmpty
    if needsEscape c then
      let s := (s.put held.reverse).put (escape c)
      let s := if inner && decide (width + 1 < s.column) then s.doubleFold indent [] r.head? else s
      doubleText indent split false [] r s
    else if inner && (c == ' ' || held.isEmpty) && decide (width < s.column + held.length) then
      doubleText indent split false [c] r (s.doubleFold indent held (some c))
    else doubleText indent split false (c :: held) r s

/-- Writes a scalar between double quotes. -/
def double (indent : Nat) (split : Bool) (cs : List Char) (s : Sheet) : Sheet :=
  (doubleText indent split true [] cs (s.indicator "\"" true false false)).indicator
    "\"" false false false

/-- Writes the lines of a literal scalar; `atBreak` tells that a line break came before. -/
def literalText (indent : Nat) (atBreak : Bool) : List Char → Sheet → Sheet
  | [], s => s
  | c :: r, s =>
    if isScalarBreak c then literalText indent true r (s.breakWith c)
    else
      let s := if atBreak then s.indentTo indent else s
      literalText indent false r { s with text := s.text.push c }

/-- Writes a literal scalar whose lines all end with a line break. -/
def literal (indent : Nat) (cs : List Char) (s : Sheet) : Sheet :=
  literalText indent true cs (s.indicator "|" true false false).newLine

end Sheet

end DbSchema.Yaml
