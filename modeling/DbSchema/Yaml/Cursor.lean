import DbSchema.Yaml.Character

/-!
# A place in a stream

## Main definitions

* `Cursor` — the rest of the stream with the position in it.
* `Cursor.step`, `Cursor.skip` — the places further on.
* `Cursor.lineBreak` — the line break in front.
-/

namespace DbSchema.Yaml

/-- The rest of the stream, and how many characters and lines lie before it. -/
structure Cursor where
  rest : List Char
  index : Nat := 0
  line : Nat := 0
  column : Nat := 0
  /-- The number of characters of the rest. -/
  left : Nat := rest.length
  left_eq : left = rest.length := by rfl
deriving Repr

namespace Cursor

instance : Inhabited Cursor := ⟨{ rest := [] }⟩

/-- The next character. -/
def peek (c : Cursor) : Option Char := c.rest.head?

/-- The character after `n` others. -/
def peekAt (c : Cursor) (n : Nat) : Option Char := c.rest[n]?

/-- The cursor after one character. -/
def step (c : Cursor) : Cursor :=
  match h : c.rest with
  | [] => c
  | ch :: r =>
    have left : c.left - 1 = r.length := by rw [c.left_eq, h]; rfl
    if isBreak ch then ⟨r, c.index + 1, c.line + 1, 0, c.left - 1, left⟩
    else if ch.toNat = 0xFEFF then ⟨r, c.index + 1, c.line, c.column, c.left - 1, left⟩
    else ⟨r, c.index + 1, c.line, c.column + 1, c.left - 1, left⟩

/-- The cursor after `n` characters. -/
def skip : Nat → Cursor → Cursor
  | 0, c => c
  | n + 1, c => skip n c.step

/-- The characters in front that satisfy a test, and the cursor after them. -/
def takeWhile (test : Char → Bool) (c : Cursor) : List Char × Cursor :=
  let taken := c.rest.takeWhile test
  (taken, c.skip taken.length)

/-- The cursor after the characters in front that satisfy a test. -/
def dropWhile (test : Char → Bool) (c : Cursor) : Cursor := (c.takeWhile test).2

/-- The cursor after the spaces in front. -/
def dropSpaces (c : Cursor) : Cursor := c.dropWhile (· == ' ')

/-- The cursor at the end of the line. -/
def dropLine (c : Cursor) : Cursor := c.dropWhile fun ch => !isBreak ch

/-- The line break in front, if any, as it is kept in a scalar, and the cursor after it. -/
def lineBreak (c : Cursor) : List Char × Cursor :=
  match c.rest with
  | '\r' :: '\n' :: _ => (['\n'], c.skip 2)
  | ch :: _ =>
    if ch.toNat = 0x2028 ∨ ch.toNat = 0x2029 then ([ch], c.step)
    else if isBreak ch then (['\n'], c.step)
    else ([], c)
  | [] => ([], c)

/-- Whether a marker of a document stands in front: three equal characters and white space. -/
def atMarker (c : Cursor) (mark : Char) : Bool :=
  match c.rest with
  | a :: b :: d :: r => a == mark && b == mark && d == mark && isSpaceOrEnd r.head?
  | _ => false

/-- Whether a marker that separates documents stands in front. -/
def atSeparator (c : Cursor) : Bool := c.atMarker '-' || c.atMarker '.'

end Cursor

end DbSchema.Yaml
