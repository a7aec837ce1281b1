/-!
# Characters of a YAML stream

The classes of characters that the lexer and the printer share.

## Main definitions

* `isStreamChar` — the characters a stream may hold.
* `isBreak`, `isSpaceOrEnd` — line breaks, and what may follow an indicator.
-/

namespace DbSchema.Yaml

/-- The characters that a stream may hold. -/
def isStreamChar (c : Char) : Bool :=
  let n := c.toNat
  decide (n = 0x9 ∨ n = 0xA ∨ n = 0xD ∨ (0x20 ≤ n ∧ n ≤ 0x7E) ∨ n = 0x85 ∨
    (0xA0 ≤ n ∧ n ≤ 0xD7FF) ∨ (0xE000 ≤ n ∧ n ≤ 0xFFFD) ∨ 0x10000 ≤ n)

/-- The characters that end a line. -/
def isBreak (c : Char) : Bool :=
  decide (c = '\n' ∨ c = '\r' ∨ c.toNat = 0x85 ∨ c.toNat = 0x2028 ∨ c.toNat = 0x2029)

/-- Whether there is no character, or one that ends a line. -/
def isBreakOrEnd : Option Char → Bool
  | none => true
  | some c => isBreak c

/-- Whether there is no character, or a space, or one that ends a line. -/
def isSpaceBreakOrEnd : Option Char → Bool
  | none => true
  | some c => c == ' ' || isBreak c

/-- Whether there is no character, or white space. -/
def isSpaceOrEnd : Option Char → Bool
  | none => true
  | some c => c == ' ' || c == '\t' || isBreak c

/-- The characters of the names of anchors, tag handles and directives. -/
def isNameChar (c : Char) : Bool :=
  c.isAlphanum || c == '-' || c == '_'

/-- The characters of a tag that need no escape. -/
def isTagChar (c : Char) : Bool :=
  c.isAlphanum || "-;/?:@&=+$,_.!~*'()[]%".toList.contains c

end DbSchema.Yaml
