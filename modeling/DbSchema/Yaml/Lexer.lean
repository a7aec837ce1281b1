import DbSchema.Yaml.Token

/-!
# The tokens of a stream in order

The lexer walks through the stream once.  Whether a scalar or a bracket begins a mapping is known
only when its colon is met, so every place where a simple key may begin is remembered with the
number of its token, and the tokens that open the mapping are put in front of it later.  A token is
settled when no token can be put in front of it any more; when the walk stops early, the settled
tokens are all that the stream has.

## Main definitions

* `Lexer` — the state of the walk, `Lexer.advance` one step of it.
* `TokenRun` — the tokens of a stream, and what stops it.
* `TokenRun.scan` — the tokens of a text.
-/

namespace DbSchema.Yaml

/-- A place where a simple key may begin. -/
structure SimpleKey where
  /-- The number of the token that begins there. -/
  token : Nat
  /-- Whether the block structure needs a key there. -/
  required : Bool
  index : Nat
  line : Nat
  column : Nat
deriving Repr, Inhabited

/-- The state of the lexer. -/
structure Lexer where
  cursor : Cursor
  /-- The tokens so far, the latest first. -/
  tokens : List Token := []
  /-- The number of tokens so far. -/
  count : Nat := 0
  /-- The number of open brackets. -/
  flowLevel : Nat := 0
  indent : Int := -1
  indents : List Int := []
  /-- Whether a simple key may begin here. -/
  allowsKey : Bool := true
  /-- The possible simple key of each level of brackets. -/
  keys : List (Nat × SimpleKey) := []
deriving Repr, Inhabited

namespace Lexer

/-- The lexer after a token. -/
def emit (l : Lexer) (t : Token) : Lexer :=
  { l with tokens := t :: l.tokens, count := l.count + 1 }

/-- The lexer after putting a token in front of the one with the given number. -/
def insert (l : Lexer) (place : Nat) (t : Token) : Lexer :=
  { l with tokens := l.tokens.insertIdx (l.count - place) t, count := l.count + 1 }

/-- The lexer after the blanks, comments and line breaks in front. -/
def toNextToken : Nat → Lexer → Lexer
  | 0, l => l
  | fuel + 1, l =>
    let c := l.cursor.dropSpaces
    let c := if c.peek = some '#' then c.dropLine else c
    match c.lineBreak with
    | ([], c) => { l with cursor := c }
    | (_, c) =>
      toNextToken fuel { l with cursor := c, allowsKey := l.allowsKey || l.flowLevel == 0 }

/-- Whether a possible simple key can no longer be one. -/
def isStale (l : Lexer) (k : SimpleKey) : Bool :=
  k.line != l.cursor.line || decide (1024 < l.cursor.index - k.index)

/-- Forgets the keys that can no longer be keys; one that was required is an error. -/
def dropStale (l : Lexer) : Except Failure Lexer :=
  if l.keys.any fun (_, k) => l.isStale k && k.required then malformed
  else .ok { l with keys := l.keys.filter fun (_, k) => !l.isStale k }

/-- Forgets the possible key of the present level; one that was required is an error. -/
def dropKey (l : Lexer) : Except Failure Lexer :=
  if l.keys.any fun (level, k) => level == l.flowLevel && k.required then malformed
  else .ok { l with keys := l.keys.filter fun (level, _) => level != l.flowLevel }

/-- Remembers that a simple key may begin here. -/
def saveKey (l : Lexer) : Except Failure Lexer :=
  if l.allowsKey then do
    let required := l.flowLevel == 0 && l.indent == (l.cursor.column : Int)
    let l ← l.dropKey
    let k : SimpleKey := ⟨l.count, required, l.cursor.index, l.cursor.line, l.cursor.column⟩
    return { l with keys := (l.flowLevel, k) :: l.keys }
  else .ok l

/-- Closes the blocks that are indented deeper than a column. -/
def closeBlocks (column : Int) : List Int → Lexer → Lexer
  | [], l => l
  | outer :: rest, l =>
    if column < l.indent then
      closeBlocks column rest { l.emit .blockEnd with indent := outer, indents := rest }
    else l

/-- Closes the blocks that are indented deeper than a column, outside of brackets. -/
def unwind (column : Int) (l : Lexer) : Lexer :=
  if l.flowLevel = 0 then closeBlocks column l.indents l else l

/-- Opens a block at a column when that is deeper than the present one; `token` goes to the given
place among the tokens. -/
def openBlock (column : Nat) (token : Token) (place : Nat) (l : Lexer) : Lexer :=
  if l.indent < (column : Int) then
    { l.insert place token with indents := l.indent :: l.indents, indent := column }
  else l

/-- The lexer after a marker or a directive has closed everything before it. -/
def closeAll (l : Lexer) : Except Failure Lexer := do
  let l ← (l.unwind (-1)).dropKey
  return { l with allowsKey := false }

/-- The lexer after a token of one character. -/
def indicator (l : Lexer) (t : Token) : Lexer := { l.emit t with cursor := l.cursor.step }

/-- The lexer after an opening bracket. -/
def openBracket (l : Lexer) (t : Token) : Except Failure Lexer := do
  let l ← l.saveKey
  return { l.indicator t with flowLevel := l.flowLevel + 1, allowsKey := true }

/-- The lexer after a closing bracket; one without an opening bracket is an error. -/
def closeBracket (l : Lexer) (t : Token) : Except Failure Lexer := do
  let l ← l.dropKey
  match l.flowLevel with
  | 0 => malformed
  | n + 1 => return { l.indicator t with flowLevel := n, allowsKey := false }

/-- Opens a block where an entry or a key stands outside of brackets, if one may stand there. -/
def beginBlock (l : Lexer) (t : Token) : Except Failure Lexer :=
  if l.flowLevel = 0 then
    if l.allowsKey then .ok (l.openBlock l.cursor.column t l.count) else malformed
  else .ok l

/-- The lexer after the dash of an entry. -/
def blockEntry (l : Lexer) : Except Failure Lexer := do
  let l ← l.beginBlock .blockSequenceStart
  let l ← { l with allowsKey := true }.dropKey
  return l.indicator .blockEntry

/-- The lexer after the question mark of a key. -/
def explicitKey (l : Lexer) : Except Failure Lexer := do
  let l ← l.beginBlock .blockMappingStart
  let l ← { l with allowsKey := l.flowLevel == 0 }.dropKey
  return l.indicator .key

/-- The lexer after the colon of a value.  A possible simple key becomes one. -/
def valueIndicator (l : Lexer) : Except Failure Lexer :=
  match l.keys.find? fun (level, _) => level == l.flowLevel with
  | some (_, k) =>
    let l := { l.insert k.token .key with
      keys := l.keys.filter fun (level, _) => level != l.flowLevel
      allowsKey := false }
    let l := if l.flowLevel = 0 then l.openBlock k.column .blockMappingStart k.token else l
    .ok (l.indicator .value)
  | none => do
    let l ← l.beginBlock .blockMappingStart
    let l ← { l with allowsKey := l.flowLevel == 0 }.dropKey
    return l.indicator .value

/-- The lexer after a token that may be a simple key. -/
def scanned (l : Lexer) (scan : Cursor → Except Failure (Token × Cursor)) :
    Except Failure Lexer := do
  let l ← l.saveKey
  let (token, c) ← scan l.cursor
  return { l.emit token with cursor := c, allowsKey := false }

/-- The lexer after a plain scalar. -/
def plainScalar (l : Lexer) : Except Failure Lexer := do
  let l ← l.saveKey
  let fuel := l.cursor.left + 1
  let (text, broken, c) := scanPlainText (l.flowLevel != 0) (l.indent + 1) fuel [] false l.cursor
  return { l.emit (.scalar (String.ofList text) true) with cursor := c, allowsKey := broken }

/-- The lexer after a block scalar. -/
def blockScalar (l : Lexer) (folded : Bool) : Except Failure Lexer := do
  let l ← { l with allowsKey := true }.dropKey
  let (token, c) ← scanBlockScalar folded l.indent l.cursor
  return { l.emit token with cursor := c }

/-- Whether a plain scalar may begin with this character. -/
def beginsPlain (l : Lexer) (c : Char) : Bool :=
  !(isSpaceOrEnd (some c) || "-?:,[]\x7b\x7d#&*!|>'\"%@\x60".toList.contains c) ||
    (!isSpaceOrEnd (l.cursor.peekAt 1) &&
      (c == '-' || (l.flowLevel == 0 && (c == '?' || c == ':'))))

/-- The lexer after the next token, whose first character is given. -/
def next (l : Lexer) (c : Char) : Except Failure Lexer :=
  let cur := l.cursor
  let spaced := isSpaceOrEnd (cur.peekAt 1)
  let inFlow := l.flowLevel != 0
  if c = '%' ∧ cur.column = 0 then do
    let l ← l.closeAll
    let (token, c) ← scanDirective l.cursor
    return { l.emit token with cursor := c }
  else if cur.column = 0 ∧ cur.atMarker '-' then do
    let l ← l.closeAll
    return { l.emit .documentStart with cursor := l.cursor.skip 3 }
  else if cur.column = 0 ∧ cur.atMarker '.' then do
    let l ← l.closeAll
    return { l.emit .documentEnd with cursor := l.cursor.skip 3 }
  else if c = '[' then l.openBracket .flowSequenceStart
  else if c = '\x7b' then l.openBracket .flowMappingStart
  else if c = ']' then l.closeBracket .flowSequenceEnd
  else if c = '\x7d' then l.closeBracket .flowMappingEnd
  else if c = ',' then do
    let l ← { l with allowsKey := true }.dropKey
    return l.indicator .flowEntry
  else if c = '-' ∧ spaced then l.blockEntry
  else if c = '?' ∧ (inFlow ∨ spaced) then l.explicitKey
  else if c = ':' ∧ (inFlow ∨ spaced) then l.valueIndicator
  else if c = '*' then l.scanned fun c => (scanAnchor c).map fun (n, c) => (.alias n, c)
  else if c = '&' then l.scanned fun c => (scanAnchor c).map fun (n, c) => (.anchor n, c)
  else if c = '!' then l.scanned scanTag
  else if c = '|' ∧ !inFlow then l.blockScalar false
  else if c = '>' ∧ !inFlow then l.blockScalar true
  else if c = '\'' then l.scanned (scanQuoted false)
  else if c = '"' then l.scanned (scanQuoted true)
  else if l.beginsPlain c then l.plainScalar
  else malformed

/-- The number of tokens that no other token can be put in front of any more. -/
def settled (l : Lexer) : Nat := l.keys.foldl (fun n k => min n k.2.token) l.count

/-- One step: passes over blanks and reads what follows.  The flag tells whether the stream goes
on; a key that is required where the step ends and can no longer be one is an error too. -/
def advance (l : Lexer) : Except Failure (Lexer × Bool) := do
  let l ← (l.toNextToken (l.cursor.left + 1)).dropStale
  let l := l.unwind l.cursor.column
  match l.cursor.peek with
  | none => return (← (l.unwind (-1)).dropKey, false)
  | some c => return (← (← l.next c).dropStale, true)

end Lexer

/-- The tokens of a stream in order, and what stops it before its end, if anything does. -/
structure TokenRun where
  tokens : List Token
  stop : Option Failure := none
deriving Repr, Inhabited

namespace TokenRun

/-- The run of tokens that steps of a lexer give. -/
def ofLexer : Nat → Lexer → TokenRun
  | 0, l => ⟨l.tokens.reverse, some .malformed⟩
  | fuel + 1, l =>
    match l.advance with
    | .error f => ⟨l.tokens.reverse.take l.settled, some f⟩
    | .ok (l, false) => ⟨l.tokens.reverse, none⟩
    | .ok (l, true) => ofLexer fuel l

/-- The tokens of a text whose characters may all stand in a stream. -/
def scanClean (text : List Char) : TokenRun :=
  let start : Cursor := { rest := text }
  let start := if text.head?.any (·.toNat == 0xFEFF) then start.step else start
  ofLexer (text.length + 2) { cursor := start }

/-- The place from which a character is looked at together with the given one: a stream is fetched
in portions, the first of them twice as long as the others. -/
def portionStart (place : Nat) : Nat :=
  if place < 8192 then 0 else place - place % 4096

/-- The tokens of a text.  A character that may not stand in a stream stops it at the start of its
portion. -/
def scan (text : List Char) : TokenRun :=
  match text.findIdx? fun c => !isStreamChar c with
  | none => scanClean text
  | some place =>
    match portionStart place with
    | 0 => ⟨[], some .malformed⟩
    | n =>
      let run := scanClean (text.take n ++ [Char.ofNat 0])
      { run with stop := some (run.stop.getD .malformed) }

end TokenRun

end DbSchema.Yaml
