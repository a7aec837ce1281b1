import DbSchema.Text.Blank
import DbSchema.Yaml.Cursor
import DbSchema.Yaml.Failure

/-!
# Tokens of a YAML stream

The tokens, and how the single ones that are more than a sign are read: directives, anchors, tags
and scalars.

## Main definitions

* `Token` — the tokens.
* `scanDirective`, `scanAnchor`, `scanTag` — what carries a name.
* `scanBlockScalar`, `scanQuoted`, `scanPlainText` — scalars by style.
-/

namespace DbSchema.Yaml

open Text

/-- The tokens of a stream. -/
inductive Token
  | versionDirective (major : Nat)
  | tagDirective (handle pre : String)
  | otherDirective
  | documentStart
  | documentEnd
  | blockSequenceStart
  | blockMappingStart
  | blockEnd
  | flowSequenceStart
  | flowSequenceEnd
  | flowMappingStart
  | flowMappingEnd
  | blockEntry
  | flowEntry
  | key
  | value
  | alias (name : String)
  | anchor (name : String)
  | tag (handle : Option String) (suffix : String)
  | scalar (text : String) (isPlain : Bool)
deriving DecidableEq, Repr, Inhabited

/-! ### Directives, anchors and tags -/

/-- One or more characters of a name. -/
def scanName (c : Cursor) : Except Failure (String × Cursor) :=
  match c.takeWhile isNameChar with
  | ([], _) => malformed
  | (name, c) => .ok (String.ofList name, c)

/-- A number of a version, which must not have too many digits. -/
def scanVersionNumber (c : Cursor) : Except Failure (Nat × Cursor) :=
  match c.takeWhile Char.isDigit with
  | ([], _) => malformed
  | (digits, c) =>
    if c.peek.any fun ch => !isStreamChar ch then malformed
    else if Number.maxDigits < digits.length then faulty (.longInteger digits.length)
    else .ok (digits.foldl (fun n d => n * 10 + (d.toNat - 48)) 0, c)

/-- The bytes of the escapes in front of the cursor. -/
def scanEscapes : Nat → Cursor → Except Failure (List UInt8 × Cursor)
  | 0, c => .ok ([], c)
  | fuel + 1, c =>
    match c.rest with
    | '%' :: a :: b :: _ =>
      match Number.hexDigit? a, Number.hexDigit? b with
      | some x, some y => do
        let (bytes, c) ← scanEscapes fuel (c.skip 3)
        return (UInt8.ofNat (x * 16 + y) :: bytes, c)
      | _, _ => malformed
    | '%' :: _ => malformed
    | _ => .ok ([], c)

/-- The text of a tag: characters and escaped bytes, at least one. -/
def scanTagText : Nat → Cursor → Except Failure (List Char × Cursor)
  | 0, c => .ok ([], c)
  | fuel + 1, c =>
    match c.peek with
    | some '%' => do
      let (bytes, c) ← scanEscapes (c.left + 1) c
      match String.fromUTF8? ⟨bytes.toArray⟩ with
      | some s =>
        let (more, c) ← scanTagText fuel c
        return (s.toList ++ more, c)
      | none => malformed
    | some ch =>
      if isTagChar ch then do
        let (more, c) ← scanTagText fuel c.step
        return (ch :: more, c)
      else .ok ([], c)
    | none => .ok ([], c)

/-- The text of a tag, which must not be empty. -/
def scanTagUri (c : Cursor) : Except Failure (String × Cursor) := do
  let (text, c) ← scanTagText (c.left + 1) c
  if text.isEmpty then malformed else .ok (String.ofList text, c)

/-- A handle of a tag: an exclamation mark, or a name between two of them. -/
def scanTagHandle (c : Cursor) : Except Failure (String × Cursor) :=
  match c.rest with
  | '!' :: r =>
    if r.head? = some ' ' then .ok ("!", c.step)
    else
      let name := r.takeWhile isNameChar
      if r[name.length]? = some '!' then
        .ok (String.ofList ('!' :: name ++ ['!']), c.skip (name.length + 2))
      else malformed
  | _ => malformed

/-- What may follow a directive on its line: spaces and a comment. -/
def scanRestOfLine (c : Cursor) : Except Failure Cursor :=
  let c := c.dropSpaces
  let c := if c.peek = some '#' then c.dropLine else c
  if isBreakOrEnd c.peek then .ok c.lineBreak.2 else malformed

/-- A directive. -/
def scanDirective (c : Cursor) : Except Failure (Token × Cursor) := do
  let (name, c) ← scanName c.step
  if !isSpaceBreakOrEnd c.peek then malformed
  if name = "YAML" then
    let (major, c) ← scanVersionNumber c.dropSpaces
    if c.peek ≠ some '.' then malformed
    let (_, c) ← scanVersionNumber c.step
    if !isSpaceBreakOrEnd c.peek then malformed
    return (.versionDirective major, ← scanRestOfLine c)
  else if name = "TAG" then
    let (handle, c) ← scanTagHandle c.dropSpaces
    if c.peek ≠ some ' ' then malformed
    let (pre, c) ← scanTagUri c.dropSpaces
    if !isSpaceBreakOrEnd c.peek then malformed
    return (.tagDirective handle pre, ← scanRestOfLine c)
  else return (.otherDirective, ← scanRestOfLine c.dropLine)

/-- Whether a character may follow the name of an anchor. -/
def endsAnchor : Option Char → Bool
  | none => true
  | some c => isSpaceOrEnd (some c) || "?:,]\x7d%@\x60".toList.contains c

/-- The name of an anchor or an alias. -/
def scanAnchor (c : Cursor) : Except Failure (String × Cursor) := do
  let (name, c) ← scanName c.step
  if endsAnchor c.peek then return (name, c) else malformed

/-- Whether another exclamation mark stands before the next space or the end of the line. -/
def hasHandle (cs : List Char) : Bool :=
  (cs.takeWhile fun ch => !isSpaceBreakOrEnd (some ch)).contains '!'

/-- A tag. -/
def scanTag (c : Cursor) : Except Failure (Token × Cursor) := do
  let next := c.peekAt 1
  let (token, c) ←
    if next = some '<' then do
      let (suffix, c) ← scanTagUri (c.skip 2)
      if c.peek ≠ some '>' then malformed
      pure (Token.tag none suffix, c.step)
    else if isSpaceOrEnd next then pure (Token.tag none "!", c.step)
    else do
      let (handle, c) ←
        if hasHandle c.step.rest then scanTagHandle c else pure ("!", c.step)
      let (suffix, c) ← scanTagUri c
      pure (Token.tag (some handle) suffix, c)
  if isSpaceBreakOrEnd c.peek then return (token, c) else malformed

/-! ### Block scalars -/

/-- How the line breaks at the end of a block scalar are kept. -/
inductive Chomping
  | clip
  | strip
  | keep
deriving DecidableEq, Repr, Inhabited

/-- The sign that chooses a way of keeping line breaks. -/
def chompingOf? : Option Char → Option Chomping
  | some '+' => some .keep
  | some '-' => some .strip
  | _ => none

/-- A digit that gives the indentation of a block scalar. -/
def incrementOf? (c : Option Char) : Option Nat :=
  match c with
  | some d => if d.isDigit then some (d.toNat - 48) else none
  | none => none

/-- The signs after the indicator of a block scalar, in either order. -/
def scanBlockHeader (c : Cursor) : Except Failure ((Chomping × Option Nat) × Cursor) := do
  let (header, c) :=
    match chompingOf? c.peek with
    | some chomping =>
      match incrementOf? c.step.peek with
      | some n => ((chomping, some n), c.skip 2)
      | none => ((chomping, none), c.step)
    | none =>
      match incrementOf? c.peek with
      | some n =>
        match chompingOf? c.step.peek with
        | some chomping => ((chomping, some n), c.skip 2)
        | none => ((.clip, some n), c.step)
      | none => ((.clip, none), c)
  if header.2 = some 0 then malformed
  if isSpaceBreakOrEnd c.peek then return (header, c) else malformed

/-- The line breaks in front, and the greatest column reached among the spaces between them. -/
def scanIndentation : Nat → Nat → Cursor → List Char × Nat × Cursor
  | 0, deepest, c => ([], deepest, c)
  | fuel + 1, deepest, c =>
    match c.peek with
    | some ' ' => scanIndentation fuel (max deepest c.step.column) c.step
    | some ch =>
      if isBreak ch then
        let (br, c) := c.lineBreak
        let (breaks, deepest, c) := scanIndentation fuel deepest c
        (br ++ breaks, deepest, c)
      else ([], deepest, c)
    | none => ([], deepest, c)

/-- The cursor after the spaces in front, up to a column. -/
def dropIndent (indent : Nat) : Nat → Cursor → Cursor
  | 0, c => c
  | fuel + 1, c =>
    if c.column < indent ∧ c.peek = some ' ' then dropIndent indent fuel c.step else c

/-- The line breaks in front, each followed by at most the indentation. -/
def scanBlockBreaks (indent : Nat) : Nat → Cursor → List Char × Cursor
  | 0, c => ([], c)
  | fuel + 1, c =>
    let c := dropIndent indent indent c
    match c.peek with
    | some ch =>
      if isBreak ch then
        let (br, c) := c.lineBreak
        let (breaks, c) := scanBlockBreaks indent fuel c
        (br ++ breaks, c)
      else ([], c)
    | none => ([], c)

/-- The lines of a block scalar.  Gives the text, the last line break and the breaks after it. -/
def scanBlockLines (folded : Bool) (indent : Nat) : Nat → List Char → Cursor →
    List Char × List Char × List Char × Cursor
  | 0, breaks, c => ([], [], breaks, c)
  | fuel + 1, breaks, c =>
    if c.column = indent ∧ c.peek.isSome then
      let opensText := c.peek ≠ some ' ' ∧ c.peek ≠ some '\t'
      let (line, c) := c.takeWhile fun ch => !isBreak ch
      let (br, c) := c.lineBreak
      let (next, c) := scanBlockBreaks indent (c.left + 1) c
      if c.column = indent ∧ c.peek.isSome then
        let joint :=
          if folded ∧ br = ['\n'] ∧ opensText ∧ c.peek ≠ some ' ' ∧ c.peek ≠ some '\t' then
            if next.isEmpty then [' '] else []
          else br
        let (text, last, after, c) := scanBlockLines folded indent fuel next c
        (breaks ++ line ++ joint ++ text, last, after, c)
      else (breaks ++ line, br, next, c)
    else ([], [], breaks, c)

/-- A block scalar inside a block of the given indentation. -/
def scanBlockScalar (folded : Bool) (blockIndent : Int) (c : Cursor) :
    Except Failure (Token × Cursor) := do
  let ((chomping, increment), c) ← scanBlockHeader c.step
  let c ← scanRestOfLine c
  let least := (max (blockIndent + 1) 1).toNat
  let fuel := c.left + 1
  let (indent, breaks, c) :=
    match increment with
    | none =>
      let (breaks, deepest, c) := scanIndentation fuel 0 c
      (max least deepest, breaks, c)
    | some n =>
      let indent := least + n - 1
      let (breaks, c) := scanBlockBreaks indent fuel c
      (indent, breaks, c)
  let (text, last, after, c) := scanBlockLines folded indent fuel breaks c
  let ending :=
    match chomping with
    | .strip => []
    | .clip => last
    | .keep => last ++ after
  return (.scalar (String.ofList (text ++ ending)) false, c)

/-! ### Quoted scalars -/

/-- The character that a one-letter escape stands for. -/
def simpleEscape? (c : Char) : Option Char :=
  match c with
  | '0' => some (Char.ofNat 0)
  | 'a' => some (Char.ofNat 7)
  | 'b' => some (Char.ofNat 8)
  | 't' | '\t' => some '\t'
  | 'n' => some '\n'
  | 'v' => some (Char.ofNat 0xB)
  | 'f' => some (Char.ofNat 0xC)
  | 'r' => some '\r'
  | 'e' => some (Char.ofNat 0x1B)
  | ' ' => some ' '
  | '"' => some '"'
  | '\\' => some '\\'
  | '/' => some '/'
  | 'N' => some (Char.ofNat 0x85)
  | '_' => some (Char.ofNat 0xA0)
  | 'L' => some (Char.ofNat 0x2028)
  | 'P' => some (Char.ofNat 0x2029)
  | _ => none

/-- The number of digits of an escape by code point. -/
def escapeWidth? (c : Char) : Option Nat :=
  match c with
  | 'x' => some 2
  | 'u' => some 4
  | 'U' => some 8
  | _ => none

/-- The character that the digits of an escape stand for. -/
def escapedChar (digits : List Char) : Except Failure Char :=
  match digits.mapM Number.hexDigit? with
  | none => malformed
  | some ds =>
    let n := Number.ofDigits 16 ds
    if 0x7FFFFFFF < n then faulty .tooLarge
    else if 0x10FFFF < n then faulty .impossible
    else if 0xD800 ≤ n ∧ n ≤ 0xDFFF then .ok (Char.ofNat 0xFFFD)
    else .ok (Char.ofNat n)

/-- The line breaks in front inside a quoted scalar, with the white space around them. -/
def scanQuotedBreaks : Nat → Cursor → Except Failure (List Char × Cursor)
  | 0, c => .ok ([], c)
  | fuel + 1, c =>
    if c.atSeparator then malformed
    else
      let c := c.dropWhile fun ch => ch == ' ' || ch == '\t'
      match c.lineBreak with
      | ([], c) => .ok ([], c)
      | (br, c) => do
        let (breaks, c) ← scanQuotedBreaks fuel c
        return (br ++ breaks, c)

/-- White space inside a quoted scalar: kept on one line, folded at line breaks. -/
def scanQuotedSpaces (c : Cursor) : Except Failure (List Char × Cursor) :=
  let (blanks, c) := c.takeWhile fun ch => ch == ' ' || ch == '\t'
  match c.peek with
  | none => malformed
  | some ch =>
    if isBreak ch then do
      let (br, c) := c.lineBreak
      let (breaks, c) ← scanQuotedBreaks (c.left + 1) c
      let joint := if br ≠ ['\n'] then br else if breaks.isEmpty then [' '] else []
      return (joint ++ breaks, c)
    else .ok (blanks, c)

/-- The text of a quoted scalar up to its closing quote. -/
def scanQuotedText (double : Bool) : Nat → Cursor → Except Failure (List Char × Cursor)
  | 0, _ => malformed
  | fuel + 1, c =>
    let continueWith (text : List Char) (c : Cursor) : Except Failure (List Char × Cursor) := do
      let (more, c) ← scanQuotedText double fuel c
      return (text ++ more, c)
    match c.rest with
    | [] => malformed
    | ch :: r =>
      if ch = ' ' ∨ ch = '\t' ∨ isBreak ch then do
        let (text, c) ← scanQuotedSpaces c
        continueWith text c
      else if double then
        if ch = '"' then .ok ([], c.step)
        else if ch = '\\' then
          match r with
          | [] => malformed
          | e :: digits =>
            match simpleEscape? e, escapeWidth? e with
            | some x, _ => continueWith [x] (c.skip 2)
            | none, some width =>
              if digits.length < width then malformed
              else do
                let x ← escapedChar (digits.take width)
                continueWith [x] (c.skip (width + 2))
            | none, none =>
              if isBreak e then do
                let (_, c) := c.step.lineBreak
                let (breaks, c) ← scanQuotedBreaks (c.left + 1) c
                continueWith breaks c
              else malformed
        else continueWith [ch] c.step
      else if ch = '\'' then
        if r.head? = some '\'' then continueWith ['\''] (c.skip 2) else .ok ([], c.step)
      else continueWith [ch] c.step

/-- A quoted scalar. -/
def scanQuoted (double : Bool) (c : Cursor) : Except Failure (Token × Cursor) := do
  let (text, c) ← scanQuotedText double (c.left + 1) c.step
  return (.scalar (String.ofList text) false, c)

/-! ### Plain scalars -/

/-- Whether a plain scalar stops before this character. -/
def endsPlain (inFlow : Bool) (c : Char) (next : Option Char) : Bool :=
  isSpaceOrEnd (some c) ||
    (c == ':' && (isSpaceOrEnd next ||
      (inFlow && (match next with
        | some d => ",[]\x7b\x7d".toList.contains d
        | none => true)))) ||
    (inFlow && ",?[]\x7b\x7d".toList.contains c)

/-- The characters of a plain scalar on one line without white space. -/
def plainRun (inFlow : Bool) : List Char → List Char
  | [] => []
  | c :: r => if endsPlain inFlow c r.head? then [] else c :: plainRun inFlow r

/-- The line breaks and spaces after the first line break of a gap in a plain scalar; nothing when
a marker of a document ends the scalar. -/
def scanPlainBreaks : Nat → Cursor → Option (List Char) × Cursor
  | 0, c => (some [], c)
  | fuel + 1, c =>
    match c.peek with
    | some ' ' => scanPlainBreaks fuel c.step
    | some ch =>
      if isBreak ch then
        let (br, c) := c.lineBreak
        if c.atSeparator then (none, c)
        else
          let (breaks, c) := scanPlainBreaks fuel c
          (breaks.map (br ++ ·), c)
      else (some [], c)
    | none => (some [], c)

/-- A gap in a plain scalar: its text, whether it holds a line break, and the cursor after it. -/
def scanPlainGap (c : Cursor) : List Char × Bool × Cursor :=
  let (blanks, c) := c.takeWhile (· == ' ')
  match c.peek with
  | some ch =>
    if isBreak ch then
      let (br, c) := c.lineBreak
      if c.atSeparator then ([], true, c)
      else
        match scanPlainBreaks (c.left + 1) c with
        | (none, c) => ([], true, c)
        | (some breaks, c) =>
          let joint := if br ≠ ['\n'] then br else if breaks.isEmpty then [' '] else []
          (joint ++ breaks, true, c)
    else (blanks, false, c)
  | none => (blanks, false, c)

/-- The text of a plain scalar, and whether it ends after a line break. -/
def scanPlainText (inFlow : Bool) (indent : Int) : Nat → List Char → Bool → Cursor →
    List Char × Bool × Cursor
  | 0, _, broken, c => ([], broken, c)
  | fuel + 1, gap, broken, c =>
    if c.peek = some '#' then ([], broken, c)
    else
      match plainRun inFlow c.rest with
      | [] => ([], broken, c)
      | run =>
        let (space, broken, c) := scanPlainGap (c.skip run.length)
        if space.isEmpty ∨ c.peek = some '#' ∨ (!inFlow ∧ (c.column : Int) < indent) then
          (gap ++ run, broken, c)
        else
          let (more, broken, c) := scanPlainText inFlow indent fuel space broken c
          (gap ++ run ++ more, broken, c)

end DbSchema.Yaml
