/-!
# Blank space and splitting

Names, sizes and statements are trimmed and cut apart by the same few functions on lists of
characters; the functions on strings wrap them.

## Main definitions

* `isBlank` — the characters that count as white space.
* `trim`, `trimStart`, `trimEnd` — text without the blanks at its ends.
* `splitOn` — the pieces between the occurrences of a separator.
* `joinLines`, `lines` — a text whose line ends are all line feeds, and the lines of a text.
* `words`, `collapse` — the maximal runs of characters that are not blank.
-/

namespace DbSchema.Text

/-- White space: the controls that move the carriage, the four information separators, the next
line control, and every space, line and paragraph separator. -/
def isBlank (c : Char) : Bool :=
  let n := c.toNat
  decide ((0x9 ≤ n ∧ n ≤ 0xD) ∨ (0x1C ≤ n ∧ n ≤ 0x20) ∨ n = 0x85 ∨ n = 0xA0 ∨ n = 0x1680 ∨
    (0x2000 ≤ n ∧ n ≤ 0x200A) ∨ n = 0x2028 ∨ n = 0x2029 ∨ n = 0x202F ∨ n = 0x205F ∨ n = 0x3000)

/-- A list of characters without the blanks at its front. -/
def trimStart (cs : List Char) : List Char := cs.dropWhile isBlank

/-- A list of characters without the blanks at its back. -/
def trimEnd (cs : List Char) : List Char := (cs.reverse.dropWhile isBlank).reverse

/-- A list of characters without the blanks at both ends. -/
def trimChars (cs : List Char) : List Char := trimEnd (trimStart cs)

/-- A text without the blanks at both ends. -/
def trim (s : String) : String := String.ofList (trimChars s.toList)

/-- Whether every character of a text is blank. -/
def allBlank (s : String) : Bool := s.toList.all isBlank

/-- The pieces of a list between the occurrences of a separator; one piece more than there are
separators. -/
def splitChars (sep : Char) : List Char → List (List Char)
  | [] => [[]]
  | c :: r =>
    if c = sep then [] :: splitChars sep r
    else
      match splitChars sep r with
      | [] => [[c]]
      | piece :: pieces => (c :: piece) :: pieces

/-- The pieces of a text between the occurrences of a separator. -/
def splitOn (sep : Char) (s : String) : List String :=
  (splitChars sep s.toList).map String.ofList

/-- A text whose line ends are all line feeds. -/
def joinLines : List Char → List Char
  | [] => []
  | '\r' :: '\n' :: r => '\n' :: joinLines r
  | c :: r => (if c = '\r' then '\n' else c) :: joinLines r

/-- The lines of a text. -/
def lines (s : String) : List (List Char) := splitChars '\n' (joinLines s.toList)

/-- The maximal runs of characters that are not blank. -/
def wordsOf : List Char → List (List Char)
  | [] => []
  | c :: r =>
    if isBlank c then wordsOf r
    else
      match r with
      | [] => [[c]]
      | d :: _ =>
        if isBlank d then [c] :: wordsOf r
        else
          match wordsOf r with
          | [] => [[c]]
          | w :: ws => (c :: w) :: ws

/-- The words of a text. -/
def words (s : String) : List String := (wordsOf s.toList).map String.ofList

/-- A text with every run of blanks replaced by one space and none at the ends. -/
def collapse (s : String) : String := " ".intercalate (words s)

/-- Drops the given text from the front of a list, or fails. -/
def dropPrefix? : List Char → List Char → Option (List Char)
  | [], cs => some cs
  | _ :: _, [] => none
  | p :: ps, c :: cs => if p = c then dropPrefix? ps cs else none

/-- Whether the list begins with the given characters. -/
def startsWith (cs pre : List Char) : Bool := (dropPrefix? pre cs).isSome

/-- Whether the list ends with the given characters. -/
def endsWith (cs post : List Char) : Bool := startsWith cs.reverse post.reverse

/-- Whether the given characters occur in a row somewhere in the list. -/
def contains (part : List Char) : List Char → Bool
  | [] => part.isEmpty
  | c :: r => startsWith (c :: r) part || contains part r

/-- The list with every occurrence of one character replaced by a text. -/
def replaceChar (old : Char) (new : List Char) : List Char → List Char
  | [] => []
  | c :: r => if c = old then new ++ replaceChar old new r else c :: replaceChar old new r

/-- Whether a text begins with another. -/
def hasStart (s pre : String) : Bool := startsWith s.toList pre.toList

/-- Whether a text ends with another. -/
def hasEnd (s post : String) : Bool := endsWith s.toList post.toList

/-- Whether a text occurs in another. -/
def occursIn (part s : String) : Bool := contains part.toList s.toList

end DbSchema.Text
