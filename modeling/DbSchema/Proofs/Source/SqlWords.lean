import DbSchema.Proofs.Text

/-!
# Words of statements

A statement is read from the front.  Its strings and quoted identifiers end with the mark that they
began with, brackets with the closing one, and comments with the line or with a star and a slash.
The words are the longest runs of characters that identifiers are made of.  A keyword is a word
outside of all these, in letters of either case.  The upper case of a statement contains a keyword
wherever one of its words does, no matter where that word stands.

## Main definitions

* `Region`, `Region.after` — where a reader stands, and where after one more character.
* `words s` — the words of a statement, each with the region that it stands in.
* `hasKeyword k s` — whether the statement has a keyword.

## Main results

* `occursIn_upper_iff` — a keyword occurs in the upper case exactly if it does in a word's.
* `mentions_of_isKeyword` — a keyword is such a word.
-/

namespace DbSchema

namespace Sql

/-! ### Regions -/

/-- Where a reader of a statement stands. -/
inductive Region
  | code
  /-- In the code after one hyphen, or after one slash. -/
  | hyphen
  | slash
  /-- In a string or a quoted identifier that ends with the mark. -/
  | quoted (mark : Char)
  /-- In a comment that ends with the line. -/
  | line
  /-- In a comment that ends with a star and a slash, and after a star of it. -/
  | block
  | star
deriving DecidableEq, Repr

namespace Region

/-- Where a reader of code stands after one more character. -/
def fromCode (c : Char) : Region :=
  if c = '-' then .hyphen
  else if c = '/' then .slash
  else if c = '[' then .quoted ']'
  else if c = '\'' ∨ c = '"' ∨ c = '\x60' then .quoted c
  else .code

/-- Where a reader stands after one more character.  A mark that is written twice for itself leaves
the string and enters it again, and no word lies between. -/
def after : Region → Char → Region
  | .code, c => fromCode c
  | .hyphen, c => if c = '-' then .line else fromCode c
  | .slash, c => if c = '*' then .block else fromCode c
  | .quoted mark, c => if c = mark then .code else .quoted mark
  | .line, c => if c = '\n' then .code else .line
  | .block, c => if c = '*' then .star else .block
  | .star, c => if c = '/' then .code else if c = '*' then .star else .block

end Region

/-! ### Words -/

/-- The characters that identifiers and keywords are made of. -/
def isWordChar (c : Char) : Bool :=
  c.isAlphanum || c == '_' || c == '$' || decide (0x80 ≤ c.toNat)

/-- A word of a statement, and where it stands. -/
structure Word where
  region : Region
  letters : List Char
deriving DecidableEq, Repr

/-- The word that was read, if there is any. -/
def finish (g : Region) (read : List Char) : List Word :=
  if read = [] then [] else [⟨g, read⟩]

/-- The words of the rest of a statement, when the beginning of one was read. -/
def wordsFrom (g : Region) (read : List Char) : List Char → List Word
  | [] => finish g read
  | c :: r =>
    if isWordChar c then wordsFrom (g.after c) (read ++ [c]) r
    else finish g read ++ wordsFrom (g.after c) [] r

/-- The words of a statement. -/
def words (s : String) : List Word := wordsFrom .code [] s.toList

namespace Word

/-- Whether a word is the keyword: it is code, and has its letters in either case. -/
def isKeyword (k : String) (w : Word) : Bool :=
  w.region == .code && w.letters.map Char.toUpper == k.toList

/-- Whether the upper case of a word contains the keyword. -/
def mentions (k : String) (w : Word) : Bool := Text.contains k.toList (Text.upperChars w.letters)

end Word

/-- Whether a statement has the keyword. -/
def hasKeyword (k s : String) : Bool := (words s).any (·.isKeyword k)

/-! ### Keywords and occurrences -/

theorem upperChar_of_not_wordChar {c : Char} (h : isWordChar c = false) :
    Text.upperChar c = [c] := by
  simp only [isWordChar, Bool.or_eq_false_iff, decide_eq_false_iff_not, not_le] at h
  obtain ⟨⟨⟨halphanum, -⟩, -⟩, hascii⟩ := h
  have halpha : c.isAlpha = false := (Bool.or_eq_false_iff.mp halphanum).1
  have hlower : c.isLower = false := (Bool.or_eq_false_iff.mp halpha).2
  have hsame : c.toUpper = c := dif_neg fun hletter => by
    have hletters : c.isLower = true :=
      Bool.and_eq_true_iff.mpr ⟨decide_eq_true hletter.1, decide_eq_true hletter.2⟩
    rw [hletters] at hlower
    cases hlower
  rw [Text.upperChar, if_pos hascii, hsame]

variable {k : String}

/-- What was read contains a keyword where it is a word that does. -/
theorem contains_finish (hne : k ≠ "") (g : Region) (read : List Char) :
    Text.contains k.toList (Text.upperChars read) = true ↔ ∃ w ∈ finish g read, w.mentions k := by
  by_cases hread : read = []
  · have hnil : k.toList ≠ [] := by rwa [← String.toList_empty, String.toList_inj.ne]
    simp [hread, finish, Text.contains, Text.upperChars, hnil]
  · simp [hread, finish, Word.mentions]

/-- The rest of a statement contains a keyword where one of its words does. -/
theorem contains_wordsFrom (hk : ∀ c ∈ k.toList, isWordChar c) (hne : k ≠ "") (cs : List Char) :
    ∀ g read, Text.contains k.toList (Text.upperChars (read ++ cs)) = true ↔
      ∃ w ∈ wordsFrom g read cs, w.mentions k := by
  induction cs with
  | nil => exact fun g read => by simpa [wordsFrom] using contains_finish hne g read
  | cons c r ih =>
    intro g read
    rw [wordsFrom]
    by_cases hc : isWordChar c
    · rw [if_pos hc, List.append_cons]
      exact ih (g.after c) (read ++ [c])
    · have hout : c ∉ k.toList := fun hmem => hc (hk c hmem)
      have hupper := upperChar_of_not_wordChar (by simpa using hc)
      have hrest := ih (g.after c) []
      rw [List.nil_append] at hrest
      rw [if_neg hc, Text.upperChars_append, Text.upperChars_cons, hupper, Text.contains_iff,
        List.singleton_append, Text.infix_around hout, ← Text.contains_iff, ← Text.contains_iff,
        contains_finish hne g read, hrest]
      simp only [List.mem_append, or_and_right, exists_or]

/-- **A keyword occurs in the upper case of a statement exactly if it does in that of a word**,
whatever region the word stands in. -/
theorem occursIn_upper_iff (hk : ∀ c ∈ k.toList, isWordChar c) (hne : k ≠ "") (s : String) :
    Text.occursIn k (Text.upper s) ↔ ∃ w ∈ words s, w.mentions k := by
  rw [Text.occursIn, Text.upper, String.toList_ofList]
  exact contains_wordsFrom hk hne s.toList .code []

/-- A character whose upper case is an ASCII letter by itself is one itself. -/
theorem upperChar_of_toUpper {c : Char} (h : c.toUpper.toNat < 0x80) :
    Text.upperChar c = [c.toUpper] := by
  rw [Text.upperChar, if_pos]
  unfold Char.toUpper at h
  split at h
  · next hlower => exact lt_of_le_of_lt (UInt32.le_iff_toNat_le.mp hlower.2) (by decide)
  · exact h

/-- A word that is the keyword mentions it. -/
theorem mentions_of_isKeyword (hk : ∀ c ∈ k.toList, c.toNat < 0x80) {w : Word}
    (h : w.isKeyword k) : w.mentions k := by
  rw [Word.isKeyword, Bool.and_eq_true, beq_iff_eq, beq_iff_eq] at h
  have hupper : Text.upperChars w.letters = w.letters.map Char.toUpper := by
    rw [Text.upperChars, List.map_eq_flatMap]
    refine List.flatMap_congr fun c hc => upperChar_of_toUpper (hk _ ?_)
    exact h.2 ▸ List.mem_map_of_mem hc
  rw [Word.mentions, Text.contains_iff, hupper, h.2]

/-- Only the last of these words is a keyword, though all mention it. -/
example : (words "'KEY''S' -- KEY\n\"A KEY\" [KEY] /* KEY **/ KEYS (key)").filterMap
    (fun w => if w.mentions "KEY" then some (w.isKeyword "KEY") else none) =
    [false, false, false, false, false, false, true] := by decide +kernel

end Sql

end DbSchema
