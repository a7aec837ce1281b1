import DbSchema.Proofs.Text
import Mathlib.Data.List.Induction

/-!
# Names between marks

A statement has names between two marks, as strings or as quoted identifiers.  Read from the front,
two characters may stand for something together, as two marks do for one, or a backslash with the
character that it escapes.  Any other mark is the end.  So a name that is put between marks as it is
need not be what is read, and may end early.

## Main definitions

* `Quoting` — the rules: the mark, and what pairs of characters stand for.
* `Quoting.doubling`, `Quoting.escaping` — a mark that is written twice, and backslashes as well.
* `Quoting.read q cs` — what a quoted name denotes, and what follows it.
* `Quoting.Plain q name` — between two marks the name denotes itself.
* `Piece`, `carries` — the parts of a statement, and whether it is read as these.

## Main results

* `Quoting.body_append_iff` — reading ends at a mark whatever follows, unless that is a mark.
* `Quoting.read_of_plain`, `Quoting.plain_of_read` — a name between marks is read as itself, and all
  that follows is left, exactly if it is plain.
* `Quoting.not_plain_mark` — under all rules there is a name that is not.
* `Quoting.plain_doubling_iff` — with marks that are doubled only, names without them are plain.
* `Quoting.body_replaceChar` — a name whose marks are written twice is read as it was.
* `carries_written_iff` — a statement with names as they are is read as its parts if all are plain.
-/

namespace DbSchema.Sql

/-- The rules by which what is written between two marks is read. -/
structure Quoting where
  mark : Char
  /-- What two characters stand for together, if they do. -/
  pair : Char → Char → Option (List Char)
  /-- A mark stands for something with another mark, and with no other character. -/
  pair_mark : ∀ c, (pair mark c).isSome ↔ c = mark
  /-- Nothing stands for more than is written. -/
  short : ∀ {c d out}, pair c d = some out → out.length ≤ 2

namespace Quoting

/-- Two marks stand for one. -/
def doubling (mark : Char) : Quoting where
  mark
  pair c d := if c = mark ∧ d = mark then some [mark] else none
  pair_mark c := by by_cases h : c = mark <;> simp [h]
  short {c d out} h := by
    split at h
    · cases h
      exact Nat.le_succ 1
    · cases h

/-- Two marks stand for one, and a backslash with a character for what that is escaped to. -/
def escaping (mark : Char) (hmark : mark ≠ '\\') (escaped : Char → Char) : Quoting where
  mark
  pair c d :=
    if c = '\\' then some [escaped d] else if c = mark ∧ d = mark then some [mark] else none
  pair_mark c := by by_cases h : c = mark <;> simp [h, hmark]
  short {c d out} h := by
    split at h
    · cases h
      exact Nat.le_succ 1
    · split at h
      · cases h
        exact Nat.le_succ 1
      · cases h

variable (q : Quoting)

/-- What is denoted with something before it. -/
def before (out : List Char) (found : Option (List Char × List Char)) :
    Option (List Char × List Char) :=
  found.map fun x => (out ++ x.1, x.2)

/-- What is denoted up to the mark that ends it, and what follows. -/
def body : List Char → Option (List Char × List Char)
  | [] => none
  | [c] => if c = q.mark then some ([], []) else none
  | c :: d :: r =>
    match q.pair c d with
    | some out => before out (body r)
    | none => if c = q.mark then some ([], d :: r) else before [c] (body (d :: r))

/-- What a quoted name denotes, and what follows it. -/
def read : List Char → Option (List Char × List Char)
  | [] => none
  | c :: r => if c = q.mark then body q r else none

/-- A name as it is between two marks. -/
def written (name : String) : List Char := q.mark :: (name.toList ++ [q.mark])

/-- Whether a name between two marks denotes itself. -/
def Plain (name : String) : Prop := q.read (q.written name) = some (name.toList, [])

variable {q} {cs out rest post : List Char} {name : String}

theorem pair_mark_of_ne {c : Char} (h : c ≠ q.mark) : q.pair q.mark c = none := by
  rw [← Option.not_isSome_iff_eq_none, q.pair_mark]
  exact h

theorem before_eq_some_iff {found : Option (List Char × List Char)} {x : List Char} :
    before out found = some (x, rest) ↔ ∃ y, found = some (y, rest) ∧ x = out ++ y := by
  rcases found with _ | ⟨y, rest'⟩
  · simp [before]
  · simp [before, and_comm, eq_comm]

/-- What follows stands at the end, and what is read is not longer than what is written. -/
theorem suffix_and_length_of_body (h : q.body cs = some (out, rest)) :
    rest <:+ cs ∧ out.length + rest.length + 1 ≤ cs.length := by
  induction cs using List.twoStepInduction generalizing out rest with
  | nil => cases h
  | singleton c =>
    rw [body] at h
    split at h <;> cases h
    exact ⟨List.nil_suffix, Nat.le_refl 1⟩
  | cons_cons c d r ih ih' =>
    rw [body] at h
    split at h
    · next out' hpair =>
      obtain ⟨y, hy, rfl⟩ := before_eq_some_iff.mp h
      obtain ⟨hsuffix, hlength⟩ := ih hy
      have hshort := q.short hpair
      refine ⟨hsuffix.trans ⟨[c, d], rfl⟩, ?_⟩
      rw [List.length_append, List.length_cons, List.length_cons]
      omega
    · split at h
      · cases h
        exact ⟨List.suffix_cons _ _, by simp⟩
      · obtain ⟨y, hy, rfl⟩ := before_eq_some_iff.mp h
        obtain ⟨hsuffix, hlength⟩ := ih' d hy
        refine ⟨hsuffix.trans (List.suffix_cons _ _), ?_⟩
        simp only [List.length_cons, List.singleton_append] at hlength ⊢
        omega

/-- What is left where reading goes on past the mark that it should end at is something else. -/
theorem body_self_ne : q.body post ≠ some (out, post) := fun h => by
  have hlength := (suffix_and_length_of_body h).2
  omega

/-- At a mark that no mark follows nothing more is read. -/
theorem body_mark (h : post.head? ≠ some q.mark) : q.body (q.mark :: post) = some ([], post) := by
  rcases post with _ | ⟨c, r⟩
  · rw [body, if_pos rfl]
  · have hne : c ≠ q.mark := by simpa using h
    rw [body, pair_mark_of_ne hne]
    simp

/-- **Reading ends at a mark whatever follows**, unless that is a mark again. -/
theorem body_append_iff (h : post.head? ≠ some q.mark) :
    q.body (cs ++ q.mark :: post) = some (out, post) ↔
      q.body (cs ++ [q.mark]) = some (out, []) := by
  induction cs using List.twoStepInduction generalizing out with
  | nil =>
    rw [List.nil_append, List.nil_append, body_mark h, body_mark (by simp)]
    simp
  | singleton c =>
    rw [List.singleton_append, List.singleton_append, body, body]
    -- a last character that stands for something with the mark takes the mark along
    rcases hpair : q.pair c q.mark with _ | out'
    · have hne : c ≠ q.mark := by
        rintro rfl
        have hmarks := (q.pair_mark q.mark).mpr rfl
        rw [hpair] at hmarks
        cases hmarks
      have hmark : q.body [q.mark] = some ([], []) := body_mark (by simp)
      simp [if_neg hne, body_mark h, hmark, before]
    · simp only [before_eq_some_iff, body_self_ne, false_and, exists_false]
  | cons_cons c d r ih ih' =>
    have hcons : ∀ l : List Char, c :: d :: r ++ l = c :: d :: (r ++ l) := fun _ => rfl
    rw [hcons, hcons, body, body]
    rcases q.pair c d with _ | out'
    · dsimp only
      split
      · -- a name that ends here leaves more than what follows it
        have hleft : ∀ l, some ([], d :: (r ++ q.mark :: l)) ≠ some (out, l) := by
          intro l heq
          have hlength := congrArg (List.length ∘ Prod.snd) (Option.some.inj heq)
          simp at hlength
          omega
        simp only [hleft]
      · simp only [before_eq_some_iff]
        exact exists_congr fun y => and_congr_left fun _ => ih' d
    · simp only [before_eq_some_iff]
      exact exists_congr fun y => and_congr_left fun _ => ih

theorem read_written (name : String) (post : List Char) :
    q.read (q.written name ++ post) = q.body (name.toList ++ q.mark :: post) := by
  rw [written, List.cons_append, read, if_pos rfl, List.append_assoc, List.singleton_append]

theorem plain_iff : q.Plain name ↔ q.body (name.toList ++ [q.mark]) = some (name.toList, []) := by
  have hread := read_written (q := q) name []
  rw [List.append_nil] at hread
  rw [Plain, hread]

/-- What follows a quoted name is no longer than it was written. -/
theorem length_of_read {x : List Char} (h : q.read cs = some (x, rest)) :
    x.length + rest.length + 2 ≤ cs.length := by
  rcases cs with _ | ⟨c, r⟩
  · cases h
  · rw [read] at h
    split at h
    · have hlength := (suffix_and_length_of_body h).2
      rw [List.length_cons]
      omega
    · cases h

/-- A plain name is read as itself, and all that follows is left if it begins with no mark. -/
theorem read_of_plain (h : q.Plain name) (hpost : post.head? ≠ some q.mark) :
    q.read (q.written name ++ post) = some (name.toList, post) := by
  rw [read_written]
  exact (body_append_iff hpost).mpr (plain_iff.mp h)

/-- **A name that is read as itself with enough left is plain.** -/
theorem plain_of_read (hpost : post.head? ≠ some q.mark)
    (h : q.read (q.written name ++ post) = some (name.toList, rest))
    (hle : post.length ≤ rest.length) : q.Plain name := by
  rw [read_written] at h
  obtain ⟨hsuffix, hlength⟩ := suffix_and_length_of_body h
  rw [List.length_append, List.length_cons] at hlength
  -- no more is left than what follows the name, and both stand at the end
  have hall : post <:+ name.toList ++ q.mark :: post := ⟨name.toList ++ [q.mark], by simp⟩
  have heq : post = rest :=
    (List.suffix_of_suffix_length_le hall hsuffix hle).eq_of_length (by omega)
  rw [← heq] at h
  exact plain_iff.mpr ((body_append_iff hpost).mp h)

/-- **Whatever the rules are, the mark alone does not denote itself.** -/
theorem not_plain_mark : ¬ q.Plain (String.ofList [q.mark]) := by
  obtain ⟨out, hout⟩ := Option.isSome_iff_exists.mp ((q.pair_mark q.mark).mpr rfl)
  rw [plain_iff, String.toList_ofList, List.singleton_append, body, hout]
  simp [before, body]

/-! ### Doubled marks -/

theorem pair_doubling {mark c d : Char} :
    (doubling mark).pair c d = if c = mark ∧ d = mark then some [mark] else none := rfl

/-- Another character than the mark stands for itself. -/
theorem body_doubling_cons {mark c : Char} (h : c ≠ mark) (cs : List Char) :
    (doubling mark).body (c :: cs) = before [c] ((doubling mark).body cs) := by
  have hne : c ≠ (doubling mark).mark := h
  rcases cs with _ | ⟨d, r⟩
  · simp [body, before, hne]
  · rw [body, pair_doubling, if_neg fun hpair => h hpair.1]
    simp [hne]

/-- Two marks stand for one. -/
theorem body_doubling_pair (mark : Char) (cs : List Char) :
    (doubling mark).body (mark :: mark :: cs) = before [mark] ((doubling mark).body cs) := by
  rw [body, pair_doubling, if_pos ⟨rfl, rfl⟩]

/-- A text whose marks are written twice is read as it was, up to the mark that ends it. -/
theorem body_replaceChar {mark : Char} {post : List Char} (h : post.head? ≠ some mark)
    (cs : List Char) :
    (doubling mark).body (Text.replaceChar mark [mark, mark] cs ++ mark :: post) =
      some (cs, post) := by
  induction cs with
  | nil => exact body_mark h
  | cons c r ih =>
    rw [Text.replaceChar]
    by_cases hc : c = mark
    · -- however many marks stand in a row, each is read with its double
      subst hc
      rw [if_pos rfl]
      show (doubling c).body (c :: c :: (Text.replaceChar c [c, c] r ++ c :: post)) = _
      rw [body_doubling_pair, ih]
      rfl
    · rw [if_neg hc, List.cons_append, body_doubling_cons hc, ih]
      rfl

end Quoting

/-! ### Parts of statements -/

/-- A part of a statement: a text, or a name between marks. -/
inductive Piece
  | text (s : String)
  | quoted (q : Quoting) (name : String)

namespace Piece

/-- The part with a name as it is. -/
def written : Piece → List Char
  | text s => s.toList
  | quoted q name => q.written name

/-- Whether a name is plain by its rules. -/
def Plain : Piece → Prop
  | text _ => True
  | quoted q name => q.Plain name

/-- Whether no mark follows that could be taken for one of a name. -/
def Before (post : List Char) : Piece → Prop
  | text _ => True
  | quoted q _ => post.head? ≠ some q.mark

end Piece

/-- The statement with all names as they are. -/
def writtenOf (pieces : List Piece) : List Char := pieces.flatMap (·.written)

/-- Whether after no name there is another mark of it. -/
def Apart : List Piece → Prop
  | [] => True
  | x :: r => x.Before (writtenOf r) ∧ Apart r

/-- Whether a statement is read as these parts and nothing else: the texts stand there, and each
name is one quoted name that denotes exactly it. -/
def carries : List Piece → List Char → Bool
  | [], cs => cs.isEmpty
  | .text s :: r, cs =>
    match Text.dropPrefix? s.toList cs with
    | some rest => carries r rest
    | none => false
  | .quoted q name :: r, cs =>
    match q.read cs with
    | some (x, rest) => x == name.toList && carries r rest
    | none => false

section

variable {pieces r : List Piece} {cs : List Char} {q : Quoting} {name s : String}

theorem carries_text_iff :
    carries (.text s :: r) cs = true ↔ ∃ rest, cs = s.toList ++ rest ∧ carries r rest := by
  rw [carries]
  split
  · next rest h =>
    rw [Text.dropPrefix?_eq_some_iff] at h
    subst h
    simp
  · next h =>
    refine iff_of_false (by simp) fun ⟨rest, heq, _⟩ => ?_
    rw [Text.dropPrefix?_eq_some_iff.mpr heq] at h
    cases h

theorem carries_quoted_iff :
    carries (.quoted q name :: r) cs = true ↔
      ∃ rest, q.read cs = some (name.toList, rest) ∧ carries r rest := by
  rw [carries]
  split
  · next x rest h => simp [h]
  · next h => simp [h]

/-- A statement with names that denote these is no shorter than with the names as they are. -/
theorem length_writtenOf_le (h : carries pieces cs) : (writtenOf pieces).length ≤ cs.length := by
  induction pieces generalizing cs with
  | nil => exact Nat.zero_le _
  | cons x r ih =>
    rw [writtenOf, List.flatMap_cons, List.length_append]
    cases x with
    | text s =>
      obtain ⟨rest, rfl, hrest⟩ := carries_text_iff.mp h
      rw [List.length_append]
      exact Nat.add_le_add_left (ih hrest) _
    | quoted q name =>
      obtain ⟨rest, hread, hrest⟩ := carries_quoted_iff.mp h
      have hwritten : (Piece.quoted q name).written.length = name.toList.length + 2 := by
        simp [Piece.written, Quoting.written]
      have hread := q.length_of_read hread
      have hle := ih hrest
      rw [writtenOf] at hle
      omega

/-- **A statement with its names as they are is read as its parts if, and only if, all names are
plain.** -/
theorem carries_written_iff (h : Apart pieces) :
    carries pieces (writtenOf pieces) = true ↔ ∀ x ∈ pieces, x.Plain := by
  induction pieces with
  | nil => simp [carries, writtenOf]
  | cons x r ih =>
    obtain ⟨hx, hr⟩ := h
    rw [writtenOf, List.flatMap_cons, List.forall_mem_cons, ← ih hr]
    cases x with
    | text s =>
      rw [carries_text_iff]
      refine ⟨fun ⟨rest, heq, hrest⟩ => ⟨trivial, ?_⟩, fun h => ⟨_, rfl, h.2⟩⟩
      rwa [writtenOf, List.append_cancel_left heq]
    | quoted q name =>
      rw [carries_quoted_iff]
      constructor
      · rintro ⟨rest, hread, hrest⟩
        have hplain := q.plain_of_read hx hread (length_writtenOf_le hrest)
        have heq := (q.read_of_plain hplain hx).symm.trans hread
        cases heq
        exact ⟨hplain, hrest⟩
      · rintro ⟨hplain, hrest⟩
        exact ⟨_, q.read_of_plain hplain hx, hrest⟩

end

end DbSchema.Sql
