import DbSchema.Text.Json
import Mathlib.Data.List.Forall2
import Mathlib.Tactic.Common

/-!
# Lists of names in JSON

In a JSON text a character of a string stands for itself, or it is written with a letter or with its
code after a backslash.  However a list of strings is written, it is read as these strings.

## Main definitions

* `SpellsChar c cs` — the characters `cs` of a JSON string stand for the character `c`.
* `SpellsString s cs` — the characters `cs` are a JSON string for the text `s`.
* `SpellsList ns cs` — the characters `cs` are a JSON list of strings for the names `ns`.

## Main results

* `parseString_append` — a string is read up to its closing quote.
* `parse_of_spellsList` — a list of strings is read, with white space around it.
* `exists_spellsList` — every list of names can be written.
-/

namespace DbSchema.Json

open Number Text

/-! ### Code units -/

/-- A hexadecimal digit of the value, in lower or upper case. -/
def HexDigit (v : Nat) (c : Char) : Prop := c = v.digitChar ∨ c = v.digitChar.toUpper

/-- The four hexadecimal digits of a code unit. -/
def SpellsUnit (n : Nat) (cs : List Char) : Prop :=
  n < 0x10000 ∧ List.Forall₂ HexDigit [n / 0x1000, n / 0x100 % 16, n / 16 % 16, n % 16] cs

theorem hexDigit?_of_hexDigit {v : Nat} {c : Char} (hv : v < 16) (h : HexDigit v c) :
    hexDigit? c = some v := by
  have htable : ∀ v < 16,
      hexDigit? v.digitChar = some v ∧ hexDigit? v.digitChar.toUpper = some v := by
    decide
  rcases h with rfl | rfl
  · exact (htable v hv).1
  · exact (htable v hv).2

theorem unit?_append {n : Nat} {cs : List Char} (h : SpellsUnit n cs) (r : List Char) :
    unit? (cs ++ r) = some (n, r) := by
  obtain ⟨hn, hdigits⟩ := h
  simp only [List.forall₂_cons_left_iff, List.forall₂_nil_left_iff] at hdigits
  obtain ⟨a, _, ha, ⟨b, _, hb, ⟨c, _, hc, ⟨d, _, hd, rfl, rfl⟩, rfl⟩, rfl⟩, rfl⟩ := hdigits
  have hvalues : [a, b, c, d].mapM hexDigit? =
      some [n / 0x1000, n / 0x100 % 16, n / 16 % 16, n % 16] := by
    simp [hexDigit?_of_hexDigit (by omega) ha, hexDigit?_of_hexDigit (by omega) hb,
      hexDigit?_of_hexDigit (by omega) hc, hexDigit?_of_hexDigit (by omega) hd]
  have hvalue : ofDigits 16 [n / 0x1000, n / 0x100 % 16, n / 16 % 16, n % 16] = n := by
    simp only [ofDigits, List.foldl_cons, List.foldl_nil]
    omega
  show ([a, b, c, d].mapM hexDigit?).map (fun ds => (ofDigits 16 ds, r)) = some (n, r)
  rw [hvalues, Option.map_some, hvalue]

/-! ### Strings -/

/-- The letters that stand for a character after a backslash, with the character. -/
def letters : List (Char × Char) := [
  ('"', '"'), ('\\', '\\'), ('/', '/'), ('b', Char.ofNat 8), ('f', Char.ofNat 0xC), ('n', '\n'),
  ('r', '\r'), ('t', '\t')]

/-- The characters of a JSON string that stand for a character: the character itself, a letter
after a backslash, the code of the character, or the codes of a surrogate pair. -/
inductive SpellsChar : Char → List Char → Prop
  | plain {c : Char} (hcontrol : 0x20 ≤ c.toNat) (hquote : c ≠ '"') (hslash : c ≠ '\\') :
      SpellsChar c [c]
  | letter {e c : Char} (h : (e, c) ∈ letters) : SpellsChar c ['\\', e]
  | unit {c : Char} {cs : List Char} (h : SpellsUnit c.toNat cs) : SpellsChar c ('\\' :: 'u' :: cs)
  | pair {c : Char} {m n : Nat} {cs ds : List Char} (hm : 0xD800 ≤ m ∧ m ≤ 0xDBFF)
      (hn : 0xDC00 ≤ n ∧ n ≤ 0xDFFF) (hc : c.toNat = 0x10000 + (m - 0xD800) * 0x400 + (n - 0xDC00))
      (hcs : SpellsUnit m cs) (hds : SpellsUnit n ds) :
      SpellsChar c ('\\' :: 'u' :: (cs ++ '\\' :: 'u' :: ds))

/-- The characters of a JSON string that stand for a list of characters. -/
inductive SpellsChars : List Char → List Char → Prop
  | nil : SpellsChars [] []
  | cons {c : Char} {s cs ds : List Char} (h : SpellsChar c cs) (hs : SpellsChars s ds) :
      SpellsChars (c :: s) (cs ++ ds)

/-- A JSON string for the text, with its quotes. -/
def SpellsString (s : String) (cs : List Char) : Prop :=
  ∃ body, SpellsChars s.toList body ∧ cs = '"' :: (body ++ ['"'])

/-- The code of a character is no half of a surrogate pair. -/
theorem ofUnit_toNat (c : Char) (r : List Char) : ofUnit c.toNat r = (c, r) := by
  have hvalid : c.toNat < 0xD800 ∨ 0xDFFF < c.toNat := by
    rcases c.valid with h | h
    · exact .inl h
    · exact .inr h.1
  unfold ofUnit
  rw [if_neg (by omega), if_neg (by omega), Char.ofNat_toNat]

theorem ofUnit_pair {c : Char} {m n : Nat} {ds : List Char} (hm : 0xD800 ≤ m ∧ m ≤ 0xDBFF)
    (hn : 0xDC00 ≤ n ∧ n ≤ 0xDFFF) (hc : c.toNat = 0x10000 + (m - 0xD800) * 0x400 + (n - 0xDC00))
    (hds : SpellsUnit n ds) (r : List Char) :
    ofUnit m ('\\' :: 'u' :: (ds ++ r)) = (c, r) := by
  unfold ofUnit
  rw [if_pos hm]
  simp only [unit?_append hds r, if_pos hn, ← hc, Char.ofNat_toNat]

/-- A code after a backslash is read as its character. -/
theorem parseString_code {n : Nat} {cs r rest : List Char} {c : Char} (h : SpellsUnit n cs)
    (hc : ofUnit n r = (c, rest)) (fuel : Nat) :
    parseString (fuel + 1) ('\\' :: 'u' :: (cs ++ r)) =
      (parseString fuel rest).map fun e : List Char × List Char => (c :: e.1, e.2) := by
  rw [parseString.eq_def]
  dsimp only
  rw [if_neg (by decide), if_neg (by decide), if_pos rfl]
  simp only [unit?_append h r, hc]

/-- One character of a string is read, however it is written. -/
theorem parseString_char {c : Char} {cs : List Char} (h : SpellsChar c cs) (fuel : Nat)
    (r : List Char) :
    parseString (fuel + 1) (cs ++ r) =
      (parseString fuel r).map fun e : List Char × List Char => (c :: e.1, e.2) := by
  cases h with
  | plain hcontrol hquote hslash =>
    rw [List.singleton_append, parseString.eq_def]
    dsimp only
    rw [if_neg hquote, if_neg (by omega), if_neg hslash]
  | letter h =>
    simp only [letters, List.mem_cons, Prod.mk.injEq, List.not_mem_nil, or_false] at h
    rcases h with ⟨rfl, rfl⟩ | ⟨rfl, rfl⟩ | ⟨rfl, rfl⟩ | ⟨rfl, rfl⟩ | ⟨rfl, rfl⟩ | ⟨rfl, rfl⟩ |
      ⟨rfl, rfl⟩ | ⟨rfl, rfl⟩ <;> rfl
  | unit h => exact parseString_code h (ofUnit_toNat c r) fuel
  | pair hm hn hc hcs hds =>
    rw [List.cons_append, List.cons_append, List.append_assoc]
    exact parseString_code hcs (ofUnit_pair hm hn hc hds r) fuel

/-- Every character of a string takes at least one to write. -/
theorem SpellsChar.length_pos {c : Char} {cs : List Char} (h : SpellsChar c cs) :
    0 < cs.length := by
  cases h <;> exact Nat.succ_pos _

/-- **A string is read up to its closing quote**, however its characters are written. -/
theorem parseString_append {s body : List Char} (h : SpellsChars s body) {fuel : Nat}
    (hfuel : body.length < fuel) (r : List Char) :
    parseString fuel (body ++ '"' :: r) = .ok (s, r) := by
  induction h generalizing fuel with
  | nil =>
    obtain ⟨fuel, rfl⟩ := Nat.exists_eq_succ_of_ne_zero (Nat.ne_zero_of_lt hfuel)
    rfl
  | @cons c s cs ds hc hs ih =>
    have hpos := hc.length_pos
    rw [List.length_append] at hfuel
    obtain ⟨fuel, rfl⟩ := Nat.exists_eq_succ_of_ne_zero (Nat.ne_zero_of_lt hfuel)
    rw [List.append_assoc, parseString_char hc, ih (by omega)]
    rfl

/-- A string is read as its text. -/
theorem parseValue_string {s : String} {cs : List Char} (h : SpellsString s cs) (fuel : Nat)
    (r : List Char) : parseValue (fuel + 1) (cs ++ r) = .ok (.text s, r) := by
  obtain ⟨body, hbody, rfl⟩ := h
  have hread : parseString ((body ++ '"' :: r).length + 1) (body ++ '"' :: r) =
      .ok (s.toList, r) := by
    apply parseString_append hbody
    rw [List.length_append]
    omega
  rw [List.cons_append, List.append_assoc, List.singleton_append, parseValue.eq_def]
  show (parseString ((body ++ '"' :: r).length + 1) (body ++ '"' :: r)).map
    (fun e : List Char × List Char => (Value.text (String.ofList e.1), e.2)) = _
  rw [hread]
  show Except.ok (Value.text (String.ofList s.toList), r) = _
  rw [String.ofList_toList]

/-! ### Lists of names -/

/-- White space of a JSON text. -/
def Spaces (cs : List Char) : Prop := ∀ c ∈ cs, isSpace c

/-- A string with white space around it. -/
def SpellsItem (n : String) (cs : List Char) : Prop :=
  ∃ l ds r, Spaces l ∧ Spaces r ∧ SpellsString n ds ∧ cs = l ++ ds ++ r

/-- The strings of a list with commas between them. -/
inductive SpellsItems : List String → List Char → Prop
  | last {n : String} {cs : List Char} (h : SpellsItem n cs) : SpellsItems [n] cs
  | cons {n : String} {ns : List String} {cs ds : List Char} (h : SpellsItem n cs)
      (hns : SpellsItems ns ds) : SpellsItems (n :: ns) (cs ++ ',' :: ds)

/-- A JSON list of strings for the names. -/
inductive SpellsList : List String → List Char → Prop
  | nil {cs : List Char} (h : Spaces cs) : SpellsList [] ('[' :: (cs ++ [']']))
  | items {ns : List String} {cs : List Char} (h : SpellsItems ns cs) :
      SpellsList ns ('[' :: (cs ++ [']']))

/-- A list stands between brackets. -/
theorem SpellsList.eq_brackets {ns : List String} {cs : List Char} (h : SpellsList ns cs) :
    ∃ ds, cs = '[' :: (ds ++ [']']) := by
  cases h with
  | nil _ => exact ⟨_, rfl⟩
  | items _ => exact ⟨_, rfl⟩

theorem dropSpace_append {l : List Char} (hl : Spaces l) {c : Char} (hc : isSpace c = false)
    (r : List Char) : dropSpace (l ++ c :: r) = c :: r := by
  rw [dropSpace, List.dropWhile_append_of_pos hl, List.dropWhile_cons_of_neg (by simp [hc])]

/-- An item is read up to the character after it. -/
theorem SpellsItem.parseValue_eq {n : String} {cs : List Char} (h : SpellsItem n cs) (fuel : Nat)
    {c : Char} (hc : isSpace c = false) (r : List Char) :
    ∃ rest, parseValue (fuel + 1) (dropSpace (cs ++ c :: r)) = .ok (.text n, rest) ∧
      dropSpace rest = c :: r := by
  obtain ⟨l, ds, m, hl, hm, hds, rfl⟩ := h
  have hread := parseValue_string hds fuel (m ++ c :: r)
  obtain ⟨body, -, rfl⟩ := hds
  refine ⟨m ++ c :: r, ?_, dropSpace_append hm hc r⟩
  rw [← hread, List.append_assoc, List.append_assoc, List.cons_append,
    dropSpace_append hl (by decide)]

/-- The items of a list start with a quote. -/
theorem SpellsItems.dropSpace_eq {ns : List String} {cs : List Char} (h : SpellsItems ns cs)
    (r : List Char) : ∃ ds, dropSpace (cs ++ r) = '"' :: ds := by
  have hitem : ∀ {n : String} {ds : List Char}, SpellsItem n ds → ∀ t, ∃ es,
      dropSpace (ds ++ t) = '"' :: es := by
    rintro n _ ⟨l, _, m, hl, -, ⟨body, -, rfl⟩, rfl⟩ t
    have hdrop := dropSpace_append hl (c := '"') (by decide) (body ++ ['"'] ++ (m ++ t))
    exact ⟨_, by simpa [List.append_assoc] using hdrop⟩
  cases h with
  | last h => exact hitem h r
  | cons h _ =>
    rw [List.append_assoc]
    exact hitem h _

theorem parseItems_append {ns : List String} {cs : List Char} (h : SpellsItems ns cs) {fuel : Nat}
    (hfuel : ns.length < fuel) (r : List Char) :
    parseItems fuel (dropSpace (cs ++ ']' :: r)) = .ok (ns.map .text, r) := by
  -- Every item takes one step for itself and one for the value in it.
  induction h generalizing fuel with
  | last h =>
    obtain ⟨fuel, rfl⟩ := Nat.exists_eq_add_of_le' hfuel
    obtain ⟨rest, hread, hrest⟩ := h.parseValue_eq fuel (c := ']') (by decide) r
    show parseItems (fuel + 1 + 1) _ = _
    simp only [parseItems, hread, bind, Except.bind, hrest]
    rfl
  | @cons n ns cs ds h hns ih =>
    obtain ⟨fuel, rfl⟩ := Nat.exists_eq_add_of_le' hfuel
    rw [List.length_cons, Nat.add_succ, Nat.add_succ]
    obtain ⟨rest, hread, hrest⟩ := h.parseValue_eq (fuel + ns.length) (c := ',') (by decide)
      (ds ++ ']' :: r)
    have hitems := ih (show ns.length < fuel + ns.length + 1 by omega)
    rw [List.append_assoc, List.cons_append, parseItems, hread]
    simp only [bind, Except.bind, hrest, hitems]
    rfl

/-- There are no more items than characters. -/
theorem SpellsItems.length_le {ns : List String} {cs : List Char} (h : SpellsItems ns cs) :
    ns.length ≤ cs.length := by
  have hitem : ∀ {n : String} {ds : List Char}, SpellsItem n ds → 0 < ds.length := by
    rintro n _ ⟨l, _, m, -, -, ⟨body, -, rfl⟩, rfl⟩
    simp only [List.length_append, List.length_cons]
    omega
  induction h with
  | last h => exact hitem h
  | cons h _ ih =>
    rw [List.length_cons, List.length_append, List.length_cons]
    omega

theorem parseValue_bracket (fuel : Nat) (cs : List Char) :
    parseValue (fuel + 1) ('[' :: cs) =
      match dropSpace cs with
      | ']' :: rest => .ok (.ofList [], rest)
      | r => (parseItems fuel r).map fun e : List Value × List Char => (.ofList e.1, e.2) := by
  rw [parseValue.eq_def]
  rfl

theorem parseValue_list {ns : List String} {cs : List Char} (h : SpellsList ns cs) {fuel : Nat}
    (hfuel : cs.length ≤ fuel) (r : List Char) :
    parseValue (fuel + 1) (cs ++ r) = .ok (.ofTexts ns, r) := by
  cases h with
  | nil h =>
    rw [List.cons_append, List.append_assoc, List.singleton_append, parseValue_bracket,
      dropSpace_append h (by decide)]
    rfl
  | @items _ cs h =>
    obtain ⟨ds, hds⟩ := h.dropSpace_eq (']' :: r)
    have hlength := h.length_le
    rw [List.length_cons, List.length_append] at hfuel
    have hitems := parseItems_append h (show ns.length < fuel by omega) r
    rw [hds] at hitems
    rw [List.cons_append, List.append_assoc, List.singleton_append, parseValue_bracket, hds]
    show (parseItems fuel ('"' :: ds)).map
      (fun e : List Value × List Char => (Value.ofList e.1, e.2)) = _
    rw [hitems]
    rfl

/-- **A list of strings is read**, however its strings are written. -/
theorem parse_of_spellsList {ns : List String} {s : String} (h : SpellsList ns s.toList) :
    parse s = .ok (.ofTexts ns) := by
  have hstart : dropSpace s.toList = s.toList := by
    obtain ⟨ds, hds⟩ := h.eq_brackets
    rw [hds]
    rfl
  have hread := parseValue_list h
    (show s.toList.length ≤ 2 * s.toList.length + 1 by omega) []
  rw [List.append_nil] at hread
  rw [parse, hstart]
  simp only [bind, Except.bind, hread]
  rfl

/-! ### Writing names -/

theorem exists_spellsUnit {n : Nat} (h : n < 0x10000) : ∃ cs, SpellsUnit n cs :=
  ⟨[(n / 0x1000).digitChar, (n / 0x100 % 16).digitChar, (n / 16 % 16).digitChar,
    (n % 16).digitChar], h, .cons (.inl rfl) (.cons (.inl rfl) (.cons (.inl rfl)
      (.cons (.inl rfl) .nil)))⟩

/-- A character that cannot stand for itself is written with its code. -/
theorem exists_spellsChar (c : Char) : ∃ cs, SpellsChar c cs := by
  by_cases hplain : 0x20 ≤ c.toNat ∧ c ≠ '"' ∧ c ≠ '\\'
  · exact ⟨[c], .plain hplain.1 hplain.2.1 hplain.2.2⟩
  · have hcode : c.toNat < 0x10000 := by
      by_contra hlarge
      refine hplain ⟨by omega, ?_, ?_⟩ <;> rintro rfl <;> exact hlarge (by decide)
    obtain ⟨cs, hcs⟩ := exists_spellsUnit hcode
    exact ⟨_, .unit hcs⟩

theorem exists_spellsItem (n : String) : ∃ cs, SpellsItem n cs := by
  have hbody : ∀ s : List Char, ∃ body, SpellsChars s body := by
    intro s
    induction s with
    | nil => exact ⟨[], .nil⟩
    | cons c s ih =>
      obtain ⟨cs, hcs⟩ := exists_spellsChar c
      obtain ⟨ds, hds⟩ := ih
      exact ⟨_, .cons hcs hds⟩
  obtain ⟨body, hn⟩ := hbody n.toList
  exact ⟨_, [], _, [], by simp [Spaces], by simp [Spaces], ⟨body, hn, rfl⟩, rfl⟩

/-- **Every list of names can be written.** -/
theorem exists_spellsList (ns : List String) : ∃ s : String, SpellsList ns s.toList := by
  have hitems : ∀ n ms, ∃ cs, SpellsItems (n :: ms) cs := by
    intro n ms
    obtain ⟨cs, hcs⟩ := exists_spellsItem n
    induction ms generalizing n cs with
    | nil => exact ⟨cs, .last hcs⟩
    | cons m ms ih =>
      obtain ⟨ds, hds⟩ := exists_spellsItem m
      obtain ⟨es, hes⟩ := ih m ds hds
      exact ⟨_, .cons hcs hes⟩
  rcases ns with _ | ⟨n, ms⟩
  · exact ⟨"[]", .nil (show Spaces [] by simp [Spaces])⟩
  · obtain ⟨cs, hcs⟩ := hitems n ms
    refine ⟨String.ofList ('[' :: (cs ++ [']'])), ?_⟩
    rw [String.toList_ofList]
    exact .items hcs

end DbSchema.Json
