import DbSchema.Text.Percent
import Mathlib.Tactic.Common

/-!
# Texts and their spellings

A text is spelled by characters that stand for themselves and by escapes of the bytes of the others.
Whatever is escaped beyond need, and in whichever case its digits are written, the text is read back
from the spelling.  Its parts fit between the delimiters of an address, since none of them is used.

## Main definitions

* `bytesOf c` — the bytes of a character.
* `StandsAlone c` — the character may stand for itself.
* `Spells cs p` — the characters `p` spell the text `cs`.
* `percentEncode` — the spelling in which only letters, digits and four marks stand for themselves.

## Main results

* `decodeUtf8_flatMap_bytesOf` — characters are read back from their bytes.
* `percentDecode_of_spells` — a text is read back from each of its spellings.
* `Spells.fits` — spellings have no delimiters.
* `spells_percentEncode` — every text has a spelling.
-/

namespace DbSchema.Text

open Number

/-! ### Characters and their bytes -/

/-- The bytes of a character. -/
def bytesOf (c : Char) : List Nat := (String.utf8EncodeChar c).map UInt8.toNat

/-- The value of bits with those of further bytes behind them. -/
def gather (value : Nat) (tail : List Nat) : Nat :=
  tail.foldl (fun v b => v * 64 + (b - 0x80)) value

/-- Six bits of the code point go into each byte but the first, whose upper bits say how many
follow. -/
theorem bytesOf_eq (c : Char) :
    bytesOf c =
      if c.toNat ≤ 0x7F then [c.toNat]
      else if c.toNat ≤ 0x7FF then [c.toNat / 64 % 32 + 0xC0, c.toNat % 64 + 0x80]
      else if c.toNat ≤ 0xFFFF then
        [c.toNat / 4096 % 16 + 0xE0, c.toNat / 64 % 64 + 0x80, c.toNat % 64 + 0x80]
      else
        [c.toNat / 262144 % 8 + 0xF0, c.toNat / 4096 % 64 + 0x80, c.toNat / 64 % 64 + 0x80,
          c.toNat % 64 + 0x80] := by
  have hbyte : ∀ n < 256, (UInt8.ofNat n).toNat = n := fun n hn => by
    rw [UInt8.toNat_ofNat', Nat.mod_eq_of_lt hn]
  rw [bytesOf, String.utf8EncodeChar, show c.val.toNat = c.toNat from rfl]
  split_ifs
  all_goals
    simp only [List.map_cons, List.map_nil]
    repeat rw [hbyte _ (by omega)]

theorem bytesOf_of_ascii {c : Char} (h : c.toNat < 0x80) : bytesOf c = [c.toNat] := by
  rw [bytesOf_eq, if_pos (Nat.le_of_lt_succ h)]

theorem leadByte?_two {b : Nat} (hlo : 0xC2 ≤ b) (hhi : b ≤ 0xDF) :
    leadByte? b = some ⟨1, b - 0xC0, 0x80, 0xBF⟩ := by
  rw [leadByte?, if_pos ⟨hlo, hhi⟩]

/-- The second byte has a smaller range where shorter forms and surrogates would be. -/
theorem leadByte?_three {b : Nat} (hlo : 0xE0 ≤ b) (hhi : b ≤ 0xEF) :
    leadByte? b = some ⟨2, b - 0xE0, if b = 0xE0 then 0xA0 else 0x80,
      if b = 0xED then 0x9F else 0xBF⟩ := by
  rw [leadByte?, if_neg (by omega)]
  by_cases hshort : b = 0xE0
  · subst hshort
    rfl
  by_cases hsurrogates : b = 0xED
  · subst hsurrogates
    rfl
  rw [if_neg hshort, if_neg hsurrogates, if_pos ⟨by omega, hhi⟩, if_neg hshort, if_neg hsurrogates]

/-- The second byte has a smaller range where shorter forms would be, and above all characters. -/
theorem leadByte?_four {b : Nat} (hlo : 0xF0 ≤ b) (hhi : b ≤ 0xF4) :
    leadByte? b = some ⟨3, b - 0xF0, if b = 0xF0 then 0x90 else 0x80,
      if b = 0xF4 then 0x8F else 0xBF⟩ := by
  rw [leadByte?, if_neg (by omega), if_neg (by omega), if_neg (by omega), if_neg (by omega)]
  by_cases hshort : b = 0xF0
  · subst hshort
    rfl
  by_cases habove : b = 0xF4
  · subst habove
    rfl
  rw [if_neg hshort, if_neg habove, if_pos ⟨by omega, by omega⟩, if_neg hshort, if_neg habove]

theorem completeChar_succ {value least most n b : Nat} (h : least ≤ b ∧ b ≤ most) (r : List Nat) :
    completeChar value least most (n + 1) (b :: r) =
      ((completeChar (value * 64 + (b - 0x80)) 0x80 0xBF n r).1,
        (completeChar (value * 64 + (b - 0x80)) 0x80 0xBF n r).2 + 1) := by
  simp only [completeChar]
  rw [if_pos h]

/-- The bytes after the second one may be any that are not the first of a character. -/
theorem completeChar_append (value : Nat) {tail : List Nat} (h : ∀ b ∈ tail, 0x80 ≤ b ∧ b ≤ 0xBF)
    (r : List Nat) :
    completeChar value 0x80 0xBF tail.length (tail ++ r) =
      (some (Char.ofNat (gather value tail)), tail.length) := by
  induction tail generalizing value with
  | nil => rfl
  | cons b tail ih =>
    have hrest := ih (value * 64 + (b - 0x80)) fun x hx => h x (List.mem_cons_of_mem b hx)
    rw [List.length_cons, List.cons_append, completeChar_succ (h b List.mem_cons_self), hrest,
      gather, gather, List.foldl_cons]

/-- A character of more than one byte is read from the first, the second, whose range the first one
says, and the others. -/
theorem decodeBytes_of_lead {b second : Nat} (tail : List Nat) {lead : LeadByte} {c : Char}
    (hb : 0x80 ≤ b) (hlead : leadByte? b = some lead) (hlength : lead.following = tail.length + 1)
    (hsecond : lead.least ≤ second ∧ second ≤ lead.most)
    (htail : ∀ x ∈ tail, 0x80 ≤ x ∧ x ≤ 0xBF) (hvalue : gather lead.bits (second :: tail) = c.toNat)
    (fuel : Nat) (r : List Nat) :
    decodeBytes (fuel + 1) (b :: second :: (tail ++ r)) = c :: decodeBytes fuel r := by
  have hchar : completeChar lead.bits lead.least lead.most lead.following (second :: (tail ++ r)) =
      (some c, tail.length + 1) := by
    rw [hlength, completeChar_succ hsecond, completeChar_append _ htail, ← Char.ofNat_toNat c,
      ← hvalue, gather, gather, List.foldl_cons]
  simp only [decodeBytes]
  rw [if_neg (Nat.not_lt.mpr hb), hlead]
  dsimp only
  rw [hchar]
  simp

/-- **A character is read back from its bytes.** -/
theorem decodeBytes_bytesOf (c : Char) (fuel : Nat) (r : List Nat) :
    decodeBytes (fuel + 1) (bytesOf c ++ r) = c :: decodeBytes fuel r := by
  have hvalid : c.toNat < 0xD800 ∨ 0xDFFF < c.toNat ∧ c.toNat < 0x110000 := c.valid
  rw [bytesOf_eq]
  -- a character has one, two, three or four bytes
  split_ifs with hone htwo hthree
  · simp only [List.cons_append, List.nil_append, decodeBytes]
    rw [if_pos (Nat.lt_succ_of_le hone), Char.ofNat_toNat]
  · refine decodeBytes_of_lead [] (by omega) (leadByte?_two (by omega) (by omega)) rfl
      ⟨?_, ?_⟩ (by simp) ?_ fuel r <;> dsimp only [gather, List.foldl]
    all_goals omega
  · refine decodeBytes_of_lead [_] (by omega) (leadByte?_three (by omega) (by omega))
      rfl ⟨?_, ?_⟩ ?_ ?_ fuel r
    · dsimp only
      split_ifs <;> omega
    · dsimp only
      split_ifs <;> omega
    · simp only [List.mem_cons, List.not_mem_nil, or_false, forall_eq]
      omega
    · dsimp only [gather, List.foldl]
      omega
  · refine decodeBytes_of_lead [_, _] (by omega) (leadByte?_four (by omega) (by omega))
      rfl ⟨?_, ?_⟩ ?_ ?_ fuel r
    · dsimp only
      split_ifs <;> omega
    · dsimp only
      split_ifs <;> omega
    · simp only [List.mem_cons, List.not_mem_nil, or_false, forall_eq_or_imp, forall_eq]
      omega
    · dsimp only [gather, List.foldl]
      omega

theorem length_le_flatMap_bytesOf (cs : List Char) : cs.length ≤ (cs.flatMap bytesOf).length := by
  induction cs with
  | nil => exact Nat.le_refl 0
  | cons c cs ih =>
    have hpos : 0 < (bytesOf c).length := by
      rw [bytesOf, List.length_map, String.length_utf8EncodeChar]
      exact Char.utf8Size_pos c
    rw [List.flatMap_cons, List.length_append, List.length_cons]
    omega

/-- **Characters are read back from their bytes.** -/
theorem decodeUtf8_flatMap_bytesOf (cs : List Char) : decodeUtf8 (cs.flatMap bytesOf) = cs := by
  have hfuel : ∀ fuel, cs.length ≤ fuel → decodeBytes fuel (cs.flatMap bytesOf) = cs := by
    induction cs with
    | nil => exact fun fuel _ => by cases fuel <;> rfl
    | cons c cs ih =>
      rintro (_ | fuel) hle
      · cases hle
      · rw [List.flatMap_cons, decodeBytes_bytesOf, ih fuel (Nat.le_of_succ_le_succ hle)]
  exact hfuel _ (length_le_flatMap_bytesOf cs)

/-! ### Spellings -/

/-- The characters that the parts of an address lie between. -/
def delimiters : List Char := [':', '/', '?', '#', '[', ']', '@']

/-- The character fits into a part of an address: it can be seen, and it delimits nothing. -/
def Fits (c : Char) : Prop := (0x20 < c.toNat ∧ c.toNat < 0x7F) ∧ c ∉ delimiters

instance (c : Char) : Decidable (Fits c) := inferInstanceAs (Decidable (_ ∧ _))

/-- The character may stand for itself: it fits, and it begins no escape. -/
def StandsAlone (c : Char) : Prop := Fits c ∧ c ≠ '%'

instance (c : Char) : Decidable (StandsAlone c) := inferInstanceAs (Decidable (_ ∧ _))

/-- The characters are escapes of the bytes, with digits of either case. -/
inductive Escapes : List Nat → List Char → Prop
  | nil : Escapes [] []
  | cons {x y : Char} {m n : Nat} {bs : List Nat} {e : List Char} (high : hexDigit? x = some m)
    (low : hexDigit? y = some n) (he : Escapes bs e) :
    Escapes ((m * 16 + n) :: bs) ('%' :: x :: y :: e)

/-- The characters spell a text: each of its characters stands for itself, if it may, or its bytes
are escaped. -/
inductive Spells : List Char → List Char → Prop
  | nil : Spells [] []
  | alone {c : Char} {cs p : List Char} (h : StandsAlone c) (hp : Spells cs p) :
    Spells (c :: cs) (c :: p)
  | escaped {c : Char} {cs e p : List Char} (h : Escapes (bytesOf c) e) (hp : Spells cs p) :
    Spells (c :: cs) (e ++ p)

theorem Fits.ascii {c : Char} (h : Fits c) : c.toNat < 0x80 := Nat.lt_succ_of_lt h.1.2

theorem not_mem_of_fits {cs : List Char} (h : ∀ c ∈ cs, Fits c) {d : Char} (hd : d ∈ delimiters) :
    d ∉ cs := fun hmem => (h d hmem).2 hd

/-- Hexadecimal digits fit. -/
theorem fits_of_hexDigit? {c : Char} {n : Nat} (h : hexDigit? c = some n) : Fits c := by
  have htable : ∀ k < 0x80, (hexDigit? (Char.ofNat k)).isSome → Fits (Char.ofNat k) := by
    decide +kernel
  have hascii : c.toNat < 0x80 := by
    rw [hexDigit?] at h
    split_ifs at h with hc
    exact hc
  have hfits := htable c.toNat hascii
  rw [Char.ofNat_toNat, h] at hfits
  exact hfits rfl

theorem Escapes.fits {bs : List Nat} {e : List Char} (h : Escapes bs e) : ∀ c ∈ e, Fits c := by
  induction h with
  | nil => exact fun c hc => absurd hc List.not_mem_nil
  | cons high low _ ih =>
    refine List.forall_mem_cons.mpr ⟨by decide, ?_⟩
    refine List.forall_mem_cons.mpr ⟨fits_of_hexDigit? high, ?_⟩
    exact List.forall_mem_cons.mpr ⟨fits_of_hexDigit? low, ih⟩

/-- **Spellings have no delimiters.** -/
theorem Spells.fits {cs p : List Char} (h : Spells cs p) : ∀ c ∈ p, Fits c := by
  induction h with
  | nil => exact fun c hc => absurd hc List.not_mem_nil
  | alone h _ ih => exact List.forall_mem_cons.mpr ⟨h.1, ih⟩
  | escaped h _ ih => exact List.forall_mem_append.mpr ⟨h.fits, ih⟩

/-! ### Reading spellings -/

theorem percentBytes_cons {c : Char} (h : c ≠ '%') (r : List Char) :
    percentBytes (c :: r) = c.toNat :: percentBytes r := by
  rw [percentBytes]
  rintro a b r' rfl
  exact absurd rfl h

theorem percentBytes_escapes {bs : List Nat} {e : List Char} (h : Escapes bs e) (r : List Char) :
    percentBytes (e ++ r) = bs ++ percentBytes r := by
  induction h with
  | nil => rfl
  | cons high low _ ih => simp only [List.cons_append, percentBytes, high, low, ih]

/-- A spelling has the bytes of the text. -/
theorem percentBytes_of_spells {cs p : List Char} (h : Spells cs p) :
    percentBytes p = cs.flatMap bytesOf := by
  induction h with
  | nil => rfl
  | alone h _ ih =>
    rw [percentBytes_cons h.2, ih, List.flatMap_cons, bytesOf_of_ascii h.1.ascii, List.singleton_append]
  | escaped h _ ih => rw [percentBytes_escapes h, ih, List.flatMap_cons]

/-- ASCII characters are read in one run. -/
theorem percentRuns_of_ascii {p : List Char} (h : ∀ c ∈ p, c.toNat < 0x80) (run : List Char) :
    percentRuns run p = decodeUtf8 (percentBytes (run.reverse ++ p)) := by
  induction p generalizing run with
  | nil => rw [percentRuns, List.append_nil]
  | cons c p ih =>
    rw [percentRuns, if_pos (by simpa [isAscii] using h c List.mem_cons_self),
      ih fun x hx => h x (List.mem_cons_of_mem c hx), List.reverse_cons, List.append_assoc,
      List.singleton_append]

/-- **A text is read back from each of its spellings.** -/
theorem percentDecode_of_spells {s p : String} (h : Spells s.toList p.toList) :
    percentDecode p = s := by
  have hascii : ∀ c ∈ p.toList, c.toNat < 0x80 := fun c hc => (h.fits c hc).ascii
  rw [percentDecode, percentRuns_of_ascii hascii, List.reverse_nil, List.nil_append,
    percentBytes_of_spells h, decodeUtf8_flatMap_bytesOf, String.ofList_toList]

/-! ### A spelling of every text -/

/-- A byte as an escape. -/
def escape (b : Nat) : List Char :=
  ['%', (b / 16).digitChar.toUpper, (b % 16).digitChar.toUpper]

/-- A letter, a digit, or one of the marks that no address uses. -/
def Unreserved (c : Char) : Prop := c.isAlphanum ∨ c ∈ ['-', '.', '_', '~']

instance (c : Char) : Decidable (Unreserved c) := inferInstanceAs (Decidable (_ ∨ _))

/-- The spelling of a text in which all characters are escaped but letters, digits and those
marks. -/
def percentEncode (cs : List Char) : List Char :=
  cs.flatMap fun c => if Unreserved c then [c] else (bytesOf c).flatMap escape

theorem escapes_flatMap_escape {bs : List Nat} (h : ∀ b ∈ bs, b < 256) :
    Escapes bs (bs.flatMap escape) := by
  have htable : ∀ d < 16, hexDigit? d.digitChar.toUpper = some d := by decide
  induction bs with
  | nil => exact .nil
  | cons b bs ih =>
    obtain ⟨hb, hbs⟩ := List.forall_mem_cons.mp h
    have hescapes := Escapes.cons (htable (b / 16) (by omega)) (htable (b % 16) (by omega)) (ih hbs)
    rwa [Nat.div_add_mod'] at hescapes

theorem unreserved_of_isDigit {c : Char} (h : c.isDigit) : Unreserved c :=
  .inl (show (c.isAlpha || c.isDigit) = true by rw [h, Bool.or_true])

theorem toNat_lt_of_isAlphanum {c : Char} (h : c.isAlphanum) : c.toNat < 0x80 := by
  have hparts : ((c.isUpper || c.isLower) || c.isDigit) = true := h
  have hle : ∀ d : Char, d.toNat < 0x80 → c.val ≤ d.val → c.toNat < 0x80 := fun d hd hcd =>
    Nat.lt_of_le_of_lt (UInt32.le_iff_toNat_le.mp hcd) hd
  rcases Bool.or_eq_true_iff.mp hparts with hletter | hdigit
  · rcases Bool.or_eq_true_iff.mp hletter with hupper | hlower
    · exact hle 'Z' (by decide) (of_decide_eq_true hupper).2
    · exact hle 'z' (by decide) (of_decide_eq_true (Bool.and_eq_true_iff.mp hlower).2)
  · exact hle '9' (by decide) (of_decide_eq_true (Bool.and_eq_true_iff.mp hdigit).2)

theorem toNat_lt_of_unreserved {c : Char} (h : Unreserved c) : c.toNat < 0x80 := by
  rcases h with h | h
  · exact toNat_lt_of_isAlphanum h
  · simp only [List.mem_cons, List.not_mem_nil, or_false] at h
    rcases h with rfl | rfl | rfl | rfl <;> decide

theorem standsAlone_of_unreserved {c : Char} (h : Unreserved c) : StandsAlone c := by
  -- all these characters are ASCII, so a table of ASCII is enough
  have htable : ∀ k < 0x80, Unreserved (Char.ofNat k) → StandsAlone (Char.ofNat k) := by
    decide +kernel
  have halone := htable c.toNat (toNat_lt_of_unreserved h)
  rw [Char.ofNat_toNat] at halone
  exact halone h

/-- **Every text has a spelling.** -/
theorem spells_percentEncode (cs : List Char) : Spells cs (percentEncode cs) := by
  have hbytes : ∀ c : Char, ∀ b ∈ bytesOf c, b < 256 := by
    intro c b hb
    obtain ⟨u, -, rfl⟩ := List.mem_map.mp hb
    exact u.toNat_lt
  induction cs with
  | nil => exact .nil
  | cons c cs ih =>
    rw [percentEncode, List.flatMap_cons]
    split_ifs with hc
    · exact .alone (standsAlone_of_unreserved hc) ih
    · exact .escaped (escapes_flatMap_escape (hbytes c)) ih

end DbSchema.Text
