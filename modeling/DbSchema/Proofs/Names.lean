import DbSchema.Names
import Mathlib.Data.List.DropRight
import Mathlib.Data.List.Forall2

/-!
# Normalised names

Trimming and normalising leave alone what they made themselves, so a list of names that was read
once is read again as the same list.

## Main definitions

* `Trimmed s` — trimming leaves `s` alone.
* `Normalised ns` — a list of trimmed names, none of them empty.
* `Padded s p` — `p` is `s` with blanks around it.
* `Joined ns s` — `s` is the names with commas between them and blanks around each.

## Main results

* `trimmed_trim` — what was trimmed is trimmed.
* `splitChars_intercalate` — pieces that were put together are taken apart again.
* `normalised_normalizeNames`, `normalizeNames_eq_self` — normalising gives such lists and leaves
  them alone.
* `Joined.normalizeNames_splitOn` — names that were joined by commas are read back.
* `splitNames_texts` — a list of texts is read as the normalised list.
-/

namespace DbSchema

open Text

/-! ### Trimming -/

namespace Text

theorem trimEnd_prefix (cs : List Char) : trimEnd cs <+: cs := by
  have h : cs.reverse.dropWhile isBlank <:+ cs.reverse := List.dropWhile_suffix isBlank
  rw [trimEnd]
  simpa using List.reverse_prefix.mpr h

theorem trimEnd_trimEnd (cs : List Char) : trimEnd (trimEnd cs) = trimEnd cs :=
  List.rdropWhile_idempotent isBlank cs

theorem trimStart_trimStart (cs : List Char) : trimStart (trimStart cs) = trimStart cs :=
  List.dropWhile_idempotent isBlank cs

/-- What has no blank at its front has none there after losing those at its back. -/
theorem trimStart_trimEnd {cs : List Char} (h : trimStart cs = cs) :
    trimStart (trimEnd cs) = trimEnd cs := by
  obtain ⟨r, hr⟩ := trimEnd_prefix cs
  rcases he : trimEnd cs with _ | ⟨c, l⟩
  · rfl
  · rw [he] at hr
    have hc : isBlank c = false := by
      rw [← hr, trimStart, List.cons_append] at h
      by_contra hb
      rw [List.dropWhile_cons_of_pos (by simpa using hb)] at h
      have hle := (List.dropWhile_suffix isBlank (l := l ++ r)).length_le
      rw [h, List.length_cons] at hle
      omega
    rw [trimStart, List.dropWhile_cons_of_neg (by simp [hc])]

theorem trimChars_trimChars (cs : List Char) : trimChars (trimChars cs) = trimChars cs := by
  rw [trimChars, trimChars, trimStart_trimEnd (trimStart_trimStart cs), trimEnd_trimEnd]

/-- What trimming leaves alone has no blank at either end. -/
theorem trimChars_eq_self_iff {cs : List Char} :
    trimChars cs = cs ↔ trimStart cs = cs ∧ trimEnd cs = cs := by
  refine ⟨fun h => ?_, fun ⟨hs, he⟩ => by rw [trimChars, hs, he]⟩
  have hs : trimStart cs = cs := by
    have hend := trimEnd_prefix (trimStart cs)
    refine (List.dropWhile_suffix isBlank).eq_of_length_le ?_
    calc cs.length = (trimChars cs).length := by rw [h]
      _ ≤ (trimStart cs).length := hend.length_le
  exact ⟨hs, by rwa [trimChars, hs] at h⟩

/-- A list with a character that is not blank is not trimmed to nothing. -/
theorem trimChars_ne_nil {cs : List Char} {c : Char} (hc : c ∈ cs) (hb : isBlank c = false) :
    trimChars cs ≠ [] := by
  have hstart : c ∈ trimStart cs := by
    rw [← List.takeWhile_append_dropWhile (p := isBlank) (l := cs)] at hc
    rcases List.mem_append.mp hc with h | h
    · exact absurd (List.mem_takeWhile_imp h) (by simp [hb])
    · exact h
  intro h
  exact absurd (List.rdropWhile_eq_nil_iff.mp h c hstart) (by simp [hb])

/-- What loses nothing at its ends is what is left of it between characters that are lost. -/
theorem rdropWhile_dropWhile_between {p : Char → Bool} {l cs r : List Char}
    (hl : ∀ c ∈ l, p c) (hr : ∀ c ∈ r, p c) (hstart : cs.dropWhile p = cs)
    (hend : cs.rdropWhile p = cs) (hne : cs ≠ []) :
    ((l ++ cs ++ r).dropWhile p).rdropWhile p = cs := by
  have hfront : (l ++ cs ++ r).dropWhile p = cs ++ r := by
    rw [List.append_assoc, List.dropWhile_append_of_pos hl]
    refine List.dropWhile_eq_self_iff.mpr fun _ => ?_
    rw [List.getElem_append_left (List.length_pos_of_ne_nil hne)]
    exact List.dropWhile_eq_self_iff.mp hstart _
  rw [hfront, List.rdropWhile, List.reverse_append,
    List.dropWhile_append_of_pos (by simpa using hr)]
  exact hend

/-- What has no character that is lost is what is left of it. -/
theorem rdropWhile_dropWhile_of_none {p : Char → Bool} {l cs r : List Char}
    (hl : ∀ c ∈ l, p c) (hr : ∀ c ∈ r, p c) (hcs : ∀ c ∈ cs, p c = false) (hne : cs ≠ []) :
    ((l ++ cs ++ r).dropWhile p).rdropWhile p = cs := by
  refine rdropWhile_dropWhile_between hl hr (List.dropWhile_eq_self_iff.mpr fun _ => ?_)
    (List.rdropWhile_eq_self_iff.mpr fun h => ?_) hne
  · rw [hcs _ (List.getElem_mem _)]
    exact Bool.false_ne_true
  · rw [hcs _ (List.getLast_mem h)]
    exact Bool.false_ne_true

/-- Blanks around a trimmed text are trimmed off. -/
theorem trimChars_between {l cs r : List Char} (hl : ∀ c ∈ l, isBlank c)
    (hr : ∀ c ∈ r, isBlank c) (h : trimChars cs = cs) (hne : cs ≠ []) :
    trimChars (l ++ cs ++ r) = cs :=
  rdropWhile_dropWhile_between hl hr (trimChars_eq_self_iff.mp h).1 (trimChars_eq_self_iff.mp h).2
    hne

/-- The first character that is not blank comes first after trimming. -/
theorem head?_trimChars {l : List Char} (hl : ∀ c ∈ l, isBlank c) {c : Char}
    (hc : isBlank c = false) (r : List Char) : (trimChars (l ++ c :: r)).head? = some c := by
  have hstart : trimStart (l ++ c :: r) = c :: r := by
    rw [trimStart, List.dropWhile_append_of_pos hl, List.dropWhile_cons_of_neg (by simp [hc])]
  have hne : trimChars (l ++ c :: r) ≠ [] :=
    trimChars_ne_nil (List.mem_append_right l List.mem_cons_self) hc
  have hprefix := trimEnd_prefix (c :: r)
  rw [trimChars, hstart] at hne ⊢
  obtain ⟨d, ds, hds⟩ := List.exists_cons_of_ne_nil hne
  rw [hds] at hprefix ⊢
  rw [(List.cons_prefix_cons.mp hprefix).1, List.head?_cons]

/-- A list is trimmed to nothing exactly if it is blank. -/
theorem trimChars_eq_nil_iff {cs : List Char} : trimChars cs = [] ↔ ∀ c ∈ cs, isBlank c := by
  constructor
  · intro h c hc
    by_contra hb
    exact trimChars_ne_nil hc (by simpa using hb) h
  · intro h
    have hstart : trimStart cs = [] := List.dropWhile_eq_nil_iff.mpr h
    rw [trimChars, hstart]
    rfl

/-- The second list is the first one with blanks around it. -/
def Pads (cs ps : List Char) : Prop :=
  ∃ l r, (∀ c ∈ l, isBlank c) ∧ (∀ c ∈ r, isBlank c) ∧ ps = l ++ cs ++ r

theorem trimChars_blank_append {l : List Char} (hl : ∀ c ∈ l, isBlank c) (cs : List Char) :
    trimChars (l ++ cs) = trimChars cs := by
  rw [trimChars, trimChars, trimStart, trimStart, List.dropWhile_append_of_pos hl]

theorem trimChars_append_blank {r : List Char} (hr : ∀ c ∈ r, isBlank c) (cs : List Char) :
    trimChars (cs ++ r) = trimChars cs := by
  by_cases hblank : ∀ c ∈ cs, isBlank c
  · rw [trimChars_eq_nil_iff.mpr hblank, trimChars_eq_nil_iff]
    exact List.forall_mem_append.mpr ⟨hblank, hr⟩
  · push Not at hblank
    obtain ⟨c, hc, hb⟩ := hblank
    have hstart : trimStart (cs ++ r) = trimStart cs ++ r := by
      rw [trimStart, trimStart, List.dropWhile_append, if_neg]
      rw [List.isEmpty_iff, List.dropWhile_eq_nil_iff]
      exact fun h => hb (h c hc)
    have hback : ∀ ds, trimEnd (ds ++ r) = trimEnd ds := by
      intro ds
      rw [trimEnd, trimEnd, List.reverse_append, List.dropWhile_append_of_pos (by simpa using hr)]
    rw [trimChars, trimChars, hstart, hback]

/-- Blanks around a list of characters are trimmed off it. -/
theorem Pads.trimChars_eq {cs ps : List Char} (h : Pads cs ps) : trimChars ps = trimChars cs := by
  obtain ⟨l, r, hl, hr, rfl⟩ := h
  rw [trimChars_append_blank hr, trimChars_blank_append hl]

theorem splitChars_cons (sep c : Char) (r : List Char) : splitChars sep (c :: r) =
    if c = sep then [] :: splitChars sep r
    else
      match splitChars sep r with
      | [] => [[c]]
      | piece :: pieces => (c :: piece) :: pieces := rfl

/-- A text without the separator is one piece. -/
theorem splitChars_of_not_mem {sep : Char} {cs : List Char} (h : sep ∉ cs) :
    splitChars sep cs = [cs] := by
  induction cs with
  | nil => rfl
  | cons c r ih =>
    rw [List.mem_cons, not_or] at h
    rw [splitChars_cons, if_neg (Ne.symm h.1), ih h.2]

/-- The first piece ends at the first separator. -/
theorem splitChars_append {sep : Char} {piece : List Char} (h : sep ∉ piece) (rest : List Char) :
    splitChars sep (piece ++ sep :: rest) = piece :: splitChars sep rest := by
  induction piece with
  | nil => rw [List.nil_append, splitChars_cons, if_pos rfl]
  | cons c r ih =>
    rw [List.mem_cons, not_or] at h
    rw [List.cons_append, splitChars_cons, if_neg (Ne.symm h.1), ih h.2]

/-- Pieces that were put together are taken apart again. -/
theorem splitChars_intercalate {sep : Char} {pieces : List (List Char)} (hne : pieces ≠ [])
    (h : ∀ piece ∈ pieces, sep ∉ piece) :
    splitChars sep ([sep].intercalate pieces) = pieces := by
  induction pieces with
  | nil => exact absurd rfl hne
  | cons piece r ih =>
    have hpiece := h piece List.mem_cons_self
    cases r with
    | nil => rw [List.intercalate_singleton, splitChars_of_not_mem hpiece]
    | cons piece' r =>
      have hrest := ih (List.cons_ne_nil _ _) fun q hq => h q (List.mem_cons_of_mem _ hq)
      rw [List.intercalate_cons_cons, List.append_assoc, List.singleton_append,
        splitChars_append hpiece, hrest]

/-- What stands in front of a text belongs to its first piece. -/
theorem exists_splitChars_append_left {sep : Char} {l : List Char} (h : sep ∉ l) (cs : List Char) :
    ∃ p ps, splitChars sep cs = p :: ps ∧ splitChars sep (l ++ cs) = (l ++ p) :: ps := by
  induction l with
  | nil =>
    cases cs with
    | nil => exact ⟨[], [], rfl, rfl⟩
    | cons c r =>
      rw [List.nil_append, splitChars_cons]
      split
      · exact ⟨_, _, rfl, rfl⟩
      · split <;> exact ⟨_, _, rfl, rfl⟩
  | cons c r ih =>
    rw [List.mem_cons, not_or] at h
    obtain ⟨p, ps, hcs, hrest⟩ := ih h.2
    refine ⟨p, ps, hcs, ?_⟩
    rw [List.cons_append, splitChars_cons, if_neg (Ne.symm h.1), hrest]
    rfl

/-- What stands behind a text belongs to its last piece. -/
theorem exists_splitChars_append_right {sep : Char} {r : List Char} (h : sep ∉ r) (cs : List Char) :
    ∃ ps p, splitChars sep cs = ps ++ [p] ∧ splitChars sep (cs ++ r) = ps ++ [p ++ r] := by
  induction cs with
  | nil => exact ⟨[], [], rfl, splitChars_of_not_mem h⟩
  | cons c cs ih =>
    obtain ⟨ps, p, hcs, hrest⟩ := ih
    rw [List.cons_append, splitChars_cons, splitChars_cons, hcs, hrest]
    split
    · exact ⟨[] :: ps, p, rfl, rfl⟩
    · cases ps with
      | nil => exact ⟨[], c :: p, rfl, rfl⟩
      | cons q qs => exact ⟨(c :: q) :: qs, p, rfl, rfl⟩

/-- Blanks around a text do not change its pieces, once these are trimmed. -/
theorem Pads.map_trimChars_splitChars {sep : Char} (hsep : isBlank sep = false)
    {cs ps : List Char} (h : Pads cs ps) :
    (splitChars sep ps).map trimChars = (splitChars sep cs).map trimChars := by
  obtain ⟨l, r, hl, hr, rfl⟩ := h
  have hmem : ∀ {ds : List Char}, (∀ c ∈ ds, isBlank c) → sep ∉ ds := fun hds h =>
    Bool.false_ne_true (hsep.symm.trans (hds sep h))
  obtain ⟨init, last, hcs, hback⟩ := exists_splitChars_append_right (hmem hr) (l ++ cs)
  obtain ⟨first, rest, hcs', hfront⟩ := exists_splitChars_append_left (hmem hl) cs
  have hboth := hcs.symm.trans hfront
  rw [hback, List.map_append, List.map_singleton, trimChars_append_blank hr, ← List.map_singleton,
    ← List.map_append, hboth, hcs', List.map_cons, List.map_cons, trimChars_blank_append hl]

/-- A piece has characters of the whole, and the separator is none of them. -/
theorem mem_splitChars {sep : Char} {cs piece : List Char} (h : piece ∈ splitChars sep cs) :
    sep ∉ piece ∧ piece ⊆ cs := by
  induction cs generalizing piece with
  | nil =>
    cases List.mem_singleton.mp h
    exact ⟨List.not_mem_nil, List.Subset.refl _⟩
  | cons c r ih =>
    rw [splitChars_cons] at h
    split at h
    · rcases List.mem_cons.mp h with rfl | h
      · exact ⟨List.not_mem_nil, List.nil_subset _⟩
      · exact ⟨(ih h).1, List.Subset.trans (ih h).2 (List.subset_cons_self _ _)⟩
    · next hc =>
      split at h
      · cases List.mem_singleton.mp h
        exact ⟨by simpa using Ne.symm hc, by simp⟩
      · next p pieces hpieces =>
        rw [hpieces] at ih
        rcases List.mem_cons.mp h with rfl | h
        · have hp := ih List.mem_cons_self
          exact ⟨by simp [Ne.symm hc, hp.1], List.cons_subset_cons c hp.2⟩
        · have hp := ih (List.mem_cons_of_mem _ h)
          exact ⟨hp.1, List.Subset.trans hp.2 (List.subset_cons_self _ _)⟩

end Text

/-- Trimming leaves the text alone. -/
def Trimmed (s : String) : Prop := trim s = s

instance : DecidablePred Trimmed := fun s => inferInstanceAs (Decidable (trim s = s))

theorem trimmed_trim (s : String) : Trimmed (trim s) := by
  rw [Trimmed, trim, trim, String.toList_ofList, trimChars_trimChars]

theorem trimmed_empty : Trimmed "" := rfl

theorem trimmed_iff {s : String} : Trimmed s ↔ trimChars s.toList = s.toList := by
  rw [Trimmed, trim, ← String.toList_inj, String.toList_ofList]

/-- What stands between trimmed texts that are not empty does not matter. -/
theorem Trimmed.around {r s : String} (hr : Trimmed r) (hs : Trimmed s) (hr' : r ≠ "")
    (hs' : s ≠ "") (m : String) : Trimmed (r ++ m ++ s) := by
  rw [trimmed_iff, trimChars_eq_self_iff] at hr hs ⊢
  rw [← String.toList_inj.ne, String.toList_empty] at hr' hs'
  rw [String.toList_append, String.toList_append]
  refine ⟨List.dropWhile_eq_self_iff.mpr fun _ => ?_, List.rdropWhile_eq_self_iff.mpr fun _ => ?_⟩
  · simp only [List.append_assoc]
    rw [List.getElem_append_left (List.length_pos_of_ne_nil hr')]
    exact List.dropWhile_eq_self_iff.mp hr.1 _
  · rw [List.getLast_append_of_ne_nil _ hs']
    exact List.rdropWhile_eq_self_iff.mp hs.2 hs'

/-- A text is trimmed to nothing exactly if it is blank. -/
theorem trim_eq_empty_iff {s : String} : trim s = "" ↔ ∀ c ∈ s.toList, isBlank c := by
  rw [trim, ← String.toList_inj, String.toList_ofList, String.toList_empty, trimChars_eq_nil_iff]

theorem trim_ne_empty {s : String} {c : Char} (hc : c ∈ s.toList) (hb : isBlank c = false) :
    trim s ≠ "" := by
  intro h
  rw [trim, ← String.toList_inj, String.toList_ofList] at h
  exact trimChars_ne_nil hc hb h

/-! ### Lists of names -/

/-- A list of trimmed names, none of them empty. -/
def Normalised (names : List String) : Prop := ∀ n ∈ names, Trimmed n ∧ n ≠ ""

instance : DecidablePred Normalised := fun names =>
  inferInstanceAs (Decidable (∀ n ∈ names, Trimmed n ∧ n ≠ ""))

theorem normalised_nil : Normalised [] := by
  intro n hn
  simp at hn

theorem Normalised.append {ms ns : List String} (hm : Normalised ms) (hn : Normalised ns) :
    Normalised (ms ++ ns) := by
  intro n h
  rcases List.mem_append.mp h with h | h
  · exact hm n h
  · exact hn n h

theorem normalised_normalizeNames (names : List String) : Normalised (normalizeNames names) := by
  intro n hn
  obtain ⟨hmem, hne⟩ := List.mem_filter.mp hn
  obtain ⟨m, -, rfl⟩ := List.mem_map.mp hmem
  exact ⟨trimmed_trim m, by simpa using hne⟩

/-- Normalising leaves a normalised list alone. -/
theorem normalizeNames_eq_self {names : List String} (h : Normalised names) :
    normalizeNames names = names := by
  induction names with
  | nil => rfl
  | cons n r ih =>
    have hn := h n List.mem_cons_self
    have hr : normalizeNames r = r := ih fun m hm => h m (List.mem_cons_of_mem n hm)
    rw [normalizeNames, List.map_cons, show trim n = n from hn.1,
      List.filter_cons_of_pos (by simpa using hn.2)]
    exact congrArg (n :: ·) hr

/-- Names that are not blank are trimmed one by one. -/
theorem normalizeNames_eq_map {names : List String} (h : ∀ n ∈ names, trim n ≠ "") :
    normalizeNames names = names.map trim := by
  refine List.filter_eq_self.mpr fun s hs => ?_
  obtain ⟨n, hn, rfl⟩ := List.mem_map.mp hs
  simpa using h n hn

/-- Names that are empty beforehand may be left out. -/
theorem normalizeNames_filter (names : List String) :
    normalizeNames (names.filter (· ≠ "")) = normalizeNames names := by
  induction names with
  | nil => rfl
  | cons n r ih =>
    rw [normalizeNames, normalizeNames] at ih ⊢
    by_cases hn : n = ""
    · rw [List.filter_cons_of_neg (by simpa using hn), ih, List.map_cons, hn,
        show trim "" = "" from trimmed_empty, List.filter_cons_of_neg (by simp)]
    · rw [List.filter_cons_of_pos (by simpa using hn), List.map_cons, List.map_cons,
        List.filter_cons, List.filter_cons, ih]

theorem normalizeNames_append (xs ys : List String) :
    normalizeNames (xs ++ ys) = normalizeNames xs ++ normalizeNames ys := by
  rw [normalizeNames, List.map_append, List.filter_append]
  rfl

/-! ### Names between commas -/

/-- Names that were joined by commas are taken apart again. -/
theorem splitOn_intercalate {xs : List String} (hne : xs ≠ []) (h : ∀ x ∈ xs, ',' ∉ x.toList) :
    splitOn ',' (",".intercalate xs) = xs := by
  have hpieces : splitChars ',' ([','].intercalate (xs.map String.toList)) = xs.map String.toList :=
    splitChars_intercalate (by simpa using hne) (by simpa using h)
  have hcomma : ",".toList = [','] := rfl
  rw [splitOn, String.toList_intercalate, hcomma, hpieces, List.map_map]
  simp [Function.comp_def]

/-- The second text is the first one with blanks around it. -/
def Padded (s p : String) : Prop := Pads s.toList p.toList

/-- A text between blanks is padded, as a check that computes. -/
theorem padded_of_all {s p : String} (l r : List Char)
    (h : l.all isBlank ∧ r.all isBlank ∧ p.toList = l ++ s.toList ++ r) : Padded s p :=
  ⟨l, r, List.all_eq_true.mp h.1, List.all_eq_true.mp h.2.1, h.2.2⟩

theorem Padded.trim_eq {s p : String} (h : Padded s p) : trim p = trim s := by
  rw [trim, trim, h.trimChars_eq]

/-- A text is what is left of it without the blanks around it, with these blanks. -/
theorem padded_trim (s : String) : Padded (trim s) s := by
  have hstart := List.takeWhile_append_dropWhile (p := isBlank) (l := s.toList)
  have hback := List.rdropWhile_append_rtakeWhile (p := isBlank) (l := trimStart s.toList)
  refine ⟨s.toList.takeWhile isBlank, (trimStart s.toList).rtakeWhile isBlank,
    fun c hc => List.mem_takeWhile_imp hc, fun c hc => List.mem_rtakeWhile_imp hc, ?_⟩
  calc s.toList = s.toList.takeWhile isBlank ++ trimStart s.toList := hstart.symm
    _ = s.toList.takeWhile isBlank ++ (trimChars s.toList ++
          (trimStart s.toList).rtakeWhile isBlank) := congrArg _ hback.symm
    _ = _ := by rw [trim, String.toList_ofList, List.append_assoc]

/-- Blanks around a text do not change the names in it. -/
theorem Padded.normalizeNames_splitOn {s p : String} (h : Padded s p) :
    normalizeNames (splitOn ',' p) = normalizeNames (splitOn ',' s) := by
  have hmap : ∀ t : String, (splitOn ',' t).map trim =
      ((splitChars ',' t.toList).map trimChars).map String.ofList := by
    intro t
    rw [splitOn, List.map_map, List.map_map]
    exact List.map_congr_left fun cs _ => by
      rw [Function.comp_apply, Function.comp_apply, trim, String.toList_ofList]
  rw [normalizeNames, normalizeNames, hmap, hmap, h.map_trimChars_splitChars (by decide)]

/-- The names joined by commas, with blanks around each of them and around the whole. -/
def Joined (names : List String) (s : String) : Prop :=
  ∃ pieces, List.Forall₂ Padded names pieces ∧ Padded (",".intercalate pieces) s

/-- Blanks around a name bring no comma into it. -/
theorem Padded.comma_not_mem {n p : String} (h : Padded n p) (hc : ',' ∉ n.toList) :
    ',' ∉ p.toList := by
  obtain ⟨l, r, hl, hr, hp⟩ := h
  have hblank : isBlank ',' = false := by decide
  intro hmem
  rw [hp, List.mem_append, List.mem_append] at hmem
  rcases hmem with (hmem | hmem) | hmem
  · exact Bool.false_ne_true (hblank.symm.trans (hl _ hmem))
  · exact hc hmem
  · exact Bool.false_ne_true (hblank.symm.trans (hr _ hmem))

/-- Names that were joined by commas begin with the first name, once they are trimmed. -/
theorem Joined.head?_trim {n : String} {names : List String} {s : String}
    (h : Joined (n :: names) s) (hn : Trimmed n) (hne : n ≠ "") :
    (trim s).toList.head? = n.toList.head? := by
  obtain ⟨pieces, hpieces, l', r', hl', -, hs⟩ := h
  obtain ⟨p, more, ⟨l, r, hl, -, hp⟩, -, rfl⟩ := List.forall₂_cons_left_iff.mp hpieces
  obtain ⟨c, cs, hcs⟩ := List.exists_cons_of_ne_nil (String.toList_inj.ne.mpr hne)
  have hc : isBlank c = false := by
    have hstart := (trimChars_eq_self_iff.mp (trimmed_iff.mp hn)).1
    rw [hcs, trimStart, List.dropWhile_eq_self_iff] at hstart
    simpa using hstart (Nat.succ_pos _)
  obtain ⟨rest, hrest⟩ : ∃ rest, (",".intercalate (p :: more)).toList = p.toList ++ rest := by
    rw [String.toList_intercalate, List.map_cons]
    rcases more with _ | ⟨q, more⟩
    · exact ⟨[], by simp⟩
    · exact ⟨_, List.intercalate_cons_cons.trans (List.append_assoc _ _ _)⟩
  have hall : s.toList = (l' ++ l) ++ c :: (cs ++ r ++ rest ++ r') := by
    rw [hs, hrest, hp, hcs]
    simp [List.append_assoc]
  rw [trim, String.toList_ofList, hall, hcs,
    head?_trimChars (List.forall_mem_append.mpr ⟨hl', hl⟩) hc, List.head?_cons]

/-- **Names that were joined by commas are read back**, whatever blanks stand around them. -/
theorem Joined.normalizeNames_splitOn {names : List String} {s : String} (h : Joined names s)
    (hn : Normalised names) (hc : ∀ n ∈ names, ',' ∉ n.toList) :
    normalizeNames (splitOn ',' s) = names := by
  obtain ⟨pieces, hpieces, hs⟩ := h
  rw [hs.normalizeNames_splitOn]
  have hread : pieces.map trim = names ∧ ∀ p ∈ pieces, ',' ∉ p.toList := by
    clear hs
    induction hpieces with
    | nil => exact ⟨rfl, by simp⟩
    | cons hp _ ih =>
      obtain ⟨ihtrim, ihcomma⟩ := ih (fun n hmem => hn n (List.mem_cons_of_mem _ hmem))
        fun n hmem => hc n (List.mem_cons_of_mem _ hmem)
      refine ⟨?_, List.forall_mem_cons.mpr ⟨?_, ihcomma⟩⟩
      · rw [List.map_cons, ihtrim, hp.trim_eq, show trim _ = _ from (hn _ List.mem_cons_self).1]
      · exact hp.comma_not_mem (hc _ List.mem_cons_self)
  rcases pieces with _ | ⟨p, pieces⟩
  · rw [← hread.1]
    decide
  · rw [splitOn_intercalate (List.cons_ne_nil p pieces) hread.2, normalizeNames, hread.1]
    exact List.filter_eq_self.mpr fun n hmem => by simpa using (hn n hmem).2

/-! ### Lists of texts -/

theorem textsOf_map_text (names : List String) : textsOf (names.map .text) = .ok names := by
  induction names with
  | nil => rfl
  | cons n r ih => rw [List.map_cons, textsOf, ih]; rfl

/-- A list of texts is read as the normalised list. -/
theorem splitNames_texts (names : List String) (m : Mark) :
    splitNames [.list (names.map .text) m] = .ok (normalizeNames names) := by
  simp only [splitNames, gatherNames, namesOf, textsOf_map_text]
  simp [bind, Except.bind, pure, Except.pure, Except.map]

/-- A trimmed text without commas is read as one name. -/
theorem splitNames_text {s : String} (hs : Trimmed s) (hne : s ≠ "") (hc : ',' ∉ s.toList) :
    splitNames [.text s] = .ok [s] := by
  have hnames : normalizeNames [s] = [s] :=
    normalizeNames_eq_self fun n hn => List.mem_singleton.mp hn ▸ ⟨hs, hne⟩
  have hpieces : splitOn ',' s = [s] := by
    rw [splitOn, splitChars_of_not_mem hc, List.map_singleton, String.ofList_toList]
  simp only [splitNames, gatherNames, namesOf, hpieces]
  simp [bind, Except.bind, pure, Except.pure, Except.map, hnames]

/-- Whatever arguments names are read from, they are normalised. -/
theorem normalised_of_splitNames {values : List Value} {names : List String}
    (h : splitNames values = .ok names) : Normalised names := by
  rw [splitNames] at h
  rcases hg : gatherNames values with r | ns <;> rw [hg] at h
  · cases h
  · cases h
    exact normalised_normalizeNames ns

end DbSchema
