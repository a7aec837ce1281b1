import DbSchema.Proofs.Json
import DbSchema.Proofs.Source.Clustering

/-!
# Forms of clustering columns

The columns that a table is clustered by may be reported as a list of names, as the JSON text of
that list or, if no name has a comma, as the names between commas.  All of these are read as the
same names.  Whatever else is read, its names are trimmed and none of them is empty; but a JSON text
is not read at all if it holds an integer that is too long.

## Main results

* `clusteringColumns_list`, `clusteringColumns_listText`, `clusteringColumns_joined` — the three
  forms are read as the names.
* `normalised_of_clusteringColumns` — names that were read are normalised.
* `clusteringForms_agree` — these together, with the values that cannot be read.
-/

namespace DbSchema.Source

variable {shown : Ref → String} {names : List String}

/-! ### Lists -/

theorem trimmedTexts_eq (texts : List String) : trimmedTexts texts = normalizeNames texts := rfl

theorem namesOfItems_texts (hn : Normalised names) :
    namesOfItems shown (names.map .text) = .ok names := by
  have htexts : (names.map Value.text).mapM (Value.toText shown) = .ok names := by
    clear hn
    induction names with
    | nil => rfl
    | cons n r ih =>
      have hn : (Value.text n).toText shown = .ok n := by
        simp [Value.toText, Value.showFault?, Value.walkFault?, Value.plain]
      rw [List.map_cons, List.mapM_cons, hn, ih]
      rfl
  rw [namesOfItems, htexts]
  show Except.ok (trimmedTexts names) = _
  rw [trimmedTexts_eq, normalizeNames_eq_self hn]

/-- The names of a list are read as they are. -/
theorem clusteringColumns_list (hn : Normalised names) (m : Mark) :
    clusteringColumns shown (.list (names.map .text) m) = .ok names := by
  unfold clusteringColumns
  split
  · next h =>
    rcases names with _ | ⟨n, r⟩
    · rfl
    · simp [Value.truthy] at h
  · exact namesOfItems_texts hn

/-! ### JSON texts -/

/-- The JSON text of a list is read as the names, whatever blanks stand around it. -/
theorem clusteringColumns_listText (hn : Normalised names) {t s : String}
    (ht : Json.SpellsList names t.toList) (hs : Padded t s) :
    clusteringColumns shown (.text s) = .ok names := by
  obtain ⟨cs, hcs⟩ := ht.eq_brackets
  obtain ⟨hbracketed, htrim⟩ := isBracketed_of_toList hcs
  rw [clusteringColumns_text, hs.trim_eq, htrim, namesOfText, if_pos hbracketed,
    Json.parse_of_spellsList ht]
  exact namesOfItems_texts hn

/-! ### Names between commas -/

/-- Names between commas do not stand between brackets if the first one does not begin with one. -/
theorem not_isBracketed_of_joined {s : String} (hs : Joined names s) (hn : Normalised names)
    (hfirst : ∀ n ∈ names.head?, n.toList.head? ≠ some '[') :
    isBracketed (Text.trim s) = false := by
  have hhead : (Text.trim s).toList.head? ≠ some '[' := by
    rcases names with _ | ⟨n, names⟩
    · have hblank : Text.trim s = "" := by
        obtain ⟨pieces, hpieces, hs⟩ := hs
        rw [List.forall₂_nil_left_iff.mp hpieces] at hs
        exact hs.trim_eq
      rw [hblank]
      decide
    · obtain ⟨htrim, hne⟩ := hn n List.mem_cons_self
      rw [hs.head?_trim htrim hne]
      exact hfirst n rfl
  rw [isBracketed, Bool.and_eq_false_iff]
  left
  by_contra hstart
  rw [Bool.not_eq_false, Text.hasStart, Text.startsWith_iff] at hstart
  obtain ⟨r, hr⟩ := hstart
  rw [← hr] at hhead
  exact hhead rfl

/-- Names between commas are read, whatever blanks stand around them. -/
theorem clusteringColumns_joined {s : String} (hs : Joined names s) (hn : Normalised names)
    (hc : ∀ n ∈ names, ',' ∉ n.toList)
    (hfirst : ∀ n ∈ names.head?, n.toList.head? ≠ some '[') :
    clusteringColumns shown (.text s) = .ok names := by
  have hbracketed : isBracketed (Text.trim s) = false := not_isBracketed_of_joined hs hn hfirst
  rw [clusteringColumns_text, namesOfText, if_neg (by simp [hbracketed]), trimmedTexts_eq,
    ← (padded_trim s).normalizeNames_splitOn, hs.normalizeNames_splitOn hn hc]

/-! ### What is read -/

/-- Names that were read from the items of a list are normalised. -/
theorem normalised_of_namesOfItems {items : List Value} (h : namesOfItems shown items = .ok names) :
    Normalised names := by
  rw [namesOfItems] at h
  rcases hm : items.mapM (Value.toText shown) with f | texts <;> rw [hm] at h <;> cases h
  exact normalised_normalizeNames texts

/-- Names that were read from a text are normalised. -/
theorem normalised_of_namesOfText {s : String} (h : namesOfText shown s = .ok names) :
    Normalised names := by
  have hpieces := normalised_normalizeNames (Text.splitOn ',' s)
  rw [namesOfText] at h
  split at h
  · split at h
    · exact normalised_of_namesOfItems h
    · cases h
      exact hpieces
    · cases h
      exact hpieces
    · cases h
  · cases h
    exact hpieces

/-- **Names that were read are trimmed, and none of them is empty**, whatever they were read
from. -/
theorem normalised_of_clusteringColumns {v : Value} (h : clusteringColumns shown v = .ok names) :
    Normalised names := by
  rcases clusteringColumns_cases shown v with hnone | ⟨items, m, -, hitems⟩ | htext
  · rw [hnone] at h
    cases h
    exact normalised_nil
  · rw [hitems] at h
    exact normalised_of_namesOfItems h
  · rw [htext] at h
    rcases ht : v.toText shown with f | s
    · rw [ht] at h
      cases h
    · have hok : v.toText shown = pure s := ht
      rw [hok, pure_bind] at h
      exact normalised_of_namesOfText h

/-! ### All forms -/

/-- **All forms of clustering columns are read alike.**  Names are read from their list and from
every JSON text of it; names without commas, the first of which does not begin with a bracket, are
read from every text of them between commas.  Whatever value names are read from, they are trimmed
and none of them is empty.  A value is not read only if it holds an integer without a text or if its
text is a JSON text with an integer that is too long, and no other text is refused. -/
theorem clusteringForms_agree (shown : Ref → String) :
    (∀ names, Normalised names →
      (∀ m, clusteringColumns shown (.list (names.map .text) m) = .ok names) ∧
      ∀ t s, Json.SpellsList names t.toList → Padded t s →
        clusteringColumns shown (.text s) = .ok names) ∧
    (∀ names s, Normalised names → (∀ n ∈ names, ',' ∉ n.toList) →
      (∀ n ∈ names.head?, n.toList.head? ≠ some '[') → Joined names s →
        clusteringColumns shown (.text s) = .ok names) ∧
    (∀ v names, clusteringColumns shown v = .ok names → Normalised names) ∧
    (∀ v f, clusteringColumns shown v = .error f →
      f = .unwritableInteger ∨ ∃ n, Number.maxDigits < n ∧ f = .longInteger n) ∧
    ∀ s f, clusteringColumns shown (.text s) = .error f ↔
      isBracketed (Text.trim s) ∧ Json.parse (Text.trim s) = .error (.fault f) := by
  refine ⟨fun names hn => ⟨fun m => ?_, fun t s ht hs => ?_⟩, fun names s hn hc hfirst hs => ?_,
    fun v names h => ?_, fun v f h => ?_, fun s f => ?_⟩
  · exact clusteringColumns_list hn m
  · exact clusteringColumns_listText hn ht hs
  · exact clusteringColumns_joined hs hn hc hfirst
  · exact normalised_of_clusteringColumns h
  · exact fault_of_clusteringColumns h
  · rw [clusteringColumns_text]
    exact namesOfText_eq_error_iff

/-- Two names, one of which has a comma that is written with its code, and a list with an integer
that is too long. -/
theorem clusteringForms_agree_regions :
    Normalised ["a,b", "c"] ∧
    Json.SpellsList ["a,b", "c"] "[\"a\\u002Cb\" ,\"c\"]".toList ∧
    clusteringColumns (fun _ => "") (.text " [\"a\\u002Cb\" ,\"c\"]\n") = .ok ["a,b", "c"] ∧
    Joined ["region", "id"] "region , id" ∧
    clusteringColumns (fun _ => "") (.text "region , id") = .ok ["region", "id"] ∧
    clusteringColumns (fun _ => "") (.text (Json.longList 4301)) = .error (.longInteger 4301) ∧
    Number.maxDigits < 4301 := by
  have hn : Normalised ["a,b", "c"] := by decide
  have ht : Json.SpellsList ["a,b", "c"] "[\"a\\u002Cb\" ,\"c\"]".toList := by
    have hcomma : Json.SpellsUnit ','.toNat ['0', '0', '2', 'C'] :=
      ⟨by decide, .cons (.inl rfl) (.cons (.inl rfl) (.cons (.inl rfl) (.cons (.inr (by decide))
        .nil)))⟩
    have hplain : ∀ {c : Char}, 0x20 ≤ c.toNat ∧ c ≠ '"' ∧ c ≠ '\\' → Json.SpellsChar c [c] :=
      fun h => .plain h.1 h.2.1 h.2.2
    have hcoded : Json.SpellsString "a,b" "\"a\\u002Cb\"".toList :=
      ⟨_, .cons (hplain (by decide)) (.cons (.unit hcomma) (.cons (hplain (by decide)) .nil)),
        by decide⟩
    have hfirst : Json.SpellsItem "a,b" "\"a\\u002Cb\" ".toList :=
      ⟨[], _, [' '], by simp [Json.Spaces], by simp [Json.Spaces, Json.isSpace], hcoded, by decide⟩
    have hsecond : Json.SpellsItem "c" "\"c\"".toList :=
      ⟨[], _, [], by simp [Json.Spaces], by simp [Json.Spaces],
        ⟨_, .cons (hplain (by decide)) .nil, rfl⟩, by decide⟩
    exact .items (.cons hfirst (.last hsecond))
  have hs : Joined ["region", "id"] "region , id" :=
    ⟨["region ", " id"], .cons (padded_of_all [] [' '] (by decide))
      (.cons (padded_of_all [' '] [] (by decide)) .nil), padded_of_all [] [] (by decide)⟩
  have hlong := clusterNames_longList (n := 4301) (by decide)
  obtain ⟨hlist, hjoined, -, hfault, -⟩ := clusteringForms_agree fun _ => ""
  refine ⟨hn, ht, (hlist _ hn).2 _ _ ht (padded_of_all [' '] ['\n'] (by decide)), hs,
    hjoined _ _ (by decide) (by decide) (by decide) hs, hlong, ?_⟩
  rcases hfault _ _ hlong with h | ⟨n, hlt, h⟩
  · cases h
  · cases h
    exact hlt

/-- Not every value names columns. -/
theorem not_forall_clusteringColumns :
    ¬ ∀ v : Value, ∃ names, clusteringColumns (fun _ => "") v = .ok names ∧ Normalised names := by
  intro h
  obtain ⟨names, hread, -⟩ := h (.text (Json.longList 4301))
  have hlong : clusteringColumns (fun _ => "") (.text (Json.longList 4301)) =
      .error (.longInteger 4301) := clusterNames_longList (by decide)
  rw [hlong] at hread
  cases hread

end DbSchema.Source
