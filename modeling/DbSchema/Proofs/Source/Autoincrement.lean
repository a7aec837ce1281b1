import DbSchema.Proofs.Source.PragmaTables
import DbSchema.Proofs.Source.SqlWords

/-!
# Columns that count up by themselves

Whether the single integer column of a primary key counts up by itself is told by a keyword in the
text that the table was made with.  It is looked for in the upper case of the text, wherever it
occurs there.  So the column is told to count up whenever the keyword is there, but also when a
string, a quoted name, a comment or a longer word contains it.

## Main definitions

* `TableReport.isIntegerKey` — whether a column is the whole primary key and an integer.
* `TableReport.fieldsWith` — the fields, of which such a column counts up or not.

## Main results

* `fieldsWith_eq_iff` — when it makes a difference whether the key counts up.
* `readTable_of_source` — what is read, and when the keyword decides.
-/

namespace DbSchema.Source.Pragmas

open Sql

/-- The keyword of columns that count up by themselves. -/
def countingKeyword : String := "AUTOINCREMENT"

theorem countingKeyword_wordChars : ∀ c ∈ countingKeyword.toList, isWordChar c := by
  rw [← List.all_eq_true]
  decide

theorem countingKeyword_ascii : ∀ c ∈ countingKeyword.toList, c.toNat < 0x80 := by
  have hall : countingKeyword.toList.all (fun c => c.toNat < 0x80) = true := by decide
  exact fun c hc => of_decide_eq_true (List.all_eq_true.mp hall c hc)

/-- A statement with the keyword has a word that mentions it. -/
theorem exists_mentions_of_hasKeyword {s : String} (h : hasKeyword countingKeyword s) :
    ∃ w ∈ words s, w.mentions countingKeyword := by
  obtain ⟨w, hw, hkeyword⟩ := List.any_eq_true.mp h
  exact ⟨w, hw, mentions_of_isKeyword countingKeyword_ascii hkeyword⟩

namespace TableReport

variable {d : TableReport}

/-- Whether a column is the whole primary key and an integer. -/
def isIntegerKey (d : TableReport) (x : ColumnReport) : Bool :=
  d.key.map (·.name) == [x.name] && Text.upper x.fieldType == "INTEGER"

/-- The descriptions of the fields, of which an integer that is the whole key counts up or not. -/
def fieldsWith (d : TableReport) (countsUp : Bool) : List FieldSpec :=
  d.columns.map fun x => x.spec (d.isIntegerKey x && countsUp)

/-- The key counts up if the text has a word that mentions the keyword. -/
theorem fields_eq_fieldsWith {s : String} (hs : d.source = some s) :
    d.fields = d.fieldsWith ((words s).any (·.mentions countingKeyword)) := by
  have hfound : Text.occursIn countingKeyword (Text.upper s) =
      (words s).any (·.mentions countingKeyword) := by
    rw [Bool.eq_iff_iff, occursIn_upper_iff countingKeyword_wordChars (by decide), List.any_eq_true]
  refine List.map_congr_left fun x _ => ?_
  rw [countsUp, hs, Option.any_some, isIntegerKey, ← hfound]
  rfl

/-- It makes a difference whether the key counts up if it is a single integer column. -/
theorem fieldsWith_eq_iff {a b : Bool} :
    d.fieldsWith a = d.fieldsWith b ↔ ((∃ x ∈ d.columns, d.isIntegerKey x) → a = b) := by
  rw [fieldsWith, fieldsWith, List.map_inj_left]
  constructor
  · rintro h ⟨x, hx, hkey⟩
    have hcounts := congrArg FieldSpec.autoIncrement (h x hx)
    simpa [ColumnReport.spec, hkey] using hcounts
  · intro h x hx
    by_cases hkey : d.isIntegerKey x
    · rw [h ⟨x, hx, hkey⟩]
    · simp [hkey]

/-- The fields are those of the keyword exactly if each mention of it comes with the keyword, or
there is no single integer column that could count up. -/
theorem fields_eq_iff {s : String} (hs : d.source = some s) :
    d.fields = d.fieldsWith (hasKeyword countingKeyword s) ↔
      ((∃ x ∈ d.columns, d.isIntegerKey x) → ∀ w ∈ words s, w.mentions countingKeyword →
        hasKeyword countingKeyword s) := by
  rw [fields_eq_fieldsWith hs, fieldsWith_eq_iff]
  refine imp_congr_right fun _ => ?_
  rw [Bool.eq_iff_iff, List.any_eq_true]
  exact ⟨fun h w hw hmentions => h.mp ⟨w, hw, hmentions⟩,
    fun h => ⟨fun ⟨w, hw, hmentions⟩ => h w hw hmentions, exists_mentions_of_hasKeyword⟩⟩

end TableReport

variable {c : Connection} {d : TableReport} {mentions : List (ReferenceReport × ReferencePart)}

/-- **A single integer key column counts up if a word of the text mentions the keyword**, and no
other field ever does.  So it always does where the text has the keyword.  The keyword decides alone
if, and only if, no text without it has a word that mentions it. -/
theorem readTable_of_source (hd : d.Sound) (hc : Tells c d mentions) {s : String}
    (hs : d.source = some s) (σ : Session) :
    ∃ t σ', outcome (readTable c (.text d.name)) σ = (.ok t, σ') ∧
      σ.store.Extends σ'.store ∧ σ.store.tables.size ≤ t.index ∧
      (σ'.store.outline t).fields =
        d.fieldsWith ((words s).any (·.mentions countingKeyword)) ∧
      (hasKeyword countingKeyword s →
        (σ'.store.outline t).fields = d.fieldsWith (hasKeyword countingKeyword s)) ∧
      ((σ'.store.outline t).fields = d.fieldsWith (hasKeyword countingKeyword s) ↔
        ((∃ x ∈ d.columns, d.isIntegerKey x) → ∀ w ∈ words s, w.mentions countingKeyword →
          hasKeyword countingKeyword s)) := by
  obtain ⟨t, σ', ho, hdraft⟩ := exists_readTable hd hc σ
  have hfields : (σ'.store.outline t).fields = d.fields :=
    congrArg TableOutline.fields hdraft.outline
  refine ⟨t, σ', ho, hdraft.building.old, hdraft.building.new, ?_, fun hkeyword => ?_, ?_⟩ <;>
    rw [hfields]
  · exact TableReport.fields_eq_fieldsWith hs
  · exact (TableReport.fields_eq_iff hs).mpr fun _ _ _ _ => hkeyword
  · exact TableReport.fields_eq_iff hs

theorem splitType_integer : splitType (.text "INTEGER") = .ok ("INTEGER", []) := rfl

/-- A table whose text has the keyword in a string only. -/
def modes : TableReport where
  name := "t"
  columns := [
    { name := "id", declared := .text "INTEGER", dataType := "INTEGER", size := [],
      typed := splitType_integer, notNull := .int 0, default := .null, position := 1 },
    { name := "mode", declared := .text "TEXT", dataType := "TEXT", size := [], typed := rfl,
      notNull := .int 0, default := .text "'autoincrement'", position := 0 }]
  indices := []
  references := []
  source := some "CREATE TABLE t (id INTEGER PRIMARY KEY, mode TEXT DEFAULT 'autoincrement')"

/-- The row of the text that a table was made with. -/
def sourceRow (s : String) : Row := .ofCells [("sql", .text s)]

theorem shows_sourceRow (s : String) : (sourceRow s).Shows [("sql", .text s)] :=
  Row.shows_ofCells (by simp)

/-- What a database that holds the table answers to the statements about it. -/
def modesAnswers : List (String × List Row) :=
  [(statement "table_info" (quoteIdentifier "t"), modes.columns.map (·.row)),
    (statement "index_list" (quoteIdentifier "t"), []),
    (statement "foreign_key_list" (quoteIdentifier "t"), []),
    (sourceStatement, modes.source.toList.map sourceRow)]

theorem sound_modes : modes.Sound where
  columns := by decide
  normalised := by
    simp only [modes, Normalised, Trimmed, List.map_cons, List.map_nil]
    decide
  places := by decide
  indexNames := by simp [modes]
  indexColumns := by simp [modes]
  ids := by simp [modes]
  parts := by simp [modes]

theorem tells_modes : Tells (answering modesAnswers) modes [] := by
  have hn : (modesAnswers.map (·.1)).Nodup := by decide
  exact
    { columns := ⟨_, answers_answering hn (.head _) _, forall₂_map_row ColumnReport.tells_row _⟩
      source := ⟨_, answers_answering hn (.tail _ (.tail _ (.tail _ (.head _)))) _,
        forall₂_map_row shows_sourceRow _⟩
      indices := ⟨_, answers_answering hn (.tail _ (.head _)) _, .nil⟩
      indexColumns := by simp [modes]
      references := ⟨_, answers_answering hn (.tail _ (.tail _ (.head _))) _, .nil⟩
      mentioned := .refl _ }

/-- The text of the table mentions the keyword, but does not have it. -/
theorem mentions_modes :
    ∃ s, modes.source = some s ∧ (words s).any (·.mentions countingKeyword) = true ∧
      hasKeyword countingKeyword s = false ∧ ∃ x ∈ modes.columns, modes.isIntegerKey x := by
  -- the characters of the text first: the kernel is slow to take them out of it
  refine ⟨_, rfl, ?_, ?_, _, .head _, by decide⟩
  · rw [words, String.toList_ofList]
    decide +kernel
  · rw [hasKeyword, words, String.toList_ofList]
    decide +kernel

/-- The key of the table is told to count up, though the text does not have the keyword. -/
theorem readTable_of_source_modes :
    ∃ t σ', outcome (readTable (answering modesAnswers) (.text "t")) {} = (.ok t, σ') ∧
      (σ'.store.outline t).fields = modes.fieldsWith true ∧
      (σ'.store.outline t).fields ≠ modes.fieldsWith false := by
  obtain ⟨s, hs, hmentions, hkeyword, hkey⟩ := mentions_modes
  obtain ⟨t, σ', ho, -, -, hfields, -, -⟩ := readTable_of_source sound_modes tells_modes hs {}
  rw [hmentions] at hfields
  refine ⟨t, σ', ho, hfields, fun h => ?_⟩
  rw [hfields, TableReport.fieldsWith_eq_iff] at h
  cases h hkey

/-- It is not so that a key is told to count up exactly if the text has the keyword. -/
theorem not_hasKeyword_modes :
    ¬ ∀ (c : Connection) (d : TableReport) (mentions : List (ReferenceReport × ReferencePart))
      (s : String) (σ σ' : Session) (t : TableId), d.Sound → Tells c d mentions →
      d.source = some s → outcome (readTable c (.text d.name)) σ = (.ok t, σ') →
      (σ'.store.outline t).fields = d.fieldsWith (hasKeyword countingKeyword s) := by
  intro h
  obtain ⟨s, hs, hmentions, hkeyword, hkey⟩ := mentions_modes
  obtain ⟨t, σ', ho, hdraft⟩ := exists_readTable sound_modes tells_modes {}
  have hfields := h _ modes [] s {} σ' t sound_modes tells_modes hs ho
  rw [hdraft.outline] at hfields
  have hcounts : modes.fieldsWith true = modes.fieldsWith false := by
    rw [← hmentions, ← TableReport.fields_eq_fieldsWith hs, ← hkeyword]
    exact hfields
  cases TableReport.fieldsWith_eq_iff.mp hcounts hkey

end DbSchema.Source.Pragmas
