import DbSchema.Proofs.Document.Reread
import DbSchema.Proofs.Folder
import DbSchema.Proofs.Source.Pulled

/-!
# What is pulled is valid when it is checked

A schema that was pulled into a file is checked there: the check succeeds and lists the tables that
were pulled.  Every table that a reader makes is sound, whatever the database answers; a valid
schema of sound tables is written and read again as a valid one; and the file stands where it was
written.

## Main definitions

* `pulled? w given profile` — the schema that is read and found valid.
* `written? w given profile` — the value that is written for it, and its text.
* `ReadsBack text v` — the text is read as the value that it was written for, but for marks.
* `listing st s` — the tables of a schema in a few words.

## Main results

* `runPull_ok` — what a pull into a file has done when it gives no error.
* `check_of_pull` — checking the file lists the tables that were pulled.
-/

namespace DbSchema.Cli

open Source

/-- The schema that is read from a database and found valid, in the store that holds it. -/
def pulled? (w : World) (given : Settings) (profile : Option String) : Option (Store × SchemaId) :=
  match Settings.resolve w.environment w.profiles given profile with
  | .error _ => none
  | .ok settings =>
    match outcome (pull w.access settings) {} with
    | (.error _, _) => none
    | (.ok s, σ) =>
      match outcome (Edit.isValid (.schema s)) σ.store with
      | (.ok true, st) => some (st, s)
      | _ => none

/-- The value that is written for that schema, and its text. -/
def written? (w : World) (given : Settings) (profile : Option String) :
    Option (Value × String) := do
  let (st, s) ← pulled? w given profile
  let v ← (encodeSchema st s).toOption
  let text ← (documentText st v).toOption
  return (v, text)

/-- The text is read as the value that it was written for, but for marks. -/
def ReadsBack (text : String) (v : Value) : Prop :=
  ∃ w ∈ (Yaml.readDocument 0 text).toOption.map (·.1), w.bare = v.bare

instance (text : String) (v : Value) : Decidable (ReadsBack text v) :=
  inferInstanceAs (Decidable (∃ w ∈ (Yaml.readDocument 0 text).toOption.map (·.1),
    w.bare = v.bare))

/-- The tables of a schema in a few words. -/
def listing (st : Store) (s : SchemaId) : String :=
  let tables := (st.schema s).tables.map (·.2)
  linesText (("Validated " ++ toString tables.length ++ " tables:") :: tables.map (tableLine st))

variable {w : World} {verbose : Bool} {given : Settings} {profile : Option String} {place : String}
  {o : Outcome} {st : Store} {s : SchemaId}

/-! ### Pulling -/

theorem pulled?_eq_some_iff :
    pulled? w given profile = some (st, s) ↔
      ∃ settings σ, Settings.resolve w.environment w.profiles given profile = .ok settings ∧
        outcome (pull w.access settings) {} = (.ok s, σ) ∧
        outcome (Edit.isValid (.schema s)) σ.store = (.ok true, st) := by
  rw [pulled?]
  constructor
  · intro h
    rcases hsettings : Settings.resolve w.environment w.profiles given profile with e | settings <;>
      rw [hsettings] at h
    · cases h
    dsimp only at h
    rcases hpull : outcome (pull w.access settings) {} with ⟨e | s', σ⟩ <;> rw [hpull] at h
    · cases h
    dsimp only at h
    rcases hvalid : outcome (Edit.isValid (.schema s')) σ.store with ⟨e | _ | _, st'⟩ <;>
      rw [hvalid] at h <;> cases h
    exact ⟨settings, σ, rfl, hpull, hvalid⟩
  · rintro ⟨settings, σ, hsettings, hpull, hvalid⟩
    rw [hsettings]
    dsimp only
    rw [hpull]
    dsimp only
    rw [hvalid]

/-- A failed reading ends with a code of its own. -/
theorem code_of_reading {told : List String} {shown : Ref → String} {e : SourceError}
    (h : reading w told shown e = .ok o) : o.code ≠ 0 := by
  rw [reading] at h
  split at h
  · cases h
  · split at h <;> cases h <;> simp [givenUp]

/-- The text of the schema stands in a file whose name ends as those of files with schemas do. -/
theorem write_of_save {d d' : Folder} {p : Path} {line : String}
    (hsuffix : fileSuffixes.contains p.suffix) (h : save st s d p = .ok (d', line)) :
    ∃ (v : Value) (text : String) (d₁ : Folder), encodeSchema st s = .ok v ∧
      documentText st v = .ok text ∧ d₁.write p text = .ok d' := by
  rw [save, if_pos hsuffix] at h
  rcases hmake : d.makeFolders p.parent with f | d₁ <;> rw [hmake] at h
  · cases h
  simp only [schemaText, bind, Except.bind] at h
  rcases hv : encodeSchema st s with e | v <;> rw [hv] at h
  · cases h
  dsimp only at h
  rcases htext : documentText st v with e | text <;> rw [htext] at h
  · cases h
  dsimp only at h
  rcases hwrite : d₁.write p text with f | d₂ <;> rw [hwrite] at h <;> cases h
  exact ⟨v, text, d₁, rfl, htext, hwrite⟩

theorem write_of_deliver {told : List String}
    (hsuffix : fileSuffixes.contains (Path.ofText place).suffix)
    (h : deliver w told st s (some place) = .ok o) :
    ∃ (v : Value) (text : String) (d : Folder), encodeSchema st s = .ok v ∧
      documentText st v = .ok text ∧ d.write (.ofText place) text = .ok o.folder := by
  rw [deliver] at h
  rcases hsave : save st s w.folder (.ofText place) with e | ⟨d, line⟩ <;>
    simp only [hsave, bind, Except.bind] at h <;> cases h
  exact write_of_save hsuffix hsave

/-- A schema is delivered only if it was found valid. -/
theorem deliver_of_finish {told : List String} {st₀ : Store} {output : Option String}
    (h : finish w told output st₀ s = .ok o) (hcode : o.code = 0) :
    ∃ st, outcome (Edit.isValid (.schema s)) st₀ = (.ok true, st) ∧
      deliver w told st s output = .ok o := by
  rw [finish] at h
  rcases hvalid : outcome (Edit.isValid (.schema s)) st₀ with ⟨e | _ | _, st⟩ <;>
    rw [show (Edit.isValid (.schema s)).run st₀ = _ from hvalid] at h
  · cases h
  · cases h
    cases hcode
  · refine ⟨st, rfl, ?_⟩
    rcases hdeliver : deliver w told st s output with e | o' <;>
      simp only [hdeliver, Except.mapError] at h <;> cases h
    rfl

/-- A schema that is found valid has passed the checks, and only its notes are changed. -/
theorem checked_of_isValid {st₀ : Store}
    (h : outcome (Edit.isValid (.schema s)) st₀ = (.ok true, st)) :
    checkSchema st₀ s = .ok () ∧ st = st₀.setSchema s
      { st₀.schema s with notes := (st₀.schema s).notes.put errorNote (.text "") } := by
  rw [Edit.isValid, outcome_get_bind] at h
  rcases hcheck : checkSchema st₀ s with e | ⟨⟩ <;> rw [checkObject, hcheck] at h <;>
    dsimp only at h
  · split at h
    · cases h
    · cases h
  · cases h
    exact ⟨rfl, rfl⟩

/-- What a pull into a file has done when it gives no error: a schema was read and found valid, and
its text was written. -/
theorem runPull_ok (hsuffix : fileSuffixes.contains (Path.ofText place).suffix)
    (h : runPull w verbose given profile (some place) = .ok o) (hcode : o.code = 0) :
    ∃ (st : Store) (s : SchemaId) (v : Value) (text : String) (d : Folder),
      pulled? w given profile = some (st, s) ∧ encodeSchema st s = .ok v ∧
      documentText st v = .ok text ∧ d.write (.ofText place) text = .ok o.folder := by
  rw [runPull] at h
  rcases hsettings : Settings.resolve w.environment w.profiles given profile with e | settings <;>
    rw [hsettings] at h
  · exact absurd hcode (code_of_reading h)
  dsimp only at h
  rcases hpull : outcome (pull w.access settings) {} with ⟨e | s, σ⟩ <;>
    rw [show (pull w.access settings).run {} = _ from hpull] at h
  · rcases hread : reading w (told verbose σ.log) σ.store.shown e with x | o' <;>
      simp only [hread, Except.map] at h <;> cases h
    exact absurd hcode (code_of_reading (o := o') hread)
  · rcases hfinish : finish w (told verbose σ.log) (some place) σ.store s with x | o' <;>
      simp only [hfinish, Except.map] at h <;> cases h
    obtain ⟨st, hvalid, hdeliver⟩ := deliver_of_finish hfinish hcode
    obtain ⟨v, text, d, hv, htext, hwrite⟩ := write_of_deliver hsuffix hdeliver
    exact ⟨st, s, v, text, d, pulled?_eq_some_iff.mpr ⟨settings, σ, hsettings, hpull, hvalid⟩, hv,
      htext, hwrite⟩

/-- What is pulled is a valid schema of sound tables, if the names that the database gives are
texts. -/
theorem sound_of_pulled (hnames : ∀ target c, w.access target = .ok c → GivesTexts c)
    (h : pulled? w given profile = some (st, s)) :
    st.SoundSchema s ∧ checkSchema st s = .ok () := by
  obtain ⟨settings, σ, -, hpull, hvalid⟩ := pulled?_eq_some_iff.mp h
  have hsound := pull_sound hnames hpull
  obtain ⟨hok, rfl⟩ := checked_of_isValid hvalid
  exact ⟨hsound.setSchema rfl, checkSchema_ok_setSchema hsound hok rfl⟩

/-! ### Checking -/

/-- A text that is read as the value that a valid schema was written as gives a schema that is
valid, and its tables are told in the same words. -/
theorem loadValid_of_readsBack {d : Folder} {path : Path} {text : String} {v : Value}
    (hsound : st.SoundSchema s) (hok : checkSchema st s = .ok ())
    (hv : encodeSchema st s = .ok v) (hfile : d.entry path = .ok (.file text))
    (hyaml : ReadsBack text v) :
    ∃ s' st', outcome (loadValid d path) .empty = (.ok s', st') ∧
      listing st' s' = listing st s := by
  obtain ⟨u, hu, hbare⟩ := hyaml
  obtain ⟨⟨u, next⟩, hread, rfl⟩ := Option.mem_map.mp hu
  replace hread : Yaml.readDocument 0 text = .ok (u, next) := by
    rcases hdoc : Yaml.readDocument 0 text with e | r <;> rw [hdoc] at hread <;> cases hread
    rfl
  have hparse : outcome (parseText path.text text) .empty =
      (.ok u, { Store.empty with nextNode := next }) := by
    rw [parseText, outcome_get_bind, show Store.empty.nextNode = 0 from rfl, hread]
    rfl
  obtain ⟨s', st', hdecode, hok', hall⟩ :=
    exists_valid_reread hsound hok hv hbare path.text { Store.empty with nextNode := next }
  refine ⟨s', st', ?_, ?_⟩
  · have hload : outcome (loadPath d path) .empty = (.ok s', st') := by
      rw [loadPath, hfile]
      dsimp only
      rw [decodeText, outcome_bind_of_ok hparse, hdecode]
    have hask : outcome (Load.edit (Edit.ask (checkSchema · s'))) st' = (.ok ⟨⟩, st') := by
      rw [Load.edit, outcome_adapt, Edit.outcome_ask, hok']
      rfl
    rw [loadValid, outcome_bind_of_ok hload, outcome_bind_of_ok hask, outcome_pure]
  · have hlines : (st.schema s).tables.map (fun e => tableLine st e.2) =
        (st'.schema s').tables.map fun e => tableLine st' e.2 :=
      List.forall₂_eq_eq_eq ▸ List.forall₂_map_left_iff.mpr (List.forall₂_map_right_iff.mpr
        (hall.imp fun e e' he => Akin.tableLine_eq he))
    simp only [listing, List.map_map, List.length_map, hall.length_eq]
    exact congrArg (fun l => linesText (_ :: l)) hlines.symm

/-- **What is pulled is valid when it is checked.**  The vendor, the settings and the answers of the
database may be any, as long as the names of tables and primary keys are texts, and the text that is
written is read as the value that it was written for.  If a pull into a file gives no error, then
checking that file gives none, and lists the tables that were pulled, in the same order and in the
same words: their names, their primary keys, and how many fields, indices and constraints they
have. -/
theorem check_of_pull (hnames : ∀ target c, w.access target = .ok c → GivesTexts c)
    (hsuffix : fileSuffixes.contains (Path.ofText place).suffix)
    (hyaml : ∀ p ∈ written? w given profile, ReadsBack p.2 p.1)
    (hpull : runPull w verbose given profile (some place) = .ok o) (hcode : o.code = 0) :
    ∃ st s, pulled? w given profile = some (st, s) ∧
      runCheck { w with folder := o.folder } place =
        .ok { code := 0, output := listing st s, folder := o.folder } := by
  obtain ⟨st, s, v, text, d, hpulled, hv, htext, hwrite⟩ := runPull_ok hsuffix hpull hcode
  obtain ⟨hsound, hok⟩ := sound_of_pulled hnames hpulled
  have hwritten : written? w given profile = some (v, text) := by
    rw [written?, hpulled]
    simp only [bind, Option.bind, hv, htext, Except.toOption]
    rfl
  obtain ⟨s', st', hload, hlisting⟩ := loadValid_of_readsBack hsound hok hv
    (Folder.entry_of_write hwrite) (hyaml (v, text) hwritten)
  refine ⟨st, s, hpulled, ?_⟩
  rw [runCheck, show (loadValid o.folder (.ofText place)).run .empty = _ from hload, ← hlisting]
  rfl

/-- A database with one table, whose only column is its primary key. -/
def oneTable : Connection where
  usesCursors := false
  driver := "sqlite3"
  respond _ r :=
    match r with
    | .query sql _ =>
      if sql = Pragmas.listStatement then .rows [{ columns := [(.text "name", .text "users")] }]
      else if sql = Pragmas.statement "table_info" "\"users\"" then
        .rows [{ columns := [(.text "name", .text "id"), (.text "type", .text "integer"),
          (.text "notnull", .int 1), (.text "dflt_value", .null), (.text "pk", .int 1)] }]
      else .rows []
    | _ => .done

theorem givesTexts_oneTable : GivesTexts oneTable := by
  refine givesTexts_of_queries rfl fun past sql params rows hrows row hrow column v hname hv => ?_
  have hcolumn : column = "name" ∨ column = "table_name" ∨ column = "constraint_name" := by
    cases hname <;> simp
  simp only [oneTable] at hrows
  split_ifs at hrows <;> cases hrows
  · rw [List.mem_singleton.mp hrow] at hv
    rcases hcolumn with rfl | rfl | rfl <;> cases hv
    exact ⟨_, rfl⟩
  · rw [List.mem_singleton.mp hrow] at hv
    rcases hcolumn with rfl | rfl | rfl <;> cases hv
    exact ⟨_, rfl⟩
  · cases hrow

/-- An empty folder, from which that database can be reached. -/
def oneTableWorld : World := { access := fun _ => .ok oneTable }

def oneTableSettings : Settings := { dsn := some "sqlite:///shop.db" }

/-- The value that is written for its table. -/
def oneTableValue : Value :=
  .map [(.text "schema", .map [(.text "database", .text "SQLite")] .own),
    (.text "tables", .list [.map [(.text "table", .text "users"),
      (.text "fields", .list [.map [(.text "name", .text "id"), (.text "data_type", .text "integer"),
        (.text "nullable", .bool false)] .own] .own),
      (.text "constraints", .list [.map [(.text "type", .text "PRIMARY KEY"),
        (.text "fields", .list [.text "id"] .own)] .own] .own)] .own] .own)] .own

/-- The text of that value. -/
def oneTableText : String :=
  "schema:\n  database: SQLite\ntables:\n- table: users\n  fields:\n  - name: id\n" ++
    "    data_type: integer\n    nullable: false\n" ++
    "  constraints:\n  - type: PRIMARY KEY\n    fields:\n    - id\n"

theorem written_oneTable : ∀ p ∈ written? oneTableWorld oneTableSettings none,
    p.1.bare = oneTableValue.bare ∧ p.2 = oneTableText := by
  decide +kernel

theorem readsBack_oneTable : ReadsBack oneTableText oneTableValue := by
  -- the kernel is slow to take characters out of a text
  have hchars : oneTableText.toList = _ := Text.toList_pieces _ _ _
  rw [ReadsBack, Yaml.readDocument, hchars]
  decide +kernel

/-- Its table is written to a file and listed from there with its primary key. -/
theorem check_of_pull_one_table :
    ∃ o, runPull oneTableWorld false oneTableSettings none (some "schema.yaml") = .ok o ∧
      o.code = 0 ∧
      runCheck { oneTableWorld with folder := o.folder } "schema.yaml" =
        .ok { code := 0, folder := o.folder,
              output := "Validated 1 tables:\n" ++
                "  - users (1 fields, primary key: id, 1 constraints)\n" } := by
  have hcode : (runPull oneTableWorld false oneTableSettings none
      (some "schema.yaml")).toOption.map (·.code) = some 0 := by decide +kernel
  have hlisting : ∀ p ∈ pulled? oneTableWorld oneTableSettings none, listing p.1 p.2 =
      "Validated 1 tables:\n" ++ "  - users (1 fields, primary key: id, 1 constraints)\n" := by
    decide +kernel
  have hyaml : ∀ p ∈ written? oneTableWorld oneTableSettings none, ReadsBack p.2 p.1 := by
    intro p hp
    obtain ⟨hvalue, htext⟩ := written_oneTable p hp
    rw [htext, ReadsBack, hvalue]
    exact readsBack_oneTable
  rcases hpull : runPull oneTableWorld false oneTableSettings none (some "schema.yaml") with
    e | o <;> rw [hpull] at hcode
  · cases hcode
  have hzero : o.code = 0 := Option.some.inj hcode
  obtain ⟨st, s, hpulled, hcheck⟩ := check_of_pull
    (fun target c hc => by cases hc; exact givesTexts_oneTable) (by decide) hyaml hpull hzero
  exact ⟨o, rfl, hzero, hlisting (st, s) hpulled ▸ hcheck⟩

end DbSchema.Cli
