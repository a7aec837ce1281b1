import DbSchema.Cli.Run
import DbSchema.Proofs.Source.Openings
import DbSchema.Proofs.Source.Wrapping

/-!
# Names that a pull can answer

A database is pulled by its data source name.  If all drivers take what they are called with, the
name decides how the connection ends: one driver opens it, or the configuration is at fault, which
the command tells and answers with a code.  Names that are malformed are the exception.  They are
not told from failures of the program: no category holds what they end with, and the command that
was given one has no outcome.

## Main definitions

* `SourceError.OfConfig` — the configuration is at fault.
* `Names w given profile dsn user password` — what a command gathers names a database, and who asks.
* `Reaches`, `Declines`, `Escapes` — the ways in which a connection by name, and a pull through it,
  end.

## Main results

* `openingOf_answers` — all names but the malformed ones ask for an opening, or blame the
  configuration.
* `answers_unless_malformed` — how a connection and a pull end, by the name.
-/

namespace DbSchema.Source

/-- The configuration is at fault: that is the category of the error, whatever is shown. -/
def SourceError.OfConfig (e : SourceError) : Prop :=
  ∀ shown, ∃ m, e.report? shown = some ⟨.config, m, []⟩

/-- **All names but the malformed ones are answered**: they ask for an opening, or the configuration
is at fault. -/
theorem openingOf_answers (installed : List Vendor) {dsn : String} (user password : Option String)
    (h : ¬ (Dsn.ofText dsn).Malformed) :
    (∃ opening, openingOf installed dsn user password = .ok opening) ∨
    ∃ e, openingOf installed dsn user password = .error e ∧ e.OfConfig := by
  rw [openingOf_eq]
  dsimp only
  rw [if_neg h]
  split_ifs
  · exact .inl ⟨_, rfl⟩
  rcases serverVendor? (Dsn.ofText dsn).scheme with _ | vendor
  · exact .inr ⟨_, rfl, fun _ => ⟨_, rfl⟩⟩
  dsimp only
  split_ifs
  · exact .inl ⟨_, rfl⟩
  · exact .inr ⟨_, rfl, fun _ => ⟨_, rfl⟩⟩

/-! ### The part of a pull that connects -/

section

variable {access access' : Access} {dsn user password : Option String} {settings : Settings}

/-- A filling asks for one connection only, so another way to reach databases that agrees on it
fills alike. -/
theorem fill_congr (h : access (.database (dsn.getD "") user password) =
      access' (.database (dsn.getD "") user password)) (s : SchemaId) (options : Params) :
    fill access s none dsn user password options = fill access' s none dsn user password options := by
  simp only [fill, connect, h]

theorem pull_congr (hplace : settings.usesWorkspace = false)
    (h : access (.database (settings.dsn.getD "") settings.user settings.password) =
      access' (.database (settings.dsn.getD "") settings.user settings.password)) :
    pull access settings = pull access' settings := by
  simp only [pull, hplace, Bool.false_eq_true, if_false, fill_congr h]

/-- What a pull by a name ends with that is refused for the given reason; no text is a name but the
empty one. -/
def refusalOf (dsn : String) (e : SourceError) : SourceError :=
  if dsn = "" then .missingSettings Settings.noTarget else e

/-- A pull that gets no connection ends with the reason; nothing was told, and nothing opened. -/
theorem pull_of_refused {dsn : String} {e : SourceError} (hplace : settings.usesWorkspace = false)
    (hdsn : settings.dsn = some dsn)
    (h : access (.database dsn settings.user settings.password) = .error e) :
    ∃ σ : Session, outcome (pull access settings) {} = (.error (refusalOf dsn e), σ) ∧
      σ.log = [] ∧ σ.opened = [] := by
  rw [pull]
  -- an empty name is found missing before anything is connected to
  by_cases hname : dsn = ""
  · rw [refusalOf, if_pos hname]
    have hcatalog : Settings.isGiven settings.catalog = false := by
      simpa [Settings.usesWorkspace, Settings.isGiven, hdsn, hname] using hplace
    have hcheck : settings.check = .error (.missingSettings Settings.noTarget) := by
      rw [Settings.check, hdsn, hcatalog, hname]
      rfl
    rw [hcheck]
    exact ⟨{}, outcome_throw_bind _ _ _, rfl, rfl⟩
  · rw [refusalOf, if_neg hname]
    have hcheck : settings.check = .ok () := by
      rw [Settings.check, hdsn, if_pos (by simpa [Settings.isGiven] using hname)]
    have hclient : clientOf access none settings.dsn settings.user settings.password = .error e := by
      rw [hdsn, clientOf, Option.getD_some, if_neg hname, h]
    have hoptions : ¬ [settingOption "db_schema" settings.namespaceName].any fun o =>
        fillNames.contains o.1 := by
      simp [settingOption, fillNames]
    rw [hcheck]
    dsimp only [decided]
    rw [outcome_pure_bind, outcome_bind, outcome_edit, Edit.newSchema, Edit.outcome_addSchemaCell]
    dsimp only [Except.mapError]
    rw [hplace, if_neg Bool.false_ne_true, outcome_bind, outcome_discard, fill_eq, outcome_bind,
      reading_of_no_client hoptions hclient]
    exact ⟨_, rfl, rfl, rfl⟩

end

end DbSchema.Source

namespace DbSchema.Cli

open Source

/-- What a command gathers from its arguments, the environment and the profiles names a database,
and who asks. -/
def Names (w : World) (given : Settings) (profile : Option String) (dsn : String)
    (user password : Option String) : Prop :=
  ∃ settings, Settings.resolve w.environment w.profiles given profile = .ok settings ∧
    settings.usesWorkspace = false ∧ settings.dsn = some dsn ∧ settings.user = user ∧
    settings.password = password

section

variable (w : World) (dsn : String) (user password : Option String)

/-- The name asks for an opening.  One driver is called with it, and a pull goes on as with any
other connection to what that driver opens. -/
structure Reaches (installed : List Vendor) (drive : Opening → Connection) (opening : Opening) :
    Prop where
  asked : openingOf installed dsn user password = .ok opening
  connected : w.access (.database dsn user password) = .ok (drive opening)
  pulled : ∀ verbose given profile output, Names w given profile dsn user password →
    runPull w verbose given profile output =
      runPull { w with access := fun _ => .ok (drive opening) } verbose given profile output

/-- The configuration is at fault.  A pull tells so and ends with the code for that, and changes
nothing. -/
structure Declines : Prop where
  refused : ∃ e, w.access (.database dsn user password) = .error e ∧ e.OfConfig
  pulled : ∀ verbose given profile output, Names w given profile dsn user password →
    ∃ m, runPull w verbose given profile output =
      .ok (givenUp w 2 [] ("Configuration error: " ++ m))

/-- What no category describes is heard as it is, and a pull has no outcome. -/
structure Escapes (e : SourceError) : Prop where
  foreign : ∀ shown, e.report? shown = none
  refused : w.access (.database dsn user password) = .error e
  pulled : ∀ verbose given profile output, Names w given profile dsn user password →
    runPull w verbose given profile output = .error e

end

section

variable {w : World} {verbose : Bool} {given : Settings} {profile output : Option String}
  {dsn : String} {user password : Option String}

/-- Another way to reach databases leads to the same, if it agrees on the one that is named. -/
theorem runPull_congr {access : Access} (hnames : Names w given profile dsn user password)
    (h : w.access (.database dsn user password) = access (.database dsn user password)) :
    runPull w verbose given profile output =
      runPull { w with access } verbose given profile output := by
  obtain ⟨settings, hsettings, hplace, hdsn, rfl, rfl⟩ := hnames
  have hpull : pull w.access settings = pull access settings :=
    pull_congr hplace (by rw [hdsn]; exact h)
  simp only [runPull, hsettings, hpull]
  rfl

/-- A pull without a connection is given up for the reason, unless no category describes it. -/
theorem runPull_of_refused {e : SourceError} (hnames : Names w given profile dsn user password)
    (h : w.access (.database dsn user password) = .error e) :
    ∃ shown, runPull w verbose given profile output = reading w [] shown (refusalOf dsn e) := by
  obtain ⟨settings, hsettings, hplace, hdsn, rfl, rfl⟩ := hnames
  obtain ⟨σ, hpull, hlog, hopened⟩ := pull_of_refused hplace hdsn h
  refine ⟨σ.store.shown, ?_⟩
  rw [runPull, hsettings]
  dsimp only
  rw [show (pull w.access settings).run {} = _ from hpull]
  dsimp only
  rw [hlog, hopened, show told verbose [] = [] from rfl, reading]
  split
  · rfl
  · split_ifs <;> rfl

end

/-- **A name is answered unless it is malformed.**  Drivers take what they are called with, and the
rest may be any: the name, the user and the password, what is installed, and for a pull also the
environment, the profiles, the arguments and what the database holds.  All names but the malformed
ones reach one driver, or the configuration is at fault and a pull ends with the code for that.  The
malformed ones end what they are given to with an error outside the categories. -/
theorem answers_unless_malformed {w : World} {installed : List Vendor}
    {drive : Opening → Connection}
    (haccess : w.access = throughDrivers installed fun opening => .ok (drive opening))
    (dsn : String) (user password : Option String) :
    (¬ (Dsn.ofText dsn).Malformed →
      (∃ opening, Reaches w dsn user password installed drive opening) ∨
      Declines w dsn user password) ∧
    ((Dsn.ofText dsn).Malformed → Escapes w dsn user password (.model (.fault .impossible))) := by
  -- no driver refuses, so a connection fails only where the name asks for no opening
  have hopen : w.access (.database dsn user password) =
      (openingOf installed dsn user password).map drive := by
    rw [haccess, throughDrivers]
    rcases openingOf installed dsn user password with e | opening <;> rfl
  refine ⟨fun hsound => ?_, fun hmalformed => ?_⟩
  · rcases openingOf_answers installed user password hsound with ⟨opening, ho⟩ | ⟨e, ho, he⟩ <;>
      rw [ho] at hopen
    · exact .inl ⟨opening, ho, hopen, fun _ _ _ _ hnames => runPull_congr hnames hopen⟩
    · refine .inr ⟨⟨e, hopen, he⟩, fun verbose given profile output hnames => ?_⟩
      obtain ⟨shown, hrun⟩ := runPull_of_refused hnames hopen
      have hconfig : (refusalOf dsn e).OfConfig := by
        rw [refusalOf]
        split_ifs
        · exact fun _ => ⟨_, rfl⟩
        · exact he
      obtain ⟨m, hm⟩ := hconfig shown
      exact ⟨m, by rw [hrun, reading, hm]; rfl⟩
  · rw [openingOf_eq, if_pos hmalformed] at hopen
    refine ⟨fun _ => rfl, hopen, fun verbose given profile output hnames => ?_⟩
    have hname : dsn ≠ "" := by
      rintro rfl
      exact absurd hmalformed (by decide)
    obtain ⟨shown, hrun⟩ := runPull_of_refused hnames hopen
    rw [hrun, refusalOf, if_neg hname]
    rfl

/-- A world with a driver for servers, in which all databases are empty. -/
def emptyDatabases : World where
  access := throughDrivers [.postgres] fun _ =>
    .ok { usesCursors := false, driver := "sqlite3", respond := fun _ _ => .rows [] }

/-- A database is reached by its file and has no tables; an unknown scheme is a matter of the
configuration; a port that is no number is neither. -/
theorem answers_unless_malformed_oddPort :
    (∃ o, runPull emptyDatabases false { dsn := some "sqlite:///shop.db" } none none = .ok o ∧
      o.messages = "Introspecting SQLite database\nIntrospected 0 tables\n" ++
        "Validation error: No tables\n") ∧
    (∃ m, runPull emptyDatabases false { dsn := some "oracle://db/xe" } none none =
      .ok (givenUp emptyDatabases 2 [] ("Configuration error: " ++ m))) ∧
    runPull emptyDatabases false { dsn := some "postgresql://db:port/shop" } none none =
      .error (.model (.fault .impossible)) := by
  have hanswers : ∀ dsn, _ := fun dsn =>
    answers_unless_malformed (w := emptyDatabases) rfl dsn none none
  have hnames : ∀ dsn, Names emptyDatabases { dsn := some dsn } none dsn none none := fun dsn =>
    ⟨_, rfl, Bool.and_false _, rfl, rfl, rfl⟩
  refine ⟨?_, ?_, ?_⟩
  · rcases (hanswers "sqlite:///shop.db").1 (by decide) with ⟨opening, hreach⟩ | hdecline
    · rw [hreach.pulled _ _ _ _ (hnames _)]
      exact ⟨_, rfl, by decide +kernel⟩
    · obtain ⟨e, he, -⟩ := hdecline.refused
      cases he
  · rcases (hanswers "oracle://db/xe").1 (by decide) with ⟨opening, hreach⟩ | hdecline
    · cases hreach.asked
    · exact hdecline.pulled _ _ _ _ (hnames _)
  · exact ((hanswers _).2 (by decide)).pulled _ _ _ _ (hnames _)

/-- The claim that a bad name is always a matter of the configuration fails there. -/
theorem not_ofConfig_of_oddPort :
    ¬ ((∃ c, emptyDatabases.access (.database "postgresql://db:port/shop" none none) = .ok c) ∨
      ∃ e, emptyDatabases.access (.database "postgresql://db:port/shop" none none) = .error e ∧
        e.OfConfig) ∧
    ¬ ∃ o, runPull emptyDatabases false { dsn := some "postgresql://db:port/shop" } none none =
      .ok o := by
  have hopening : openingOf [.postgres] "postgresql://db:port/shop" none none =
      .error (.model (.fault .impossible)) := by
    rw [openingOf_eq]
    exact if_pos (by decide)
  have hrefused : emptyDatabases.access (.database "postgresql://db:port/shop" none none) =
      .error (.model (.fault .impossible)) := by
    change (openingOf [.postgres] "postgresql://db:port/shop" none none >>= fun _ => _) = _
    rw [hopening]
    rfl
  refine ⟨?_, ?_⟩
  · rw [hrefused]
    rintro (⟨c, hc⟩ | ⟨e, he, hconfig⟩)
    · cases hc
    · cases he
      obtain ⟨m, hm⟩ := hconfig Store.empty.shown
      cases hm
  · have hnames : Names emptyDatabases { dsn := some "postgresql://db:port/shop" } none
        "postgresql://db:port/shop" none none := ⟨_, rfl, rfl, rfl, rfl, rfl⟩
    have hrun : ∃ shown, runPull emptyDatabases false { dsn := some "postgresql://db:port/shop" }
        none none = reading emptyDatabases [] shown (.model (.fault .impossible)) :=
      runPull_of_refused hnames hrefused
    obtain ⟨shown, hrun⟩ := hrun
    rintro ⟨o, ho⟩
    rw [hrun] at ho
    cases ho

end DbSchema.Cli
