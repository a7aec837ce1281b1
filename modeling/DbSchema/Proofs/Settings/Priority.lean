import DbSchema.Proofs.Settings.Sections
import DbSchema.Settings.Basic

/-!
# Which place decides a setting

What the caller says goes before a variable of the environment, and that before the profile.  So a
file of profiles has no say in what the caller or the environment decide, and none at all in
settings that no profile has.  It can still keep all settings from being found: it is read in any
case, and a file that cannot be read is no reason that is passed over.

## Main definitions

* `Setting` — the settings, with the variable and the part of a profile for each.
* `Misrefers options key f` — the value of an option has a reference that cannot be replaced.
* `Unusable text name f` — a file of profiles keeps the settings from being found.
* `Offers file name p` — what a file of profiles gives.

## Main results

* `findProfile_eq_error_iff`, `findProfile_eq_ok_iff` — what is found without a given profile.
* `resolve_by_priority` — what the settings are, when there are any, and on what they hang.
-/

namespace DbSchema.Settings

open Source (SourceError)

/-- A setting. -/
inductive Setting
  | dsn
  | user
  | password
  | namespaceName
  | catalog
  | host
  | token
deriving DecidableEq, Repr

namespace Setting

/-- The variable of the environment for a setting. -/
def variableName : Setting → String
  | dsn => "SQLT_DSN"
  | user => "SQLT_DB_USER"
  | password => "SQLT_DB_PASSWORD"
  | namespaceName => "SQLT_DB_SCHEMA"
  | catalog => "SQLT_CATALOG"
  | host => "DATABRICKS_HOST"
  | token => "DATABRICKS_TOKEN"

/-- What settings say of one of them. -/
def of (s : Settings) : Setting → Option String
  | dsn => s.dsn
  | user => s.user
  | password => s.password
  | namespaceName => s.namespaceName
  | catalog => s.catalog
  | host => s.host
  | token => s.token

/-- What a profile says of a setting; it says nothing of most. -/
def ofProfile (p : Profile) : Setting → Option String
  | host => p.host
  | token => p.token
  | _ => none

/-- Whether a profile may say anything of a setting. -/
def isOfProfile : Setting → Bool
  | host | token => true
  | _ => false

theorem ofProfile_of_not {x : Setting} (h : ¬ x.isOfProfile) (p : Profile) :
    x.ofProfile p = none := by
  cases x <;> first | rfl | exact absurd rfl h

/-- Settings that say the same are the same. -/
theorem ext_of {s s' : Settings} (h : ∀ x : Setting, x.of s = x.of s') : s = s' := by
  cases s
  cases s'
  congr
  exacts [h dsn, h user, h password, h namespaceName, h catalog, h host, h token]

end Setting

/-! ### Profiles -/

/-- The option has a value with a reference that cannot be replaced. -/
def Misrefers (options : Options) (key : String) (f : SectionsFault) : Prop :=
  ∃ value, Keyed.find? (· == ·) key options = some value ∧ expand options value = .error f

/-- The file of profiles keeps the settings from being found: it is no file of sections, or the host
or the token of the profile has a reference that cannot be replaced. -/
inductive Unusable (text name : String) : SectionsFault → Prop
  | unreadable {f : SectionsFault} (h : Unreadable text f) : Unusable text name f
  | host {sections : Sections} {f : SectionsFault} (read : Sections.ofText text = .ok sections)
      (known : sections.has name) (host : Misrefers (sections.optionsOf name) "host" f) :
      Unusable text name f
  | token {sections : Sections} {f : SectionsFault} (read : Sections.ofText text = .ok sections)
      (known : sections.has name) (host : ∀ f, ¬ Misrefers (sections.optionsOf name) "host" f)
      (token : Misrefers (sections.optionsOf name) "token" f) : Unusable text name f

/-- The text is the value of an option with its references replaced, if the option is there. -/
def Tells (options : Options) (key : String) (text : Option String) : Prop :=
  match Keyed.find? (· == ·) key options with
  | none => text = none
  | some value => ∃ s, expand options value = .ok s ∧ text = some s

/-- What the file of profiles gives for a name: nothing if there is no file or no such profile. -/
inductive Offers : Option String → String → Profile → Prop
  | noFile {name : String} : Offers none name {}
  | noProfile {text name : String} {sections : Sections} (read : Sections.ofText text = .ok sections)
      (unknown : ¬ sections.has name) : Offers (some text) name {}
  | profile {text name : String} {sections : Sections} {host token : Option String}
      (read : Sections.ofText text = .ok sections) (known : sections.has name)
      (tellsHost : Tells (sections.optionsOf name) "host" host)
      (tellsToken : Tells (sections.optionsOf name) "token" token) :
      Offers (some text) name ⟨host.map hostName, token.map Text.trim⟩

variable {options : Options} {key text name : String} {file : Option String} {env : Environment}

theorem option?_eq_error_iff {e : SourceError} :
    Profile.option? options key = .error e ↔ ∃ f, Misrefers options key f ∧ e = .profiles f := by
  unfold Profile.option? Misrefers
  rcases Keyed.find? (· == ·) key options with _ | value
  · simp
  · rcases h : expand options value with f | s <;> simp [h, eq_comm]

theorem option?_eq_ok_iff {text : Option String} :
    Profile.option? options key = .ok text ↔ Tells options key text := by
  unfold Profile.option? Tells
  rcases Keyed.find? (· == ·) key options with _ | value
  · simp [eq_comm]
  · rcases h : expand options value with f | s <;> simp [h, eq_comm]

/-- A profile that is there is read, unless its host or its token misrefers. -/
theorem ofSections_of_has {sections : Sections} (h : sections.has name) :
    Profile.ofSections sections name = do
      let host ← Profile.option? (sections.optionsOf name) "host"
      let token ← Profile.option? (sections.optionsOf name) "token"
      return ⟨host.map hostName, token.map Text.trim⟩ := by
  rw [Profile.ofSections, h]
  rfl

theorem ofSections_eq_error_iff {sections : Sections} (h : sections.has name) {e : SourceError} :
    Profile.ofSections sections name = .error e ↔
      ∃ f, (Misrefers (sections.optionsOf name) "host" f ∨
        (∀ f, ¬ Misrefers (sections.optionsOf name) "host" f) ∧
          Misrefers (sections.optionsOf name) "token" f) ∧ e = .profiles f := by
  rw [ofSections_of_has h]
  have hhost := @option?_eq_error_iff (sections.optionsOf name) "host"
  have htoken := @option?_eq_error_iff (sections.optionsOf name) "token"
  rcases hh : Profile.option? (sections.optionsOf name) "host" with e' | host
  · -- the host is read first, and what is wrong with it decides
    rw [hh] at hhost
    obtain ⟨f, hf, rfl⟩ := hhost.mp rfl
    change Except.error _ = _ ↔ _
    constructor
    · intro he
      cases he
      exact ⟨f, .inl hf, rfl⟩
    · rintro ⟨f', hf' | ⟨hnone, -⟩, rfl⟩
      · exact congrArg _ (Except.error.inj (hhost.mpr ⟨f', hf', rfl⟩))
      · exact absurd hf (hnone f)
  · rw [hh] at hhost
    -- the host is all right, so it is up to the token
    have hnone : ∀ f, ¬ Misrefers (sections.optionsOf name) "host" f :=
      fun f hf => nomatch hhost.mpr ⟨f, hf, rfl⟩
    simp only [hnone, false_or, not_false_eq_true, implies_true, true_and]
    rw [← htoken]
    rcases Profile.option? (sections.optionsOf name) "token" with e' | token
    · change Except.error e' = Except.error e ↔ _
      simp
    · exact iff_of_false nofun nofun

theorem ofSections_eq_ok_iff {sections : Sections} (h : sections.has name) {p : Profile} :
    Profile.ofSections sections name = .ok p ↔
      ∃ host token, Tells (sections.optionsOf name) "host" host ∧
        Tells (sections.optionsOf name) "token" token ∧
        p = ⟨host.map hostName, token.map Text.trim⟩ := by
  rw [ofSections_of_has h]
  simp only [← option?_eq_ok_iff]
  rcases Profile.option? (sections.optionsOf name) "host" with e | host
  · exact iff_of_false nofun fun ⟨_, _, h, _, _⟩ => nomatch h
  rcases Profile.option? (sections.optionsOf name) "token" with e | token
  · exact iff_of_false nofun fun ⟨_, _, _, h, _⟩ => nomatch h
  change Except.ok _ = _ ↔ _
  simp [eq_comm]

/-! ### The profile that nobody asked for -/

theorem findProfile_of_unread {f : SectionsFault} (h : Sections.ofText text = .error f) :
    findProfile env (some text) none = .error (.profiles f) := by
  have hload : Profile.load (some text) (profileName env none) = .error (.profiles f) := by
    rw [Profile.load, h]
  unfold findProfile
  rw [hload]

/-- A profile that is not there says nothing. -/
theorem findProfile_of_read {sections : Sections} (h : Sections.ofText text = .ok sections) :
    findProfile env (some text) none =
      if sections.has (profileName env none) then
        Profile.ofSections sections (profileName env none)
      else .ok {} := by
  have hload : Profile.load (some text) (profileName env none) =
      Profile.ofSections sections (profileName env none) := by rw [Profile.load, h]
  unfold findProfile
  rw [hload]
  split_ifs with hhas
  · rcases hp : Profile.ofSections sections (profileName env none) with e | p
    · obtain ⟨f, -, rfl⟩ := (ofSections_eq_error_iff hhas).mp hp
      rfl
    · rfl
  · rw [Profile.ofSections, Bool.eq_false_iff.mpr hhas]
    rfl

/-- Without a given profile nothing is found only if the file is unusable. -/
theorem findProfile_eq_error_iff {e : SourceError} :
    findProfile env file none = .error e ↔
      ∃ text f, file = some text ∧ Unusable text (profileName env none) f ∧ e = .profiles f := by
  constructor
  · intro h
    rcases file with _ | text
    · cases h
    refine ⟨text, ?_⟩
    rcases hread : Sections.ofText text with f | sections
    · cases (findProfile_of_unread hread).symm.trans h
      exact ⟨f, rfl, .unreadable (Sections.ofText_eq_error_iff.mp hread), rfl⟩
    rw [findProfile_of_read hread] at h
    split_ifs at h with hhas
    obtain ⟨f, hhost | ⟨hhost, htoken⟩, rfl⟩ := (ofSections_eq_error_iff hhas).mp h
    · exact ⟨f, rfl, .host hread hhas hhost, rfl⟩
    · exact ⟨f, rfl, .token hread hhas hhost htoken, rfl⟩
  · rintro ⟨text, f, rfl, hbad | ⟨hread, hhas, hhost⟩ | ⟨hread, hhas, hhost, htoken⟩, rfl⟩
    · exact findProfile_of_unread (Sections.ofText_eq_error_iff.mpr hbad)
    all_goals
      rw [findProfile_of_read hread, if_pos hhas, ofSections_eq_error_iff hhas]
    · exact ⟨f, .inl hhost, rfl⟩
    · exact ⟨f, .inr ⟨hhost, htoken⟩, rfl⟩

/-- Otherwise the profile is what the file offers. -/
theorem findProfile_eq_ok_iff {p : Profile} :
    findProfile env file none = .ok p ↔ Offers file (profileName env none) p := by
  constructor
  · intro h
    rcases file with _ | text
    · cases h
      exact .noFile
    rcases hread : Sections.ofText text with f | sections
    · cases (findProfile_of_unread hread).symm.trans h
    rw [findProfile_of_read hread] at h
    split_ifs at h with hhas
    · obtain ⟨host, token, hhost, htoken, rfl⟩ := (ofSections_eq_ok_iff hhas).mp h
      exact .profile hread hhas hhost htoken
    · cases h
      exact .noProfile hread hhas
  · rintro (_ | ⟨hread, hhas⟩ | ⟨hread, hhas, hhost, htoken⟩)
    · rfl
    · rw [findProfile_of_read hread, if_neg hhas]
    · rw [findProfile_of_read hread, if_pos hhas, ofSections_eq_ok_iff hhas]
      exact ⟨_, _, hhost, htoken, rfl⟩

/-! ### Settings -/

/-- The settings are what the first place says that says anything: the caller, the environment, the
profile. -/
def Prioritised (env : Environment) (given : Settings) (p : Profile) (s : Settings) : Prop :=
  ∀ x : Setting,
    x.of s = ((x.of given).or (env.lookup x.variableName)).or (x.ofProfile p)

/-- A setting that the caller or the environment decides is the same with any profile, and so is one
that no profile has. -/
theorem Prioritised.eq_of_decided {given s s' : Settings} {p p' : Profile}
    (h : Prioritised env given p s) (h' : Prioritised env given p' s') {x : Setting}
    (hx : (x.of given).isSome ∨ (env.lookup x.variableName).isSome ∨ ¬ x.isOfProfile) :
    x.of s = x.of s' := by
  rw [h x, h' x]
  rcases hx with hgiven | henv | hnot
  · obtain ⟨value, hvalue⟩ := Option.isSome_iff_exists.mp hgiven
    rw [hvalue]
    rfl
  · obtain ⟨value, hvalue⟩ := Option.isSome_iff_exists.mp henv
    rw [hvalue]
    cases x.of given <;> rfl
  · rw [Setting.ofProfile_of_not hnot, Setting.ofProfile_of_not hnot]

theorem resolve_eq_error_iff {given : Settings} {profile : Option String} {e : SourceError} :
    resolve env file given profile = .error e ↔ findProfile env file profile = .error e := by
  rw [resolve]
  rcases findProfile env file profile with e' | p
  · change Except.error e' = _ ↔ _
    simp
  · exact iff_of_false nofun nofun

theorem resolve_eq_ok_iff {given s : Settings} {profile : Option String} :
    resolve env file given profile = .ok s ↔
      ∃ p, findProfile env file profile = .ok p ∧ Prioritised env given p s := by
  rw [resolve]
  rcases findProfile env file profile with e' | p
  · exact iff_of_false nofun fun ⟨_, h, _⟩ => nomatch h
  constructor
  · intro h
    cases h
    exact ⟨p, rfl, fun x => by cases x <;> rfl⟩
  · rintro ⟨p', hp, hs⟩
    cases hp
    refine congrArg Except.ok (Setting.ext_of fun x => ?_)
    rw [hs x]
    cases x <;> rfl

/-- **The caller and the environment go before the file of profiles.**  Without a given profile, the
settings are found unless the file is unusable, and then the reason is the same whatever is given.
Every setting is what the caller says, or else a variable, or else the profile that the file offers,
which has a host and a token only.  So the settings that are found with two files differ at most in
a host or a token that neither the caller nor the environment decides. -/
theorem resolve_by_priority (env : Environment) (given : Settings) :
    (∀ file e, resolve env file given none = .error e ↔
      ∃ text f, file = some text ∧ Unusable text (profileName env none) f ∧ e = .profiles f) ∧
    (∀ file s, resolve env file given none = .ok s ↔
      ∃ p, Offers file (profileName env none) p ∧ Prioritised env given p s) ∧
    ∀ file file' s s', resolve env file given none = .ok s →
      resolve env file' given none = .ok s' → ∀ x : Setting,
        (x.of given).isSome ∨ (env.lookup x.variableName).isSome ∨ ¬ x.isOfProfile →
          x.of s = x.of s' := by
  refine ⟨fun file e => ?_, fun file s => ?_, fun file file' s s' hs hs' x hx => ?_⟩
  · rw [resolve_eq_error_iff, findProfile_eq_error_iff]
  · simp only [resolve_eq_ok_iff, findProfile_eq_ok_iff]
  · obtain ⟨p, -, hp⟩ := resolve_eq_ok_iff.mp hs
    obtain ⟨p', -, hp'⟩ := resolve_eq_ok_iff.mp hs'
    exact hp.eq_of_decided hp' hx

/-- A file that gives a host and a token. -/
def workspaceFile : String := "[DEFAULT]\nhost = https://w.cloud.test/\ntoken = dapi2\n"

/-- With that file or none, the token is that of the environment; the host is that of the file. -/
theorem resolve_by_priority_workspaceFile :
    let env : Environment := [("DATABRICKS_TOKEN", "dapi1")]
    let given : Settings := { catalog := some "main" }
    ∃ s s', resolve env (some workspaceFile) given none = .ok s ∧
      resolve env none given none = .ok s' ∧ s.token = s'.token ∧
      s.token = some "dapi1" ∧ s.host = some "w.cloud.test" ∧ s'.host = none := by
  intro env given
  let s : Settings := { catalog := some "main", host := some "w.cloud.test", token := some "dapi1" }
  let s' : Settings := { catalog := some "main", token := some "dapi1" }
  have hfound : (resolve env (some workspaceFile) given none).toOption = some s := by
    decide +kernel
  have hs : resolve env (some workspaceFile) given none = .ok s := by
    rcases hr : resolve env (some workspaceFile) given none with e | s₁ <;> rw [hr] at hfound <;>
      cases hfound
    rfl
  have hs' : resolve env none given none = .ok s' := rfl
  exact ⟨s, s', hs, hs', (resolve_by_priority env given).2.2 _ _ s s' hs hs' .token
    (.inr (.inl rfl)), rfl, rfl, rfl⟩

/-- A file with an option before the first header keeps even settings that name their database from
being found. -/
theorem not_resolved_of_headerless :
    ¬ ∀ (env : Environment) (given : Settings) (file : Option String),
      ∃ s, resolve env file given none = .ok s := by
  intro h
  obtain ⟨s, hs⟩ := h [] { dsn := some "sqlite:///shop.db" } (some "host = w.cloud.test\n")
  have hnone : (resolve [] (some "host = w.cloud.test\n") { dsn := some "sqlite:///shop.db" }
      none).toOption = none := by decide +kernel
  rw [hs] at hnone
  cases hnone

end DbSchema.Settings
