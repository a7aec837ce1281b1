import DbSchema.Settings.Reference
import DbSchema.Source.Error

/-!
# Profiles

A profile is a section of the file of profiles.  It may give the host of a workspace and a token
for it.

## Main definitions

* `Profile`, `Profile.ofSections` — a profile, and the one of a name.
* `hostName` — a host without what may stand around it.
* `Profile.load` — the profile of a name in the text of a file, if there is a file.
-/

namespace DbSchema.Settings

open Source (SourceError)

/-- What a profile says of a workspace. -/
structure Profile where
  host : Option String := none
  token : Option String := none
deriving DecidableEq, Repr, Inhabited

/-- The file that holds the profiles, in the home folder of the user. -/
def profilesFile : String := ".databrickscfg"

/-- What a host may begin with. -/
def secureStart : List Char := "https://".toList

/-- A host without blanks around it, the protocol in front and slashes at the end. -/
def hostName (s : String) : String :=
  let cs := Text.trimChars s.toList
  let cs := (Text.dropPrefix? secureStart cs).getD cs
  String.ofList (cs.reverse.dropWhile (· == '/')).reverse

namespace Profile

/-- The value of an option with its references replaced, if the option is there. -/
def option? (options : Options) (key : String) : Except SourceError (Option String) :=
  match Keyed.find? (· == ·) key options with
  | none => .ok none
  | some value =>
    match expand options value with
    | .ok text => .ok (some text)
    | .error f => .error (.profiles f)

/-- The profile of a name; the available ones are named when it is missing. -/
def ofSections (f : Sections) (name : String) : Except SourceError Profile := do
  if !f.has name then
    throw (.noProfile name (if f.names.isEmpty then [commonSection] else f.names))
  let options := f.optionsOf name
  let host ← option? options "host"
  let token ← option? options "token"
  return ⟨host.map hostName, token.map Text.trim⟩

/-- The profile of a name in the text of a file; without a file it says nothing. -/
def load (file : Option String) (name : String) : Except SourceError Profile :=
  match file with
  | none => .ok {}
  | some text =>
    match Sections.ofText text with
    | .ok f => ofSections f name
    | .error e => .error (.profiles e)

end Profile

end DbSchema.Settings
