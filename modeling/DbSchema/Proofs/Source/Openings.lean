import DbSchema.Source.Dsn
import Mathlib.Tactic.Common

/-!
# What a data source name asks for

A data source name is taken apart by where its delimiters stand, and that works for every text.  Two
checks follow.  The authority must not have brackets without an address in them, nor characters that
stand for delimiters; and where a server is asked for, its port must be one.  A name that passes
them asks for one call of one driver, or is refused for its scheme.

## Main definitions

* `Dsn.ofText s` — the parts of a text, whether they pass the checks or not.
* `Dsn.IsPort cs` — the characters are a port, or nothing.
* `Dsn.Malformed d` — the parts do not pass.
* `Dsn.target d` — the server that the parts describe.

## Main results

* `Dsn.parse_eq`, `Dsn.port_eq` — the two checks.
* `openingOf_eq` — what a name leads to.
-/

namespace DbSchema.Source

namespace Dsn

/-! ### The parts of a text -/

/-- The characters of a text that are looked at. -/
def cleaned (s : String) : List Char :=
  (s.toList.dropWhile fun c => decide (c.toNat ≤ 0x20)).filter fun c =>
    !(c == '\t' || c == '\r' || c == '\n')

/-- The authority behind two slashes, and what follows it. -/
def splitAuthority : List Char → List Char × List Char
  | '/' :: '/' :: r =>
    (r.takeWhile fun c => !endsAuthority c, r.dropWhile fun c => !endsAuthority c)
  | r => ([], r)

/-- The parts of a text, whether they pass the checks or not. -/
def ofText (s : String) : Dsn :=
  let scheme := schemeOf (cleaned s)
  let parts := splitAuthority scheme.2
  ⟨String.ofList scheme.1, parts.1, (cutFirst '?' (cutFirst '#' parts.2).1).1⟩

/-- The authority has no brackets without an address in them, and no character that stands for a
delimiter. -/
def SoundAuthority (authority : List Char) : Prop :=
  bracketsFit authority ∧ ∀ c ∈ authority, c.toNat ∉ disguisedDelimiters

instance (authority : List Char) : Decidable (SoundAuthority authority) :=
  decidable_of_iff (bracketsFit authority ∧
    authority.all fun c => !disguisedDelimiters.contains c.toNat) (by simp [SoundAuthority])

/-- A text is taken apart if its authority is sound. -/
theorem parse_eq (s : String) :
    parse s = if SoundAuthority (ofText s).authority then .ok (ofText s) else .error .impossible := by
  have hparse : parse s =
      if !bracketsFit (ofText s).authority ∨
          (ofText s).authority.any (fun c => disguisedDelimiters.contains c.toNat) then
        .error .impossible
      else .ok (ofText s) := rfl
  rw [hparse]
  by_cases h : SoundAuthority (ofText s).authority
  · rw [if_pos h, if_neg]
    simpa [SoundAuthority] using h
  · rw [if_neg h, if_pos]
    simpa [SoundAuthority, imp_iff_not_or] using h

/-! ### Ports -/

/-- The number that decimal digits denote. -/
def portNumber (cs : List Char) : Nat := cs.foldl (fun n c => n * 10 + (c.toNat - 48)) 0

/-- The characters are a port: nothing, or the digits of a number up to 65535. -/
def IsPort (cs : List Char) : Prop :=
  cs = [] ∨ (∀ c ∈ cs, c.isDigit) ∧ cs.length ≤ Number.maxDigits ∧ portNumber cs ≤ 65535

instance (cs : List Char) : Decidable (IsPort cs) :=
  decidable_of_iff (cs = [] ∨ cs.all Char.isDigit ∧ cs.length ≤ Number.maxDigits ∧
    portNumber cs ≤ 65535) (by simp [IsPort])

/-- The port that the parts name, if any. -/
def portOf (d : Dsn) : Option Nat :=
  if d.hostInfo.2 = [] then none else some (portNumber d.hostInfo.2)

/-- The port is read if it is one. -/
theorem port_eq (d : Dsn) :
    d.port = if IsPort d.hostInfo.2 then .ok d.portOf else .error .impossible := by
  rw [portOf, port]
  rcases d.hostInfo.2 with _ | ⟨c, r⟩
  · rfl
  · have hport : IsPort (c :: r) ↔
        ((c :: r).all Char.isDigit ∧ (c :: r).length ≤ Number.maxDigits) ∧
          portNumber (c :: r) ≤ 65535 := by
      rw [IsPort, or_iff_right (List.cons_ne_nil c r), List.all_eq_true, and_assoc]
    rw [if_neg (List.cons_ne_nil c r), ite_cond_congr (propext hport), ite_and]
    rfl

/-! ### Parts that pass the checks -/

/-- The parts do not pass the checks. -/
def Malformed (d : Dsn) : Prop :=
  ¬ SoundAuthority d.authority ∨ (serverVendor? d.scheme).isSome ∧ ¬ IsPort d.hostInfo.2

instance (d : Dsn) : Decidable d.Malformed := inferInstanceAs (Decidable (_ ∨ _ ∧ _))

/-- The server that the parts describe; a given user or password replaces its own. -/
def target (d : Dsn) (vendor : Vendor) (user password : Option String) : Server where
  host := if d.host = "" then "localhost" else d.host
  port := if d.portOf.getD 0 = 0 then defaultPort vendor else d.portOf.getD 0
  user := user.getD (Text.percentDecode (String.ofList d.userInfo.1))
  password := password.getD (Text.percentDecode (String.ofList d.userInfo.2))
  database := String.ofList (d.path.dropWhile (· == '/'))

theorem serverOf_eq (d : Dsn) (vendor : Vendor) (user password : Option String) :
    serverOf d vendor user password =
      if IsPort d.hostInfo.2 then .ok (d.target vendor user password) else .error .impossible := by
  rw [serverOf, port_eq]
  by_cases hport : IsPort d.hostInfo.2
  · rw [if_pos hport, if_pos hport, target]
    rcases d.userInfo with ⟨ownUser, ownPassword⟩
    rfl
  · rw [if_neg hport, if_neg hport]
    rfl

end Dsn

/-- **What a data source name leads to.**  It is refused as impossible if it is malformed; otherwise
its scheme decides: a file, a server, if its driver is installed, or nothing that is supported. -/
theorem openingOf_eq (installed : List Vendor) (dsn : String) (user password : Option String) :
    openingOf installed dsn user password =
      let d := Dsn.ofText dsn
      if d.Malformed then .error (.model (.fault .impossible))
      else if d.scheme = "sqlite" then .ok (.file (fileOf d))
      else
        match serverVendor? d.scheme with
        | none => .error (.unsupportedScheme d.scheme)
        | some vendor =>
          if installed.contains vendor then .ok (.server vendor (d.target vendor user password))
          else .error (.notInstalled vendor.driver (driverExtra vendor)) := by
  dsimp only
  rw [openingOf, Dsn.parse_eq]
  by_cases hsound : Dsn.SoundAuthority (Dsn.ofText dsn).authority
  · have hmalformed : (Dsn.ofText dsn).Malformed ↔
        (serverVendor? (Dsn.ofText dsn).scheme).isSome ∧ ¬ Dsn.IsPort (Dsn.ofText dsn).hostInfo.2 :=
      or_iff_right (not_not_intro hsound)
    rw [if_pos hsound]
    dsimp only
    -- a file has no port, and neither has what is not supported
    by_cases hfile : (Dsn.ofText dsn).scheme = "sqlite"
    · have hnone : serverVendor? (Dsn.ofText dsn).scheme = none := by rw [hfile]; rfl
      rw [if_pos hfile, if_neg (by simp [hmalformed, hnone]), if_pos hfile]
    · rw [if_neg hfile, if_neg hfile]
      rcases hvendor : serverVendor? (Dsn.ofText dsn).scheme with _ | vendor
      · rw [if_neg (by simp [hmalformed, hvendor])]
      · dsimp only
        rw [Dsn.serverOf_eq]
        by_cases hport : Dsn.IsPort (Dsn.ofText dsn).hostInfo.2
        · rw [if_pos hport, if_neg (by simp [hmalformed, hport])]
        · rw [if_neg hport, if_pos (by simp [hmalformed, hvendor, hport])]
  · rw [if_neg hsound, if_pos (.inl hsound)]

end DbSchema.Source
