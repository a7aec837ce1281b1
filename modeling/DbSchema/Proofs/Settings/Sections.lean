import DbSchema.Proofs.Keys
import DbSchema.Settings.Sections

/-!
# Files of sections that cannot be read

A file of sections is read line by line.  A line that opens something is refused when no section is
open for it, or when what it opens was there before; the first such line decides.  A line that is
neither a header nor an option with a name is passed over, and the file is refused at its end.

## Main definitions

* `Reading.Opens r line` — the line is neither blank nor a comment nor part of a value.
* `Reading.Refused r line f` — the line cannot be read after those before it.
* `Reading.Garbled r line` — the line is neither a header nor an option with a name.
* `Unreadable text f` — the text holds such a line.

## Main results

* `Reading.step_eq_error_iff`, `Reading.broken_of_step` — what one line does.
* `Sections.ofText_eq_error_iff` — a text gives sections unless it is unreadable.
-/

namespace DbSchema.Settings

open Text

variable {α β ε : Type}

/-- A fold fails at the first element that cannot be taken in. -/
theorem foldlM_eq_error_iff {f : β → α → Except ε β} {l : List α} {b : β} {e : ε} :
    l.foldlM f b = .error e ↔
      ∃ before a after b', l = before ++ a :: after ∧ before.foldlM f b = .ok b' ∧
        f b' a = .error e := by
  constructor
  · intro h
    induction l generalizing b with
    | nil => cases h
    | cons a r ih =>
      rw [List.foldlM_cons] at h
      rcases hb : f b a with e' | b' <;> rw [hb] at h
      · cases h
        exact ⟨[], a, r, b, rfl, rfl, hb⟩
      · obtain ⟨before, a', after, b'', rfl, hbefore, ha'⟩ := ih h
        refine ⟨a :: before, a', after, b'', rfl, ?_, ha'⟩
        rw [List.foldlM_cons, hb]
        exact hbefore
  · rintro ⟨before, a, after, b', rfl, hbefore, ha⟩
    rw [List.foldlM_append, hbefore]
    change (f b' a >>= fun b => after.foldlM f b) = _
    rw [ha]
    rfl

theorem isSome_find?_iff {entries : List (String × α)} {key : String} :
    (Keyed.find? (· == ·) key entries).isSome ↔ key ∈ entries.map (·.1) := by
  rw [Option.isSome_iff_ne_none, ne_eq, Keyed.find?_eq_none]
  simp

namespace Reading

variable {r r' : Reading} {line : List Char} {f : SectionsFault}

/-- The line is there to open a section or an option: it is neither blank nor a comment, nor does it
go on with a value. -/
def Opens (r : Reading) (line : List Char) : Prop :=
  trimChars line ≠ [] ∧ isComment (trimChars line) = false ∧
    ¬ (r.openOption.isSome ∧ r.indent < (line.takeWhile isBlank).length)

/-- The line cannot be read after those before it. -/
inductive Refused (r : Reading) (line : List Char) : SectionsFault → Prop
  /-- No section is open for an option. -/
  | noHeader (opens : r.Opens line) (header : header? (trimChars line) = none)
      (current : r.current = none) : Refused r line .noHeader
  /-- A section other than the common one was there before. -/
  | repeatedSection {name : String} (opens : r.Opens line)
      (header : header? (trimChars line) = some name) (known : name ∈ r.entries.map (·.1))
      (own : name ≠ commonSection) : Refused r line (.repeatedSection name)
  /-- An option was in the open section before, in upper or lower case. -/
  | repeatedOption {current : String} {name value : List Char} (opens : r.Opens line)
      (header : header? (trimChars line) = none) (current_eq : r.current = some current)
      (option : splitOption? (trimChars line) = some (name, value))
      (known : lower (String.ofList name) ∈ (r.optionsOf current).map (·.1)) :
      Refused r line (.repeatedOption current (lower (String.ofList name)))

/-- The line is neither a header nor an option with a name. -/
def Garbled (r : Reading) (line : List Char) : Prop :=
  r.Opens line ∧ header? (trimChars line) = none ∧ r.current.isSome ∧
    ∀ name value, splitOption? (trimChars line) = some (name, value) → name = []

theorem step_of_opens (h : r.Opens line) :
    r.step line =
      openLine { r with indent := (line.takeWhile isBlank).length } (trimChars line) := by
  obtain ⟨hblank, hcomment, hvalue⟩ := h
  have hempty : ¬ (trimChars line).isEmpty := by rwa [List.isEmpty_iff]
  unfold step
  dsimp only
  rw [if_neg hempty, if_neg (by rw [hcomment]; exact Bool.false_ne_true), if_neg hvalue]

/-- A line that opens nothing is taken in, and it is not garbled. -/
theorem step_of_not_opens (h : ¬ r.Opens line) :
    ∃ r', r.step line = .ok r' ∧ r'.broken = r.broken := by
  have hvalue : ∀ l, (r.continueValue l).broken = r.broken := by
    intro l
    unfold continueValue
    split <;> rfl
  unfold step
  dsimp only
  split
  · exact ⟨_, rfl, hvalue _⟩
  split
  · exact ⟨r, rfl, rfl⟩
  split
  · exact ⟨_, rfl, hvalue _⟩
  · next hempty hcomment hindent =>
    exact absurd ⟨by simpa using hempty, by simpa using hcomment, hindent⟩ h

theorem openSection_eq_error_iff {name : String} :
    r.openSection name = .error f ↔
      name ∈ r.entries.map (·.1) ∧ name ≠ commonSection ∧ f = .repeatedSection name := by
  rw [openSection, ← isSome_find?_iff]
  split
  · next h => simp [h.1, h.2, eq_comm]
  · next h =>
    refine iff_of_false (by simp) fun h' => h ⟨h'.1, h'.2.1⟩

theorem broken_of_openSection {name : String} (h : r.openSection name = .ok r') :
    r'.broken = r.broken := by
  rw [openSection] at h
  split at h <;> cases h
  rfl

theorem openOptionOf_eq_error_iff {current : String} {name value : List Char} :
    r.openOptionOf current name value = .error f ↔
      lower (String.ofList name) ∈ (r.optionsOf current).map (·.1) ∧
        f = .repeatedOption current (lower (String.ofList name)) := by
  rw [openOptionOf, ← isSome_find?_iff]
  split
  · next h => simp [h, eq_comm]
  · next h => exact iff_of_false (by simp) fun h' => h h'.1

theorem broken_of_openOptionOf {current : String} {name value : List Char}
    (h : r.openOptionOf current name value = .ok r') :
    r'.broken = (r.broken || name.isEmpty) := by
  rw [openOptionOf] at h
  split at h <;> cases h
  rfl

/-- A refused line is not taken in. -/
theorem step_of_refused (h : r.Refused line f) : r.step line = .error f := by
  cases h with
  | noHeader opens header current =>
    rw [step_of_opens opens, openLine, header]
    dsimp only
    rw [current]
  | repeatedSection opens header known own =>
    rw [step_of_opens opens, openLine, header]
    exact openSection_eq_error_iff.mpr ⟨known, own, rfl⟩
  | repeatedOption opens header current option known =>
    rw [step_of_opens opens, openLine, header]
    simp only [current, option]
    exact openOptionOf_eq_error_iff.mpr ⟨known, rfl⟩

/-- A line that is not taken in is refused. -/
theorem refused_of_step (h : r.step line = .error f) : r.Refused line f := by
  have hopens : r.Opens line := by
    by_contra hnot
    obtain ⟨r', hstep, -⟩ := step_of_not_opens hnot
    cases hstep.symm.trans h
  rw [step_of_opens hopens, openLine] at h
  rcases hheader : header? (trimChars line) with _ | name <;> rw [hheader] at h
  · rcases hcurrent : r.current with _ | current <;> simp only [hcurrent] at h
    · cases h
      exact .noHeader hopens hheader hcurrent
    rcases hoption : splitOption? (trimChars line) with _ | ⟨name, value⟩ <;>
      simp only [hoption] at h
    · cases h
    · obtain ⟨hknown, rfl⟩ := openOptionOf_eq_error_iff.mp h
      exact .repeatedOption hopens hheader hcurrent hoption hknown
  · obtain ⟨hknown, hown, rfl⟩ := openSection_eq_error_iff.mp h
    exact .repeatedSection hopens hheader hknown hown

/-- A line is refused for one of three reasons. -/
theorem step_eq_error_iff : r.step line = .error f ↔ r.Refused line f :=
  ⟨refused_of_step, step_of_refused⟩

/-- A line that is taken in breaks the file if it is garbled. -/
theorem broken_of_step (h : r.step line = .ok r') : r'.broken ↔ r.broken ∨ r.Garbled line := by
  by_cases hopens : r.Opens line
  · rw [step_of_opens hopens, openLine] at h
    rcases hheader : header? (trimChars line) with _ | name <;> rw [hheader] at h
    · rcases hcurrent : r.current with _ | current <;> simp only [hcurrent] at h
      · cases h
      rcases hoption : splitOption? (trimChars line) with _ | ⟨name, value⟩ <;>
        simp only [hoption] at h
      · cases h
        simp [Garbled, hopens, hheader, hcurrent, hoption]
      · rw [broken_of_openOptionOf h]
        simp [Garbled, hopens, hheader, hcurrent, hoption]
    · have hnot : ¬ r.Garbled line := fun hg => by cases hheader.symm.trans hg.2.1
      rw [broken_of_openSection h, or_iff_left hnot]
  · obtain ⟨r'', hstep, hbroken⟩ := step_of_not_opens hopens
    cases hstep.symm.trans h
    rw [hbroken, or_iff_left fun hg => hopens hg.1]

/-- The lines that were taken in broke the file if one of them was garbled. -/
theorem broken_of_foldlM {lines : List (List Char)} (h : lines.foldlM step r = .ok r') :
    r'.broken ↔ r.broken ∨ ∃ before line after r'', lines = before ++ line :: after ∧
      before.foldlM step r = .ok r'' ∧ r''.Garbled line := by
  induction lines generalizing r with
  | nil =>
    cases h
    simp
  | cons a lines ih =>
    rw [List.foldlM_cons] at h
    rcases hstep : r.step a with f | r₁ <;> rw [hstep] at h
    · cases h
    rw [ih h, broken_of_step hstep, or_assoc]
    -- the garbled line is the first one or one of the others
    refine or_congr_right ⟨?_, ?_⟩
    · rintro (hg | ⟨before, line, after, r₂, rfl, hbefore, hg⟩)
      · exact ⟨[], a, lines, r, rfl, rfl, hg⟩
      · refine ⟨a :: before, line, after, r₂, rfl, ?_, hg⟩
        rw [List.foldlM_cons, hstep]
        exact hbefore
    · rintro ⟨before, line, after, r₂, hlines, hbefore, hg⟩
      cases before with
      | nil =>
        cases hlines
        cases hbefore
        exact .inl hg
      | cons b before =>
        cases hlines
        rw [List.foldlM_cons, hstep] at hbefore
        exact .inr ⟨before, line, after, r₂, rfl, hbefore, hg⟩

end Reading

/-- The text is no file of sections: some line is refused, or all are taken in and some line is
garbled. -/
inductive Unreadable (text : String) : SectionsFault → Prop
  | refused {before after : List (List Char)} {line : List Char} {r : Reading} {f : SectionsFault}
      (lines_eq : lines text = before ++ line :: after)
      (read : before.foldlM Reading.step {} = .ok r) (refused : r.Refused line f) :
      Unreadable text f
  | garbled {before after : List (List Char)} {line : List Char} {r r' : Reading}
      (lines_eq : lines text = before ++ line :: after)
      (read : before.foldlM Reading.step {} = .ok r) (garbled : r.Garbled line)
      (whole : (lines text).foldlM Reading.step {} = .ok r') : Unreadable text .unreadable

/-- **A text gives sections unless it is unreadable.** -/
theorem Sections.ofText_eq_error_iff {text : String} {f : SectionsFault} :
    Sections.ofText text = .error f ↔ Unreadable text f := by
  rw [Sections.ofText]
  rcases hread : (lines text).foldlM Reading.step {} with f' | r
  · -- the first line that is refused decides, whatever comes after it
    obtain ⟨before, line, after, r, hlines, hbefore, hline⟩ := foldlM_eq_error_iff.mp hread
    change Except.error f' = Except.error f ↔ _
    constructor
    · intro h
      cases h
      exact .refused hlines hbefore (Reading.step_eq_error_iff.mp hline)
    · rintro (⟨hlines', hbefore', hline'⟩ | ⟨-, -, -, hwhole⟩)
      · have hread' := foldlM_eq_error_iff.mpr
          ⟨_, _, _, _, hlines', hbefore', Reading.step_eq_error_iff.mpr hline'⟩
        exact congrArg _ (Except.error.inj (hread.symm.trans hread'))
      · cases hread.symm.trans hwhole
  · change r.finish = _ ↔ _
    -- all lines were taken in, so the file is refused at its end if one was garbled
    have hbroken := Reading.broken_of_foldlM hread
    rw [or_iff_right (show ¬ ({} : Reading).broken by decide)] at hbroken
    rw [Reading.finish]
    constructor
    · intro h
      split at h <;> cases h
      next hb =>
        obtain ⟨before, line, after, r'', hlines, hbefore, hg⟩ := hbroken.mp hb
        exact .garbled hlines hbefore hg hread
    · rintro (⟨hlines', hbefore', hline'⟩ | ⟨hlines', hbefore', hg, -⟩)
      · have hread' := foldlM_eq_error_iff.mpr
          ⟨_, _, _, _, hlines', hbefore', Reading.step_eq_error_iff.mpr hline'⟩
        cases hread.symm.trans hread'
      · rw [if_pos (hbroken.mpr ⟨_, _, _, _, hlines', hbefore', hg⟩)]

end DbSchema.Settings
