import DbSchema.Folder
import Mathlib.Tactic.Common

/-!
# Files that are written and read

A file that was written is found at the same path, because writing it does not change which folders
there are: what a path leads through before it is as it was.

## Main results

* `Folder.at?_put_self` — what is put somewhere stands there.
* `Folder.at?_put_of_folder` — a folder stays one when something is put where none is.
* `Folder.entry_of_write` — a file that was written is found at its path.
-/

namespace DbSchema.Folder

variable {d d' : Folder} {names next : List String} {e : Entry} {text : String}

/-- What is put where there is no folder stands there. -/
theorem at?_put_self (h : d.at? names ≠ some .folder) : (d.put names e).at? names = some e := by
  have hhere : ¬ names.isPrefixOf d.here := fun hp => h (by rw [at?, if_pos hp])
  have hfind : (d.entries.filter (·.1 != names)).find? (·.1 == names) = none := by
    refine List.find?_eq_none.mpr fun x hx => ?_
    simpa using (List.mem_filter.mp hx).2
  rw [at?, put, if_neg hhere, List.find?_append, hfind]
  simp

/-- Under other names stands the entry that stood there. -/
theorem find?_put_of_ne (h : next ≠ names) :
    (d.put names e).entries.find? (·.1 == next) = d.entries.find? (·.1 == next) := by
  have hfilter : (d.entries.filter (·.1 != names)).find? (·.1 == next) =
      d.entries.find? (·.1 == next) := by
    rw [List.find?_filter]
    congr 1
    funext x
    by_cases hx : x.1 = next <;> simp [hx, h]
  rw [put, List.find?_append, hfilter]
  simp [h.symm]

/-- What is below some names stays below them. -/
theorem any_put (h : d.entries.any fun x => next.isPrefixOf x.1) :
    (d.put names e).entries.any fun x => next.isPrefixOf x.1 := by
  obtain ⟨x, hx, hbelow⟩ := List.any_eq_true.mp h
  refine List.any_eq_true.mpr ?_
  by_cases hnames : x.1 = names
  · exact ⟨(names, e), List.mem_append_right _ (List.mem_singleton_self _), hnames ▸ hbelow⟩
  · exact ⟨x, List.mem_append_left _ (List.mem_filter.mpr ⟨hx, by simpa using hnames⟩), hbelow⟩

/-- Every folder stays one when something is put where there is none. -/
theorem at?_put_of_folder (h : d.at? names ≠ some .folder) (hnext : d.at? next = some .folder) :
    (d.put names e).at? next = some .folder := by
  have hne : next ≠ names := fun heq => h (heq ▸ hnext)
  by_cases hhere : next.isPrefixOf d.here
  · rw [at?, put, if_pos hhere]
  · have hhere' : ¬ next.isPrefixOf (d.put names e).here := hhere
    rw [at?, if_neg hhere] at hnext
    rw [at?, if_neg hhere', find?_put_of_ne hne]
    rcases hfind : d.entries.find? (·.1 == next) with _ | x
    · rw [hfind] at hnext ⊢
      dsimp only at hnext ⊢
      split at hnext
      · next hbelow => rw [if_pos (any_put hbelow)]
      · cases hnext
    · rw [hfind] at hnext ⊢
      exact hnext

/-- A path that can be followed can be followed wherever all folders are still there. -/
theorem follow_of_folders (h : ∀ next, d.at? next = some .folder → d'.at? next = some .folder)
    {place parts : List String} (hfollow : d.follow place parts = .ok names) :
    d'.follow place parts = .ok names := by
  induction parts generalizing place with
  | nil => exact hfollow
  | cons name r ih =>
    rw [follow] at hfollow ⊢
    split at hfollow
    · cases hfollow
    · next hshort =>
      rw [if_neg hshort]
      split at hfollow
      · next hlast =>
        rw [if_pos hlast]
        exact hfollow
      · next hmore =>
        rw [if_neg hmore]
        rcases hat : d.at? (step place name) with _ | _ | _ <;> rw [hat] at hfollow
        · cases hfollow
        · cases hfollow
        · rw [h _ hat]
          exact ih hfollow

/-- So can a path, from the same working folder. -/
theorem resolve_of_folders (h : ∀ next, d.at? next = some .folder → d'.at? next = some .folder)
    (hhere : d'.here = d.here) {p : Path} (hresolve : d.resolve p = .ok names) :
    d'.resolve p = .ok names := by
  rw [resolve] at hresolve ⊢
  split at hresolve
  · cases hresolve
  · have hstart : d'.start p = d.start p := by rw [start, start, hhere]
    rw [hstart]
    exact follow_of_folders h hresolve

/-- **A file that was written is found at its path.** -/
theorem entry_of_write {p : Path} (h : d.write p text = .ok d') :
    d'.entry p = .ok (.file text) := by
  rw [write] at h
  rcases hresolve : d.resolve p with f | names <;> rw [hresolve] at h
  · cases h
  have hput : d.at? names ≠ some .folder ∧ d' = d.put names (.file text) := by
    simp only [bind, Except.bind] at h
    rcases hat : d.at? names with _ | _ | _ <;> rw [hat] at h <;> cases h
    · exact ⟨nofun, rfl⟩
    · exact ⟨nofun, rfl⟩
  obtain ⟨hno, rfl⟩ := hput
  have hresolve' : (d.put names (.file text)).resolve p = .ok names :=
    resolve_of_folders (fun next => at?_put_of_folder hno) rfl hresolve
  rw [entry, hresolve']
  simp only [bind, Except.bind, at?_put_self hno]
  rfl

end DbSchema.Folder
