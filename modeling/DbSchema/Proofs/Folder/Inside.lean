import DbSchema.Proofs.Folder
import DbSchema.Proofs.Keys
import DbSchema.Proofs.Names

/-!
# Files directly inside a folder

A name without a slash leads from a folder to a place directly inside of it.  Files that are written
there one after the other under names that differ are all there afterwards, and nothing else has
changed.

## Main definitions

* `Path.Admits p name` — a file of that name can be reached through the path of a folder.
* `Folder.Filled d₀ place files d` — the folder after putting files directly inside a place.

## Main results

* `Path.child_of_admits` — where such a name leads.
* `Folder.at?_put_inside` — putting something into a folder changes nothing else.
* `Folder.mem_names_of_file`, `Folder.not_mem_names` — what the names inside a folder are.
* `Folder.at?_of_makeFolders` — where the folders of a path are made, there is a folder.
* `Folder.Filled.write` — one more file can be written.
-/

namespace DbSchema

/-! ### Names without a slash -/

namespace Path

/-- A name without a slash leads from a folder to a place directly inside of it, unless it is empty
or a single point. -/
theorem child_of_slashless (p : Path) {name : String} (hslash : '/' ∉ name.toList) (hne : name ≠ "")
    (hdot : name ≠ ".") : p.child name = ⟨p.base, p.parts ++ [name]⟩ := by
  have hbase : baseOf name = .here := by
    have hnone : name.toList.takeWhile (· == '/') = [] := by
      rcases hcs : name.toList with _ | ⟨c, r⟩
      · rfl
      · rw [hcs, List.mem_cons, not_or] at hslash
        rw [List.takeWhile_cons_of_neg (by simpa using Ne.symm hslash.1)]
    rw [baseOf, hnone]
    rfl
  have hname : ofText name = ⟨.here, [name]⟩ := by
    rw [ofText, hbase, Text.splitOn, Text.splitChars_of_not_mem hslash, List.map_singleton,
      String.ofList_toList, List.filter_singleton]
    rw [show (name != "" && name != ".") = true by simp [hne, hdot]]
    rfl
  rw [child, hname]
  rfl

/-- A file of the given name can be reached through the path of a folder: the name has no slash and
no null character, and neither it nor the path is too long. -/
structure Admits (p : Path) (name : String) : Prop where
  slashless : '/' ∉ name.toList
  noNull : Char.ofNat 0 ∉ name.toList
  some : name ≠ ""
  noDots : name ≠ "." ∧ name ≠ ".."
  short : name.utf8ByteSize ≤ Folder.maxName
  reachable : (p.child name).text.utf8ByteSize ≤ Folder.maxPath

instance (p : Path) (name : String) : Decidable (p.Admits name) :=
  decidable_of_iff ('/' ∉ name.toList ∧ Char.ofNat 0 ∉ name.toList ∧ name ≠ "" ∧
    (name ≠ "." ∧ name ≠ "..") ∧ name.utf8ByteSize ≤ Folder.maxName ∧
    (p.child name).text.utf8ByteSize ≤ Folder.maxPath)
    ⟨fun ⟨h₁, h₂, h₃, h₄, h₅, h₆⟩ => ⟨h₁, h₂, h₃, h₄, h₅, h₆⟩,
      fun h => ⟨h.slashless, h.noNull, h.some, h.noDots, h.short, h.reachable⟩⟩

variable {p : Path} {name : String}

/-- Such a name leads to a place directly inside the folder. -/
theorem child_of_admits (h : p.Admits name) : p.child name = ⟨p.base, p.parts ++ [name]⟩ :=
  p.child_of_slashless h.slashless h.some h.noDots.1

/-- Different names lead to different places. -/
theorem child_injective {name' : String} (h : p.Admits name) (h' : p.Admits name')
    (heq : p.child name = p.child name') : name = name' := by
  rw [child_of_admits h, child_of_admits h', Path.mk.injEq] at heq
  simpa using heq.2

/-- With a slash in them, two names may lead to one place. -/
example : (ofText "out").child "./a.yaml" = (ofText "out").child "a.yaml" := by decide

end Path

namespace Folder

variable {d d' d₀ : Folder} {p : Path} {place names next : List String} {name text : String}
  {e : Entry}

/-! ### What is put directly inside a folder -/

/-- What begins the names of a folder is there as well. -/
theorem exists_of_isPrefix (hplace : d.at? place = some .folder) (hnext : next <+: place) :
    next <+: d.here ∨ ∃ x ∈ d.entries, next <+: x.1 := by
  rw [at?] at hplace
  split at hplace
  · next hhere => exact .inl (hnext.trans (List.isPrefixOf_iff_prefix.mp hhere))
  · right
    rcases hfind : d.entries.find? (·.1 == place) with _ | x <;> rw [hfind] at hplace
    · dsimp only at hplace
      split at hplace
      · next hany =>
        obtain ⟨x, hx, hbelow⟩ := List.any_eq_true.mp hany
        exact ⟨x, hx, hnext.trans (List.isPrefixOf_iff_prefix.mp hbelow)⟩
      · cases hplace
    · have hx : x.1 = place := by simpa using List.find?_some hfind
      exact ⟨x, List.mem_of_find?_eq_some hfind, hx ▸ hnext⟩

/-- **Putting something into a folder** changes nothing else. -/
theorem at?_put_inside (hplace : d.at? place = some .folder) (hne : next ≠ place ++ [name]) :
    (d.put (place ++ [name]) e).at? next = d.at? next := by
  by_cases hhere : next.isPrefixOf d.here
  · rw [at?, at?, put, if_pos hhere, if_pos hhere]
  · have hhere' : ¬ next.isPrefixOf (d.put (place ++ [name]) e).here := hhere
    -- nothing comes to stand below other names, unless these lead to the folder
    have hany : ((d.put (place ++ [name]) e).entries.any fun x => next.isPrefixOf x.1) =
        d.entries.any fun x => next.isPrefixOf x.1 := by
      refine Bool.eq_iff_iff.mpr ⟨fun h => ?_, any_put⟩
      obtain ⟨x, hx, hbelow⟩ := List.any_eq_true.mp h
      rcases List.mem_append.mp hx with hx | hx
      · exact List.any_eq_true.mpr ⟨x, (List.mem_filter.mp hx).1, hbelow⟩
      · rw [List.mem_singleton.mp hx, List.isPrefixOf_iff_prefix, List.prefix_concat_iff] at hbelow
        rcases exists_of_isPrefix hplace (hbelow.resolve_left hne) with hh | ⟨y, hy, hbelow⟩
        · exact absurd (List.isPrefixOf_iff_prefix.mpr hh) hhere
        · exact List.any_eq_true.mpr ⟨y, hy, List.isPrefixOf_iff_prefix.mpr hbelow⟩
    rw [at?, at?, if_neg hhere, if_neg hhere', find?_put_of_ne hne, hany]

/-! ### The names inside a folder -/

theorem mem_names : name ∈ d.names place ↔ ∃ x ∈ d.entries, place ++ [name] <+: x.1 := by
  rw [names, List.mem_mergeSort, List.mem_eraseDups, List.mem_filterMap]
  refine exists_congr fun x => and_congr_right fun _ => ?_
  constructor
  · intro h
    split at h
    · next hbelow =>
      obtain ⟨r, hr⟩ := List.isPrefixOf_iff_prefix.mp hbelow
      rw [← hr, List.getElem?_append_right le_rfl, Nat.sub_self] at h
      obtain ⟨_, r', rfl⟩ : ∃ m r', r = m :: r' := by
        rcases r with _ | ⟨m, r'⟩
        · cases h
        · exact ⟨m, r', rfl⟩
      cases h
      exact ⟨r', by rw [← hr, List.append_assoc, List.singleton_append]⟩
    · cases h
  · rintro ⟨r, hr⟩
    rw [← hr, List.append_assoc, if_pos (List.isPrefixOf_iff_prefix.mpr (List.prefix_append _ _))]
    simp

/-- A file inside a folder is among its names. -/
theorem mem_names_of_file (h : d.at? (place ++ [name]) = some (.file text)) :
    name ∈ d.names place := by
  rw [at?] at h
  split at h
  · cases h
  · rcases hfind : d.entries.find? (·.1 == place ++ [name]) with _ | x <;> rw [hfind] at h
    · dsimp only at h
      split at h <;> cases h
    · have hx : x.1 = place ++ [name] := by simpa using List.find?_some hfind
      exact mem_names.mpr ⟨x, List.mem_of_find?_eq_some hfind, hx ▸ List.prefix_rfl⟩

/-- A name that leads nowhere is not among them. -/
theorem not_mem_names (h : d.at? (place ++ [name]) = none) : name ∉ d.names place := by
  intro hmem
  obtain ⟨x, hx, hbelow⟩ := mem_names.mp hmem
  have hany : d.entries.any fun x => (place ++ [name]).isPrefixOf x.1 :=
    List.any_eq_true.mpr ⟨x, hx, List.isPrefixOf_iff_prefix.mpr hbelow⟩
  rw [at?, hany] at h
  split at h
  · cases h
  · split at h <;> cases h

theorem nodup_names : (d.names place).Nodup :=
  (List.mergeSort_perm _ _).nodup_iff.mpr (nodup_eraseDups _)

/-! ### Folders that are made -/

/-- Where the first name leads there is a folder, or one is made that leaves the others; then the
other folders are made. -/
theorem make_cons_ok {start r : List String} {n : String} (h : d.make start (n :: r) = .ok d') :
    ∃ d₁ : Folder, d₁.make (step start n) r = .ok d' ∧ d₁.at? (step start n) = some .folder ∧
      d₁.here = d.here ∧ ∀ next, d.at? next = some .folder → d₁.at? next = some .folder := by
  rw [make] at h
  rcases hat : d.at? (step start n) with _ | _ | _ <;> simp only [hat] at h
  · split at h
    · cases h
    · exact ⟨_, h, at?_put_self (by simp [hat]), rfl,
        fun next hnext => at?_put_of_folder (hat ▸ nofun) hnext⟩
  · cases h
  · exact ⟨d, h, hat, rfl, fun _ => id⟩

/-- Making folders keeps those that there are, and the working folder. -/
theorem folders_of_make {start parts : List String} (h : d.make start parts = .ok d') :
    d'.here = d.here ∧ ∀ next, d.at? next = some .folder → d'.at? next = some .folder := by
  induction parts generalizing d start with
  | nil =>
    cases h
    exact ⟨rfl, fun _ => id⟩
  | cons n r ih =>
    obtain ⟨d₁, hmake, -, hhere, hkeeps⟩ := make_cons_ok h
    obtain ⟨hhere', hkeeps'⟩ := ih hmake
    exact ⟨hhere'.trans hhere, fun next hnext => hkeeps' next (hkeeps next hnext)⟩

/-- Where the names lead afterwards stands a folder. -/
theorem at?_of_make {start parts : List String} (h : d.make start parts = .ok d')
    (hstart : d.at? start = some .folder) (hfollow : d'.follow start parts = .ok place) :
    d'.at? place = some .folder := by
  induction parts generalizing d start with
  | nil =>
    cases h
    cases hfollow
    exact hstart
  | cons n r ih =>
    obtain ⟨d₁, hmake, hat, -, -⟩ := make_cons_ok h
    refine ih hmake hat ?_
    rw [follow] at hfollow
    split at hfollow
    · cases hfollow
    · split at hfollow
      · next hlast =>
        rwa [List.isEmpty_iff.mp hlast]
      · rwa [(folders_of_make hmake).2 _ hat] at hfollow

/-- A path whose folders are made leads to a folder. -/
theorem at?_of_makeFolders (h : d.makeFolders p = .ok d') (hresolve : d'.resolve p = .ok place) :
    d'.at? place = some .folder := by
  rw [makeFolders] at h
  rw [resolve] at hresolve
  split at h
  · cases h
  · next hnone =>
    have hstart : d'.start p = d.start p := by rw [start, start, (folders_of_make h).1]
    rw [hnone, hstart] at hresolve
    refine at?_of_make h ?_ hresolve
    rw [start, at?, if_pos]
    split
    · exact List.isPrefixOf_iff_prefix.mpr List.prefix_rfl
    · exact List.isPrefixOf_iff_prefix.mpr List.nil_prefix

/-! ### Paths to what is inside a folder -/

/-- A name of moderate length leads from a folder that is reached to a place inside of it. -/
theorem follow_append {start parts : List String} (hfollow : d.follow start parts = .ok place)
    (hplace : d.at? place = some .folder) (hshort : name.utf8ByteSize ≤ maxName)
    (hdots : name ≠ "..") : d.follow start (parts ++ [name]) = .ok (place ++ [name]) := by
  induction parts generalizing start with
  | nil =>
    cases hfollow
    rw [List.nil_append, follow, if_neg (by omega), if_pos (by rfl), step, if_neg hdots]
  | cons n r ih =>
    rw [follow] at hfollow
    rw [List.cons_append, follow]
    split at hfollow
    · cases hfollow
    · next hlong =>
      rw [if_neg hlong, if_neg (by simp)]
      split at hfollow
      · next hlast =>
        -- the folder itself is the last that is passed through
        obtain rfl : r = [] := List.isEmpty_iff.mp hlast
        cases hfollow
        rw [hplace]
        exact ih rfl
      · rcases hat : d.at? (step start n) with _ | _ | _ <;> rw [hat] at hfollow
        · cases hfollow
        · cases hfollow
        · exact ih hfollow

theorem resolve_child (h : p.Admits name) (hresolve : d.resolve p = .ok place)
    (hplace : d.at? place = some .folder) :
    d.resolve (p.child name) = .ok (place ++ [name]) := by
  rw [resolve] at hresolve
  split at hresolve
  · cases hresolve
  next hfault =>
  have hnull : p.parts.any (fun n => n.toList.contains (Char.ofNat 0)) = false := by
    rw [pathFault?] at hfault
    split at hfault
    · cases hfault
    · next hno => simpa using hno
  have hnone : pathFault? (p.child name) = none := by
    rw [pathFault?, if_neg, if_neg (by have := h.reachable; omega)]
    rw [Path.child_of_admits h, List.any_append, hnull]
    simpa using h.noNull
  rw [resolve, hnone, Path.child_of_admits h]
  exact follow_append hresolve hplace h.short h.noDots.2

/-! ### Files that are written inside a folder -/

/-- The folder `d₀` after putting files with the given names and texts directly inside a place where
nothing stood under these names. -/
structure Filled (d₀ : Folder) (place : List String) (files : List (String × String))
    (d : Folder) : Prop where
  here : d.here = d₀.here
  fresh : ∀ f ∈ files, d₀.at? (place ++ [f.1]) = none
  file : ∀ f ∈ files, d.at? (place ++ [f.1]) = some (.file f.2)
  other : ∀ names, (∀ f ∈ files, names ≠ place ++ [f.1]) → d.at? names = d₀.at? names

namespace Filled

variable {files : List (String × String)}

theorem nil : Filled d₀ place [] d₀ := ⟨rfl, nofun, nofun, fun _ _ => rfl⟩

variable (h : Filled d₀ place files d)
include h

/-- All folders are still there. -/
theorem folders (hnext : d₀.at? next = some .folder) : d.at? next = some .folder := by
  rw [h.other next fun f hf heq => ?_]
  · exact hnext
  · rw [heq, h.fresh f hf] at hnext
    cases hnext

theorem resolve (hresolve : d₀.resolve p = .ok place) : d.resolve p = .ok place :=
  resolve_of_folders (fun _ => h.folders) h.here hresolve

/-- The files are found through the path of the folder. -/
theorem entry (hresolve : d₀.resolve p = .ok place) (hplace : d₀.at? place = some .folder)
    {f : String × String} (hf : f ∈ files) (hadmits : p.Admits f.1) :
    d.entry (p.child f.1) = .ok (.file f.2) := by
  rw [Folder.entry, resolve_child hadmits (h.resolve hresolve) (h.folders hplace)]
  simp only [bind, Except.bind, h.file f hf]
  rfl

/-- **One more file can be written** under a new name. -/
theorem write (hresolve : d₀.resolve p = .ok place) (hplace : d₀.at? place = some .folder)
    (hadmits : p.Admits name) (hnew : ∀ f ∈ files, f.1 ≠ name)
    (hfree : d₀.at? (place ++ [name]) = none) (text : String) :
    ∃ d', d.write (p.child name) text = .ok d' ∧ Filled d₀ place (files ++ [(name, text)]) d' := by
  have hne : ∀ f ∈ files, place ++ [name] ≠ place ++ [f.1] := fun f hf heq =>
    hnew f hf (by simpa using heq.symm)
  have hat : d.at? (place ++ [name]) = none := by rw [h.other _ hne, hfree]
  refine ⟨d.put (place ++ [name]) (.file text), ?_, h.here, ?_, ?_, ?_⟩
  · rw [Folder.write, resolve_child hadmits (h.resolve hresolve) (h.folders hplace)]
    simp only [bind, Except.bind, hat]
    rfl
  · simp only [List.forall_mem_append, List.forall_mem_singleton]
    exact ⟨h.fresh, hfree⟩
  · simp only [List.forall_mem_append, List.forall_mem_singleton]
    refine ⟨fun f hf => ?_, at?_put_self (by simp [hat])⟩
    rw [at?_put_inside (h.folders hplace) (hne f hf).symm, h.file f hf]
  · simp only [List.forall_mem_append, List.forall_mem_singleton]
    rintro names ⟨hfiles, hname⟩
    rw [at?_put_inside (h.folders hplace) hname, h.other names hfiles]

/-- Among the names of a kind that nothing had before, those of the files are inside the folder. -/
theorem mem_names (hfree : d₀.at? (place ++ [name]) = none) :
    name ∈ d.names place ↔ name ∈ files.map Prod.fst := by
  constructor
  · intro hname
    by_contra hno
    refine not_mem_names ?_ hname
    rw [h.other _ fun f hf heq => hno (List.mem_map.mpr ⟨f, hf, by simpa using heq.symm⟩), hfree]
  · intro hname
    obtain ⟨f, hf, rfl⟩ := List.mem_map.mp hname
    exact mem_names_of_file (h.file f hf)

end Filled

end Folder

end DbSchema
