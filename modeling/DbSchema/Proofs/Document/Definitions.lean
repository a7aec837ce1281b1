import DbSchema.Document.Decode
import DbSchema.Proofs.Model.Forms
import DbSchema.Proofs.Values

/-!
# The definitions in a document

A document is a tree of definitions: a schema lists tables in a section, a table lists fields,
indices and constraints in three.  This module names the definitions of a document and says what the
readers of one definition take from it and what they refuse.

## Main definitions

* `Part.sections` — the keys under which a part lists definitions, and what these define.
* `DefinitionIn top document part v` — `v` stands where the document defines a part.
* `Part.formed` — the keys of a part whose values must have a form.

## Main results

* `checkKeys_ok_iff`, `checkKeys_error` — which keys are accepted.
* `sectionItems_ok`, `sectionItems_error` — which sections are.
* `fieldParams_ok`, `childParams_ok`, `mem_paramsOf_iff`, `nodup_paramsOf` — the parameters that a
  definition gives.
-/

namespace DbSchema

/-- The sections of a part: the keys under which it lists definitions, and what these define. -/
def Part.sections : Part → List (String × Part)
  | .schema => [("tables", .table)]
  | .table => [("fields", .field), ("indices", .index), ("constraints", .constraint)]
  | .field | .index | .constraint => []

/-- The keys of a part whose values must have a form. -/
def Part.formed : Part → List (String × AttributeForm)
  | .schema => []
  | .table => [("options", .names)]
  | .field => FieldSpec.formed.map fun x => (x.key, x.form)
  | .index => IndexSpec.formed.map fun x => (x.key, x.form)
  | .constraint => ConstraintSpec.formed.map fun x => (x.key, x.form)

/-- The value stands where a document, whose entries define the part `top`, has the definition of a
part: it is the document itself, or an item of a section of such a definition. -/
inductive DefinitionIn (top : Part) (document : List (Value × Value)) : Part → Value → Prop
  | document : DefinitionIn top document top (.map document .own)
  | item {part inner : Part} {entries : List (Value × Value)} {m m' : Mark} {key : String}
      {items : List Value} {v : Value} (h : DefinitionIn top document part (.map entries m))
      (hsection : (key, inner) ∈ part.sections) (hitems : valueAt key entries = .list items m')
      (hv : v ∈ items) : DefinitionIn top document inner v

/-- The part that the entries of a document define: a schema if they have a list of tables, else a
table. -/
def topPart (entries : List (Value × Value)) : Part :=
  if (Value.entry? "tables" entries).isSome then .schema else .table

/-! ### Keys -/

variable {part : Part} {entries : List (Value × Value)}

/-- Whether the key of an entry is none of the allowed ones. -/
def isUnknown (allowed : List String) (e : Value × Value) : Bool :=
  match e.1 with
  | .text k => !allowed.contains k
  | _ => true

theorem isUnknown_eq_false_iff {allowed : List String} {e : Value × Value} :
    isUnknown allowed e = false ↔ ∃ k ∈ allowed, e.1 = .text k := by
  obtain ⟨k, v⟩ := e
  cases k <;> simp [isUnknown]

theorem unknownKeys_eq (allowed : List String) (entries : List (Value × Value)) :
    unknownKeys allowed entries =
      let unknown := entries.filter (isUnknown allowed)
      if unknown.all fun e => e.1.asText?.isSome then
        .ok ((unknown.filterMap fun e => e.1.asText?).mergeSort fun a b => decide (a ≤ b))
      else .error .unlistable := rfl

/-- A part is accepted when none of its keys is unknown. -/
theorem checkKeys_ok_iff_filter :
    checkKeys part entries = .ok () ↔ entries.filter (isUnknown part.keys) = [] := by
  rw [checkKeys, unknownKeys_eq]
  dsimp only
  rcases hunknown : entries.filter (isUnknown part.keys) with _ | ⟨x, r⟩
  · simp
  -- an unknown key is listed, or cannot be listed
  · refine iff_of_false (fun h => ?_) (by simp)
    split at h
    · cases h
    · next hkeys =>
      split at hkeys
      · next hall =>
        obtain ⟨s, hs⟩ := Option.isSome_iff_exists.mp (List.all_eq_true.mp hall x (by simp))
        have hmem : s ∈ (((x :: r).filterMap fun e => e.1.asText?).mergeSort
            fun a b => decide (a ≤ b)) :=
          List.mem_mergeSort.mpr (List.mem_filterMap.mpr ⟨x, by simp, hs⟩)
        rw [Except.ok.inj hkeys] at hmem
        cases hmem
      · cases hkeys
    · cases h

/-- That is, when its keys are texts that it may have. -/
theorem checkKeys_ok_iff :
    checkKeys part entries = .ok () ↔ ∀ e ∈ entries, ∃ k ∈ part.keys, e.1 = .text k := by
  rw [checkKeys_ok_iff_filter, List.filter_eq_nil_iff]
  refine forall₂_congr fun e _ => ?_
  rw [Bool.not_eq_true, isUnknown_eq_false_iff]

/-- Keys that are not accepted are listed, unless one of them is no text. -/
theorem checkKeys_error {e : LoadError} (h : checkKeys part entries = .error e) :
    (∃ keys, e = .unknownKeys part keys) ∨
      e = .fault .unlistable ∧ ∃ x ∈ entries, ¬ IsText x.1 := by
  rw [checkKeys, unknownKeys_eq] at h
  dsimp only at h
  by_cases hall : ((entries.filter (isUnknown part.keys)).all fun e => e.1.asText?.isSome) = true
  · rw [if_pos hall] at h
    split at h
    · next hkeys => cases hkeys
    · cases h
    · cases h
      exact .inl ⟨_, rfl⟩
  · rw [if_neg hall] at h
    cases h
    obtain ⟨x, hx, hnone⟩ := List.all_eq_false.mp (Bool.eq_false_iff.mpr hall)
    refine .inr ⟨rfl, x, (List.mem_filter.mp hx).1, ?_⟩
    rintro ⟨s, hs⟩
    simp [hs, Value.asText?] at hnone

/-- The value under a key is that of an entry, or null. -/
theorem valueAt_cases (key : String) (entries : List (Value × Value)) :
    valueAt key entries = .null ∨ (.text key, valueAt key entries) ∈ entries := by
  rw [valueAt, Value.entry?]
  rcases hfind : entries.find? fun e => e.1.asText? == some key with _ | e <;> rw [hfind]
  · exact .inl rfl
  · have hkey := List.find?_some hfind
    have htext : e.1 = .text key := Value.eq_text_of_asText? (by simpa using hkey)
    refine .inr ?_
    rw [← htext]
    exact List.mem_of_find?_eq_some hfind

/-! ### Definitions and sections -/

/-- A definition that is accepted is a mapping with accepted keys. -/
theorem partEntries_ok {v : Value} (h : partEntries part v = .ok entries) :
    (∃ m, v = .map entries m) ∧ checkKeys part entries = .ok () := by
  cases v with
  | map es m =>
    rw [partEntries] at h
    rcases hkeys : checkKeys part es with e | u <;> rw [hkeys] at h <;> cases h
    exact ⟨⟨m, rfl⟩, hkeys⟩
  | _ => cases h

/-- What is not accepted is a mapping with other keys, or no mapping. -/
theorem partEntries_error {v : Value} {e : LoadError} (h : partEntries part v = .error e) :
    (∃ entries m, v = .map entries m ∧ checkKeys part entries = .error e) ∨
      e = .entryNotMapping part v ∧ ∀ entries m, v ≠ .map entries m := by
  cases v with
  | map es m =>
    rw [partEntries] at h
    rcases hkeys : checkKeys part es with e' | u <;> rw [hkeys] at h <;> cases h
    exact .inl ⟨es, m, rfl, hkeys⟩
  | _ => cases h; exact .inr ⟨rfl, nofun⟩

/-- The items of a section that is accepted: those of a list, or none of what counts as false. -/
theorem sectionItems_ok {key : String} {vs : List Value} (h : sectionItems key entries = .ok vs) :
    (∃ m, valueAt key entries = .list vs m) ∨ (valueAt key entries).truthy = false ∧ vs = [] := by
  rw [sectionItems] at h
  split at h
  · next hfalse =>
    cases h
    exact .inr ⟨by simpa using hfalse, rfl⟩
  · split at h
    · next hlist =>
      cases h
      exact .inl ⟨_, hlist⟩
    · cases h

/-- A section that is not accepted counts as true and is no list. -/
theorem sectionItems_error {key : String} {e : LoadError}
    (h : sectionItems key entries = .error e) :
    e = .sectionNotList key (valueAt key entries) ∧ (valueAt key entries).truthy ∧
      ∀ items m, valueAt key entries ≠ .list items m := by
  rw [sectionItems] at h
  split at h
  · cases h
  · next htrue =>
    split at h
    · cases h
    · next hlist =>
      cases h
      exact ⟨rfl, by simpa using htrue, hlist⟩

/-- The name of a table that is not accepted is missing or no text. -/
theorem tableName_error {e : LoadError} (h : tableName entries = .error e) :
    e = .noTableName ∨ e = .tableNameNotText (valueAt "table" entries) ∧
      ¬ IsText (valueAt "table" entries) := by
  rw [tableName] at h
  split at h
  · cases h
    exact .inl rfl
  · split at h
    · cases h
    · next htext =>
      cases h
      exact .inr ⟨rfl, fun ⟨s, hs⟩ => htext s hs⟩

/-- The name of a table that is accepted is the text under its key. -/
theorem valueAt_of_tableName {name : String} (h : tableName entries = .ok name) :
    valueAt "table" entries = .text name := by
  rw [tableName] at h
  split at h
  · cases h
  · split at h
    · next htext =>
      cases h
      exact htext
    · cases h

/-! ### Parameters -/

variable {rename : String → String} {p : String × Value}

/-- The parameters that a definition gives are its entries with texts as keys. -/
theorem mem_paramsOf_iff :
    p ∈ paramsOf rename entries ↔ ∃ k, (.text k, p.2) ∈ entries ∧ rename k = p.1 := by
  rw [paramsOf, List.mem_filterMap]
  constructor
  · rintro ⟨⟨k, v⟩, he, hp⟩
    cases k <;> cases hp
    exact ⟨_, he, rfl⟩
  · rintro ⟨k, he, hk⟩
    exact ⟨_, he, by rw [Value.asText?, Option.map_some, hk]⟩

/-- The keys of a definition that are texts. -/
def textKeys (entries : List (Value × Value)) : List String := entries.filterMap (·.1.asText?)

/-- No parameter is given twice when no key is, unless two keys stand for one parameter. -/
theorem nodup_paramsOf (hnodup : (textKeys entries).Nodup)
    (hinj : ∀ k ∈ textKeys entries, ∀ l ∈ textKeys entries, rename k = rename l → k = l) :
    ((paramsOf rename entries).map (·.1)).Nodup := by
  have hmap : (paramsOf rename entries).map (·.1) = (textKeys entries).map rename := by
    rw [paramsOf, textKeys, List.map_filterMap, List.map_filterMap]
    congr 1
    funext e
    cases e.1.asText? <;> rfl
  rw [hmap]
  exact List.Nodup.map_on hinj hnodup

/-- The parameters of a child definition that is accepted come from entries with known keys. -/
theorem childParams_ok {part : Part} {v : Value} {ps : Params} (h : childParams part v = .ok ps) :
    ∃ entries m, v = .map entries m ∧ checkKeys part entries = .ok () ∧
      ps = paramsOf id entries := by
  rw [childParams] at h
  rcases hentries : partEntries part v with e | entries <;> rw [hentries] at h <;> cases h
  obtain ⟨⟨m, rfl⟩, hkeys⟩ := partEntries_ok hentries
  exact ⟨entries, m, rfl, hkeys, rfl⟩

/-- So do those of a field, which has a name. -/
theorem fieldParams_ok {v : Value} {ps : Params} (h : fieldParams v = .ok ps) :
    ∃ entries m, v = .map entries m ∧ checkKeys .field entries = .ok () ∧
      ps = paramsOf fieldParameter entries := by
  rw [fieldParams] at h
  rcases hentries : partEntries .field v with e | entries <;> rw [hentries] at h
  · cases h
  · simp only [bind, Except.bind] at h
    split at h <;> cases h
    obtain ⟨⟨m, rfl⟩, hkeys⟩ := partEntries_ok hentries
    exact ⟨entries, m, rfl, hkeys, rfl⟩

/-- The keys of a definition that is accepted stand for known parameters. -/
theorem known_of_checkKeys {part : Part} {entries : List (Value × Value)}
    {rename : String → String} {names : List String}
    (hnames : ∀ k ∈ part.keys, rename k ∈ names) (hkeys : checkKeys part entries = .ok ()) :
    ∀ p ∈ paramsOf rename entries, p.1 ∈ names := by
  intro p hp
  obtain ⟨k, he, hk⟩ := mem_paramsOf_iff.mp hp
  obtain ⟨l, hl, htext⟩ := checkKeys_ok_iff.mp hkeys _ he
  cases htext
  exact hk ▸ hnames k hl

end DbSchema
