import DbSchema.Proofs.Document.Accepted
import DbSchema.Proofs.Document.Definitions

/-!
# The shape of documents that are read

A document has the documented shape when every definition in it is a mapping with documented keys,
every section is missing, null or a list, and every name is null or a text.  A document that is read
has this shape but for four lapses: nothing looks at the keys and the name in the head of a schema,
whatever counts as false is taken for a missing head or section, and a constraint may refer to a
table by any value.

## Main definitions

* `Value.hasDistinctKeys v` — no mapping in the value has a text twice as a key.
* `ShapedEntries part entries` — the entries of a definition have the documented shape.
* `WellShaped v` — the document has the documented shape.
* `Lapse document` — one of the four lapses occurs in a document.

## Main results

* `accepted_of_definitionIn` — every definition in a document that is read was accepted.
* `wellShaped_iff_of_decodeDocument` — a document that is read has the documented shape exactly when
  no lapse occurs in it.
-/

namespace DbSchema

/-! ### Distinct keys -/

mutual

/-- Whether no mapping in the value has a text twice as a key. -/
def Value.hasDistinctKeys : Value → Bool
  | .list items _ | .tuple items _ | .set items _ => allHaveDistinctKeys items
  | .map entries _ => decide (textKeys entries).Nodup && entriesHaveDistinctKeys entries
  | _ => true

/-- Whether this holds of every value of a list. -/
def Value.allHaveDistinctKeys : List Value → Bool
  | [] => true
  | v :: r => hasDistinctKeys v && allHaveDistinctKeys r

/-- Whether this holds of every value of a mapping. -/
def Value.entriesHaveDistinctKeys : List (Value × Value) → Bool
  | [] => true
  | (k, v) :: r => hasDistinctKeys k && hasDistinctKeys v && entriesHaveDistinctKeys r

end

theorem hasDistinctKeys_of_mem {v : Value} {vs : List Value} (h : Value.allHaveDistinctKeys vs)
    (hv : v ∈ vs) : v.hasDistinctKeys := by
  induction vs with
  | nil => cases hv
  | cons w r ih =>
    rw [Value.allHaveDistinctKeys, Bool.and_eq_true] at h
    rcases List.mem_cons.mp hv with rfl | hv
    · exact h.1
    · exact ih h.2 hv

theorem hasDistinctKeys_of_entry {e : Value × Value} {entries : List (Value × Value)}
    (h : Value.entriesHaveDistinctKeys entries) (he : e ∈ entries) : e.2.hasDistinctKeys := by
  induction entries with
  | nil => cases he
  | cons x r ih =>
    obtain ⟨k, v⟩ := x
    rw [Value.entriesHaveDistinctKeys, Bool.and_eq_true, Bool.and_eq_true] at h
    rcases List.mem_cons.mp he with rfl | he
    · exact h.1.2
    · exact ih h.2 he

variable {top part inner : Part} {document entries : List (Value × Value)} {m : Mark} {v : Value}
  {key : String}

/-- The definitions of a document with distinct keys have distinct keys. -/
theorem DefinitionIn.hasDistinctKeys (h : DefinitionIn top document part v)
    (hdocument : (Value.map document .own).hasDistinctKeys) : v.hasDistinctKeys := by
  induction h with
  | document => exact hdocument
  | @item part inner entries m m' key items v _ _ hitems hv ih =>
    rw [Value.hasDistinctKeys, Bool.and_eq_true] at ih
    have hlist : (valueAt key entries).hasDistinctKeys := by
      rcases valueAt_cases key entries with hnull | hmem
      · rw [hnull]
        rfl
      · exact hasDistinctKeys_of_entry ih.2 hmem
    rw [hitems, Value.hasDistinctKeys] at hlist
    exact hasDistinctKeys_of_mem hlist hv

/-! ### The documented shape -/

/-- The keys of a part that hold names. -/
def Part.nameKeys : Part → List String
  | .schema => []
  | .table => ["table"]
  | .field | .index => ["name"]
  | .constraint => ["name", "reference_table"]

/-- The keys of the head of a schema. -/
def headKeys : List String := ["name", "database"]

/-- A value that a name may have in a document: null or a text. -/
def IsName (v : Value) : Prop := v = .null ∨ IsText v

/-- A value that a section may have in a document: null or a list. -/
def IsSection (v : Value) : Prop := v = .null ∨ ∃ items m, v = .list items m

/-- The entries of a definition have the documented shape. -/
structure ShapedEntries (part : Part) (entries : List (Value × Value)) : Prop where
  keys : ∀ e ∈ entries, ∃ k ∈ part.keys, e.1 = .text k
  sections : ∀ s ∈ part.sections, IsSection (valueAt s.1 entries)
  names : ∀ key ∈ part.nameKeys, IsName (valueAt key entries)

/-- The head of a schema has the documented shape. -/
def ShapedHead (v : Value) : Prop :=
  v = .null ∨ ∃ head m, v = .map head m ∧ (∀ e ∈ head, ∃ k ∈ headKeys, e.1 = .text k) ∧
    IsName (valueAt "name" head)

/-- The document has the documented shape: it is a mapping, and so is every definition in it, with
entries of that shape; the head of a schema has it too. -/
def WellShaped (v : Value) : Prop :=
  ∃ document m, v = .map document m ∧ ShapedHead (valueAt "schema" document) ∧
    ∀ part w, DefinitionIn (topPart document) document part w →
      ∃ entries m, w = .map entries m ∧ ShapedEntries part entries

/-- A departure from the documented shape that keeps no document from being read. -/
inductive Lapse (document : List (Value × Value)) : Prop
  | headKey {head : List (Value × Value)} {m : Mark} {e : Value × Value}
      (h : valueAt "schema" document = .map head m) (he : e ∈ head)
      (hkey : ∀ k ∈ headKeys, e.1 ≠ .text k) : Lapse document
  | headName {head : List (Value × Value)} {m : Mark}
      (h : valueAt "schema" document = .map head m) (hname : ¬ IsName (valueAt "name" head)) :
      Lapse document
  | falseHead (hfalse : (valueAt "schema" document).truthy = false)
      (hnull : valueAt "schema" document ≠ .null)
      (hmap : ∀ head m, valueAt "schema" document ≠ .map head m) : Lapse document
  | falseSection {part inner : Part} {entries : List (Value × Value)} {m : Mark} {key : String}
      (h : DefinitionIn (topPart document) document part (.map entries m))
      (hsection : (key, inner) ∈ part.sections) (hfalse : (valueAt key entries).truthy = false)
      (hshape : ¬ IsSection (valueAt key entries)) : Lapse document
  | reference {entries : List (Value × Value)} {m : Mark}
      (h : DefinitionIn (topPart document) document .constraint (.map entries m))
      (hname : ¬ IsName (valueAt "reference_table" entries)) : Lapse document

/-- No lapse occurs in a document of the documented shape. -/
theorem WellShaped.not_lapse (h : WellShaped (.map document m)) : ¬ Lapse document := by
  obtain ⟨document, m, heq, hhead, hdefinitions⟩ := h
  cases heq
  have hshaped : ∀ {part entries m},
      DefinitionIn (topPart document) document part (.map entries m) →
      ShapedEntries part entries := by
    intro part entries m h
    obtain ⟨entries', m', heq, hshape⟩ := hdefinitions _ _ h
    cases heq
    exact hshape
  -- each lapse says of one definition what its shape rules out
  intro hlapse
  cases hlapse with
  | headKey h he hkey =>
    rcases hhead with hnull | ⟨head, m', hmap, hkeys, -⟩
    · cases h.symm.trans hnull
    · cases h.symm.trans hmap
      obtain ⟨k, hk, hke⟩ := hkeys _ he
      exact hkey k hk hke
  | headName h hname =>
    rcases hhead with hnull | ⟨head, m', hmap, -, hnamed⟩
    · cases h.symm.trans hnull
    · cases h.symm.trans hmap
      exact hname hnamed
  | falseHead _ hnull hmap =>
    rcases hhead with h | ⟨head, m', h, -⟩
    · exact hnull h
    · exact hmap head m' h
  | falseSection h hsection _ hshape => exact hshape ((hshaped h).sections _ hsection)
  | reference h hname => exact hname ((hshaped h).names _ (by simp [Part.nameKeys]))

/-! ### Definitions that are accepted -/

/-- The definition of a part was accepted when the document was read. -/
def Accepted : Part → Value → Prop
  | .schema, v => ∃ entries m vs, v = .map entries m ∧ checkKeys .schema entries = .ok () ∧
      sectionItems "tables" entries = .ok vs ∧ ∀ w ∈ vs, ∃ o, Describes w o
  | .table, v => ∃ o, Describes v o
  | .field, v => ∃ spec, ReadAs fieldParams FieldSpec.ofParams v spec
  | .index, v => ∃ spec, ReadAs (childParams .index) IndexSpec.ofParams v spec
  | .constraint, v => ∃ spec, ReadAs (childParams .constraint) ConstraintSpec.ofParams v spec

/-- The items of a list under the key of an accepted section are those of the section. -/
theorem sectionItems_of_list {items : List Value} (h : valueAt key entries = .list items m) :
    sectionItems key entries = .ok items := by
  rw [sectionItems, h]
  cases items <;> rfl

/-- A section of an accepted definition was accepted, and so were the definitions in it. -/
theorem Accepted.section (h : Accepted part (.map entries m))
    (hsection : (key, inner) ∈ part.sections) :
    ∃ vs, sectionItems key entries = .ok vs ∧ ∀ v ∈ vs, Accepted inner v := by
  have hexists : ∀ {σ : Type} {R : Value → σ → Prop} {vs : List Value} {specs : List σ},
      List.Forall₂ R vs specs → ∀ v ∈ vs, ∃ spec, R v spec := fun hall v hv =>
    (exists_of_forall₂ hall hv).imp fun _ h => h.2
  cases part with
  | schema =>
    obtain ⟨entries', m', vs, heq, -, hvs, hall⟩ := h
    cases heq
    simp only [Part.sections, List.mem_singleton, Prod.mk.injEq] at hsection
    obtain ⟨rfl, rfl⟩ := hsection
    exact ⟨vs, hvs, hall⟩
  | table =>
    obtain ⟨o, entries', name, hpart, -, -, hdescribe⟩ := h
    obtain ⟨⟨m', heq⟩, -⟩ := partEntries_ok hpart
    cases heq
    simp only [Part.sections, List.mem_cons, Prod.mk.injEq, List.not_mem_nil, or_false] at hsection
    rcases hsection with ⟨rfl, rfl⟩ | ⟨rfl, rfl⟩ | ⟨rfl, rfl⟩
    · exact hdescribe.fields.imp fun vs hvs => ⟨hvs.1, hexists hvs.2⟩
    · exact hdescribe.indices.imp fun vs hvs => ⟨hvs.1, hexists hvs.2⟩
    · exact hdescribe.constraints.imp fun vs hvs => ⟨hvs.1, hexists hvs.2⟩
  | field | index | constraint => cases hsection

/-- **Every definition** in a document that is accepted was accepted itself. -/
theorem accepted_of_definitionIn (h : DefinitionIn top document part v)
    (hdocument : Accepted top (.map document .own)) : Accepted part v := by
  induction h with
  | document => exact hdocument
  | item _ hsection hitems hv ih =>
    obtain ⟨vs, hvs, hall⟩ := ih.section hsection
    cases hvs.symm.trans (sectionItems_of_list hitems)
    exact hall _ hv

/-- A definition that was accepted is a mapping with documented keys. -/
theorem Accepted.exists_entries (h : Accepted part v) :
    ∃ entries m, v = .map entries m ∧ checkKeys part entries = .ok () := by
  cases part with
  | schema =>
    obtain ⟨entries, m, -, hmap, hkeys, -⟩ := h
    exact ⟨entries, m, hmap, hkeys⟩
  | table =>
    obtain ⟨o, entries, name, hpart, -⟩ := h
    obtain ⟨⟨m, hmap⟩, hkeys⟩ := partEntries_ok hpart
    exact ⟨entries, m, hmap, hkeys⟩
  | field =>
    obtain ⟨spec, ps, hps, -⟩ := h
    obtain ⟨entries, m, hmap, hkeys, -⟩ := fieldParams_ok hps
    exact ⟨entries, m, hmap, hkeys⟩
  | index | constraint =>
    obtain ⟨spec, ps, hps, -⟩ := h
    obtain ⟨entries, m, hmap, hkeys, -⟩ := childParams_ok hps
    exact ⟨entries, m, hmap, hkeys⟩

/-- What has the form of a text is a name. -/
theorem isName_of_check {what : String} (h : (AttributeForm.text what).check v = .ok ()) :
    IsName v := by
  cases v with
  | null => exact .inl rfl
  | text s => exact .inr ⟨s, rfl⟩
  | _ => cases h

/-- The value under the key of a text attribute is a name when the parameters were accepted. -/
theorem isName_of_specOf {σ : Type} {fill : σ → String → Value → Option σ}
    {attributes : σ → Params} {tidy : σ → Except ModelError σ} {default spec : σ}
    {names : List String} {formed : List (FormedAttribute σ)} {rename : String → String}
    (htidy : TidiesBy tidy attributes formed default) (hfill : FillsIn fill attributes names)
    (hkeys : checkKeys part entries = .ok ()) (hnodup : (textKeys entries).Nodup)
    (hinj : ∀ k ∈ part.keys, ∀ l ∈ part.keys, rename k = rename l → k = l)
    (hspec : specOf fill tidy default (paramsOf rename entries) = .ok spec)
    {x : FormedAttribute σ} (hx : x ∈ formed) {what : String} (hform : x.form = .text what)
    (hkey : rename key = x.key) : IsName (valueAt key entries) := by
  have hknown : ∀ k ∈ textKeys entries, k ∈ part.keys := by
    intro k hk
    obtain ⟨e, he, htext⟩ := List.mem_filterMap.mp hk
    obtain ⟨l, hl, hel⟩ := checkKeys_ok_iff.mp hkeys e he
    rw [hel] at htext
    cases htext
    exact hl
  rcases valueAt_cases key entries with hnull | hmem
  · exact .inl hnull
  · have hparams := nodup_paramsOf hnodup
      fun k hk l hl => hinj k (hknown k hk) l (hknown l hl)
    have hcheck := htidy.check_of_specOf hfill hparams hspec hx
      (mem_paramsOf_iff.mpr ⟨key, hmem, hkey⟩)
    rw [hform] at hcheck
    exact isName_of_check hcheck

/-- The names in a definition that was accepted are names, but for references to tables. -/
theorem Accepted.isName (h : Accepted part (.map entries m)) (hnodup : (textKeys entries).Nodup) :
    ∀ key ∈ part.nameKeys, key ≠ "reference_table" → IsName (valueAt key entries) := by
  intro key hkey hne
  cases part with
  | schema => cases hkey
  | table =>
    obtain ⟨o, entries', name, hpart, hname, -⟩ := h
    obtain ⟨⟨m', heq⟩, -⟩ := partEntries_ok hpart
    cases heq
    rw [List.mem_singleton.mp hkey]
    exact .inr ⟨name, valueAt_of_tableName hname⟩
  | field =>
    obtain ⟨spec, ps, hps, hspec⟩ := h
    obtain ⟨entries', m', heq, hkeys, rfl⟩ := fieldParams_ok hps
    cases heq
    rw [List.mem_singleton.mp hkey]
    exact isName_of_specOf FieldSpec.tidiesBy FieldSpec.fillsIn hkeys hnodup (by decide) hspec
      List.mem_cons_self rfl rfl
  | index =>
    obtain ⟨spec, ps, hps, hspec⟩ := h
    obtain ⟨entries', m', heq, hkeys, rfl⟩ := childParams_ok hps
    cases heq
    rw [List.mem_singleton.mp hkey]
    exact isName_of_specOf IndexSpec.tidiesBy IndexSpec.fillsIn hkeys hnodup (by simp) hspec
      List.mem_cons_self rfl rfl
  | constraint =>
    obtain ⟨spec, ps, hps, hspec⟩ := h
    obtain ⟨entries', m', heq, hkeys, rfl⟩ := childParams_ok hps
    cases heq
    -- the names of a constraint are its own and that of a table, which is left out
    rcases List.mem_cons.mp hkey with rfl | hkey
    · exact isName_of_specOf ConstraintSpec.tidiesBy ConstraintSpec.fillsIn hkeys hnodup (by simp)
        hspec List.mem_cons_self rfl rfl
    · exact (hne (List.mem_singleton.mp hkey)).elim

/-- A section of an accepted definition is null or a list, unless it counts as false. -/
theorem Accepted.isSection (h : Accepted part (.map entries m)) {s : String × Part}
    (hs : s ∈ part.sections) :
    IsSection (valueAt s.1 entries) ∨ (valueAt s.1 entries).truthy = false := by
  obtain ⟨vs, hvs, -⟩ := h.section hs
  obtain ⟨m', hlist⟩ | ⟨hfalse, -⟩ := sectionItems_ok hvs
  · exact .inl (.inr ⟨vs, m', hlist⟩)
  · exact .inr hfalse

/-! ### Documents that are read -/

/-- The entries of a document that describes a schema were accepted. -/
theorem DescribesSchema.accepted {o : SchemaOutline} (h : DescribesSchema (.map document m) o) :
    Accepted (topPart document) (.map document .own) := by
  cases h with
  | single hnone h =>
    rw [topPart, if_neg (by simp [hnone])]
    exact ⟨_, h⟩
  | listed hsome hkeys _ hitems h =>
    rw [topPart, if_pos hsome]
    exact ⟨_, _, _, rfl, hkeys, hitems, fun w hw => (exists_of_forall₂ h hw).imp fun _ h => h.2⟩

/-- The head of a schema that was read has the documented shape unless a lapse occurs. -/
theorem DescribesSchema.shapedHead {o : SchemaOutline} (h : DescribesSchema (.map document m) o)
    (hlapse : ¬ Lapse document) : ShapedHead (valueAt "schema" document) := by
  by_cases hnull : valueAt "schema" document = .null
  · exact .inl hnull
  by_cases hmap : ∃ head m', valueAt "schema" document = .map head m'
  · obtain ⟨head, m', hmap⟩ := hmap
    refine .inr ⟨head, m', hmap, fun e he => ?_, ?_⟩
    · by_contra hkey
      exact hlapse (.headKey hmap he fun k hk hek => hkey ⟨k, hk, hek⟩)
    · by_contra hname
      exact hlapse (.headName hmap hname)
  have hmap' : ∀ head m', valueAt "schema" document ≠ .map head m' :=
    fun head m' h => hmap ⟨head, m', h⟩
  cases h with
  -- the definition of a table has no head
  | single hnone h =>
    obtain ⟨entries, name, hpart, -⟩ := h
    obtain ⟨⟨m', heq⟩, hkeys⟩ := partEntries_ok hpart
    cases heq
    have hmem := (valueAt_cases "schema" document).resolve_left hnull
    obtain ⟨k, hk, htext⟩ := checkKeys_ok_iff.mp hkeys _ hmem
    cases htext
    simp [Part.keys] at hk
  | listed _ _ hhead _ _ =>
    rw [decodeHead] at hhead
    split at hhead
    · next hfalse => exact (hlapse (.falseHead (by simpa using hfalse) hnull hmap')).elim
    · split at hhead
      · next head m' hhead' => exact (hmap' head m' hhead').elim
      · cases hhead

/-- **A document that is read** has the documented shape exactly when no lapse occurs in it. -/
theorem wellShaped_iff_of_decodeDocument {path : String} {st st' : Store} {s : SchemaId}
    (hread : outcome (decodeDocument path v) st = (.ok s, st')) (hdistinct : v.hasDistinctKeys) :
    ∃ document m, v = .map document m ∧ (WellShaped v ↔ ¬ Lapse document) := by
  have hdescribe := describes_decodeDocument path v st st rfl
  rw [hread] at hdescribe
  obtain ⟨o, hdescribe, -⟩ := hdescribe
  obtain ⟨document, m, rfl⟩ : ∃ document m, v = .map document m := by
    cases hdescribe <;> exact ⟨_, _, rfl⟩
  refine ⟨document, m, rfl, WellShaped.not_lapse, fun hlapse => ?_⟩
  refine ⟨document, m, rfl, hdescribe.shapedHead hlapse, fun part w hw => ?_⟩
  have haccepted := accepted_of_definitionIn hw hdescribe.accepted
  obtain ⟨entries, m', rfl, hkeys⟩ := haccepted.exists_entries
  have hnodup : (textKeys entries).Nodup := by
    have h := hw.hasDistinctKeys hdistinct
    rw [Value.hasDistinctKeys, Bool.and_eq_true] at h
    exact of_decide_eq_true h.1
  refine ⟨entries, m', rfl, checkKeys_ok_iff.mp hkeys, fun s hs => ?_, fun key hkey => ?_⟩
  · by_contra hshape
    have hfalse := (haccepted.isSection hs).resolve_left hshape
    exact hlapse (.falseSection hw hs hfalse hshape)
  · by_cases hreference : key = "reference_table"
    · subst hreference
      -- only constraints refer to tables
      obtain rfl : part = .constraint := by
        cases part <;> simp_all [Part.nameKeys]
      by_contra hname
      exact hlapse (.reference hw hname)
    · exact haccepted.isName hnodup key hkey hreference

/-- A document whose head has a key that is not documented. -/
def ownedDocument : Value :=
  .ofPairs [("schema", .ofPairs [("name", .text "s"), ("owner", .text "x")]),
    ("tables", .ofList [])]

theorem lapse_of_owned_head : ∃ document, ownedDocument = .map document .own ∧ Lapse document :=
  ⟨_, rfl, .headKey (e := (.text "owner", .text "x")) rfl (by simp) (by simp [headKeys])⟩

/-- That document is read. -/
theorem outcome_ownedDocument :
    ∃ s st', outcome (decodeDocument "s.yaml" ownedDocument) {} = (.ok s, st') := by
  have hok : (outcome (decodeDocument "s.yaml" ownedDocument) {}).1.isOk = true := by decide +kernel
  rcases hrun : outcome (decodeDocument "s.yaml" ownedDocument) {} with ⟨e | s, st'⟩ <;>
    rw [hrun] at hok
  · cases hok
  · exact ⟨s, st', rfl⟩

theorem wellShaped_iff_of_owned_head :
    (∃ s st', outcome (decodeDocument "s.yaml" ownedDocument) {} = (.ok s, st')) ∧
      ¬ WellShaped ownedDocument := by
  obtain ⟨s, st', hread⟩ := outcome_ownedDocument
  obtain ⟨document, m, heq, hiff⟩ := wellShaped_iff_of_decodeDocument hread (by decide)
  obtain ⟨document', heq', hlapse⟩ := lapse_of_owned_head
  cases heq.symm.trans heq'
  exact ⟨⟨s, st', hread⟩, fun h => hiff.mp h hlapse⟩

/-- It is not so that only documents of the documented shape are read. -/
theorem not_wellShaped_of_owned_head :
    ¬ ∀ (path : String) (v : Value) (st st' : Store) (s : SchemaId), v.hasDistinctKeys →
      outcome (decodeDocument path v) st = (.ok s, st') → WellShaped v := by
  intro h
  obtain ⟨s, st', hread⟩ := outcome_ownedDocument
  obtain ⟨document, heq, hlapse⟩ := lapse_of_owned_head
  have hshaped := h _ _ _ _ _ (by decide) hread
  rw [heq] at hshaped
  exact hshaped.not_lapse hlapse

end DbSchema
