import DbSchema.Document.Files
import DbSchema.Proofs.Document.Accepted
import DbSchema.Proofs.Document.Faults
import DbSchema.Proofs.Model.NewChildren

/-!
# How documents are refused

Reading a document is refused with an error of loading, except where a refusal of one of its
definitions runs into a fault.  This is followed from the children of a table to the table, the
document, and the files of a folder.

## Main definitions

* `EscapesIn top document f` — one of the definitions in a document escapes with the fault `f`.
* `PathEscapes d path f` — reading what stands at a path runs into the fault `f`.

## Main results

* `refusesWith_addField`, `refusesWith_addIndex`, `refusesWith_addConstraint` — children.
* `refusesWith_decodeTable`, `refusesWith_decodeDocument` — tables and documents.
* `loadPath_refuses` — files and folders.
-/

namespace DbSchema

/-! ### Refusals of children -/

section Children

variable {t : TableId} {v : Value} {ps : Params}

/-- A field is refused for the form of a value in its definition, or with an error that shows no
more than its name. -/
theorem refusesWith_addField (hps : fieldParams v = .ok ps) :
    RefusesWith (fun e => (LoadError.model e).FaultsIn (Escapes .field v))
      (Edit.addField t .null ps) := by
  obtain ⟨entries, m, rfl, hkeys, rfl⟩ := fieldParams_ok hps
  intro st e st' h f hf
  rw [Edit.outcome_addField, Edit.resolveField, Edit.outcome_newField] at h
  rcases hspec : FieldSpec.ofParams (paramsOf fieldParameter entries) with e' | spec <;>
    rw [hspec] at h <;> dsimp only at h
  · cases h
    obtain ⟨x, hx, w, hw, hcheck⟩ := FieldSpec.tidiesBy.specOf_error FieldSpec.fillsIn
      (known_of_checkKeys (by decide) hkeys) hspec
    obtain ⟨k, he, hk⟩ := mem_paramsOf_iff.mp hw
    -- the parameter of an attribute that has a form is called like its key
    have hkey : k = x.key := by
      obtain ⟨l, hl, htext⟩ := checkKeys_ok_iff.mp hkeys _ he
      cases htext
      have hall : ∀ k ∈ Part.field.keys, ∀ key ∈ FieldSpec.formed.map (·.key),
          fieldParameter k = key → k = key := by decide
      exact hall k hl _ (List.mem_map_of_mem hx) hk
    exact escapes_of_check (List.mem_map_of_mem (f := fun x => (x.key, x.form)) hx) (hkey ▸ he)
      hcheck hf
  · -- the field was made and then refused, which shows its name at most
    obtain ⟨s, hs, -⟩ := (FieldSpec.tidy_of_ofParams hspec).name
    split at h
    · next hmay =>
      cases h
      have hname : IsText ((st.setField ⟨st.fields.size⟩ { toFieldSpec := spec }).field
          ⟨st.fields.size⟩).name := by
        rw [Store.field_setField_self]
        exact ⟨s, hs⟩
      cases hf.symm.trans (fault?_of_mayAddField hmay hname)
    · cases h

/-- The parameters of an index or a constraint are refused for the form of a value in the
definition. -/
theorem faultsIn_of_specOf {σ : Type} {part : Part} {fill : σ → String → Value → Option σ}
    {attributes : σ → Params} {tidy : σ → Except ModelError σ} {default : σ}
    {formed : List (FormedAttribute σ)} (htidy : TidiesBy tidy attributes formed default)
    (hfill : FillsIn fill attributes part.keys)
    (hformed : ∀ x ∈ formed, (x.key, x.form) ∈ part.formed) (hps : childParams part v = .ok ps)
    {e : ModelError} (h : specOf fill tidy default ps = .error e) :
    (LoadError.model e).FaultsIn (Escapes part v) := by
  obtain ⟨entries, m, rfl, hkeys, rfl⟩ := childParams_ok hps
  obtain ⟨x, hx, w, hw, hcheck⟩ := htidy.specOf_error hfill
    (known_of_checkKeys (fun _ hk => hk) hkeys) h
  obtain ⟨k, he, hk⟩ := mem_paramsOf_iff.mp hw
  cases hk
  exact fun f hf => escapes_of_check (hformed x hx) he hcheck hf

theorem refusesWith_addIndex (hps : childParams .index v = .ok ps) :
    RefusesWith (fun e => (LoadError.model e).FaultsIn (Escapes .index v))
      (Edit.addIndex t .null ps) := by
  intro st e st' h
  rw [Edit.outcome_addIndex, Edit.resolveIndex, Edit.outcome_newIndex] at h
  rcases hspec : IndexSpec.ofParams ps with e' | spec <;> rw [hspec] at h <;> cases h
  exact faultsIn_of_specOf IndexSpec.tidiesBy IndexSpec.fillsIn
    (fun _ hx => List.mem_map_of_mem (f := fun x => (x.key, x.form)) hx) hps hspec

theorem refusesWith_addConstraint (hps : childParams .constraint v = .ok ps) :
    RefusesWith (fun e => (LoadError.model e).FaultsIn (Escapes .constraint v))
      (Edit.addConstraint t .null ps) := by
  intro st e st' h
  rw [Edit.outcome_addConstraint, Edit.resolveConstraint, Edit.outcome_newConstraint] at h
  rcases hspec : ConstraintSpec.ofParams ps with e' | spec <;> rw [hspec] at h <;> cases h
  exact faultsIn_of_specOf ConstraintSpec.tidiesBy ConstraintSpec.fillsIn
    (fun _ hx => List.mem_map_of_mem (f := fun x => (x.key, x.form)) hx) hps hspec

end Children

/-- A pure step is refused for its reason, and then nothing follows. -/
theorem RefusesWith.pureStep_bind {α β : Type} {R : LoadError → Prop} {r : Except LoadError α}
    {f : α → Load β} (hr : ∀ e, r = .error e → R e) (hf : ∀ a, r = .ok a → RefusesWith R (f a)) :
    RefusesWith R (Load.pureStep r >>= f) := by
  rcases r with e | a
  · rintro st x st' ⟨⟩
    exact hr e rfl
  · rw [Load.pureStep, pure_bind]
    exact hf a rfl

/-- Reading children is refused for one of their definitions. -/
theorem refusesWith_decodeChildren {params : Value → Except LoadError Params}
    {add : Params → Edit Unit} {C : Fault → Prop} {vs : List Value}
    (hparams : ∀ v ∈ vs, ∀ e, params v = .error e → e.FaultsIn C)
    (hadd : ∀ v ∈ vs, ∀ ps, params v = .ok ps →
      RefusesWith (fun e => (LoadError.model e).FaultsIn C) (add ps)) :
    RefusesWith (LoadError.FaultsIn C) (decodeChildren params add vs) := by
  induction vs with
  | nil => exact .pure
  | cons v r ih =>
    refine .pureStep_bind (hparams v List.mem_cons_self) fun ps hps => ?_
    refine .bind (.adapt (hadd v List.mem_cons_self ps hps)) fun _ => ?_
    exact ih (fun w hw => hparams w (List.mem_cons_of_mem v hw))
      fun w hw => hadd w (List.mem_cons_of_mem v hw)

/-! ### Refusals of tables and documents -/

section Tables

variable {top : Part} {document : List (Value × Value)}

/-- One of the definitions in a document escapes with a fault. -/
def EscapesIn (top : Part) (document : List (Value × Value)) (f : Fault) : Prop :=
  ∃ part v, DefinitionIn top document part v ∧ Escapes part v f

variable {entries : List (Value × Value)} {m : Mark}

/-- The children in a section of a table are refused for one of their definitions. -/
theorem refusesWith_section {inner : Part} {key : String}
    {params : Value → Except LoadError Params} {add : Params → Edit Unit}
    (h : DefinitionIn top document .table (.map entries m))
    (hsection : (key, inner) ∈ Part.table.sections)
    (hparams : ∀ v e, params v = .error e → e.LoadOr (Escapes inner v))
    (hadd : ∀ v ps, params v = .ok ps →
      RefusesWith (fun e => (LoadError.model e).FaultsIn (Escapes inner v)) (add ps))
    {β : Type} {f : Unit → Load β}
    (hf : RefusesWith (LoadError.FaultsIn (EscapesIn top document)) (f ())) :
    RefusesWith (LoadError.FaultsIn (EscapesIn top document))
      (Load.pureStep (sectionItems key entries) >>= fun vs =>
        decodeChildren params add vs >>= f) := by
  refine .pureStep_bind (fun e he f hf => ?_) fun vs hvs => .bind ?_ fun _ => hf
  · exact ⟨_, _, h, (loadOr_of_sectionItems hsection he).faultsIn f hf⟩
  -- the items of the section are definitions of the document
  have hin : ∀ v ∈ vs, DefinitionIn top document inner v := by
    obtain ⟨m', hlist⟩ | ⟨-, rfl⟩ := sectionItems_ok hvs
    · exact fun v hv => .item h hsection hlist hv
    · simp
  refine refusesWith_decodeChildren (fun v hv e he f hf => ?_) fun v hv ps hps => ?_
  · exact ⟨inner, v, hin v hv, (hparams v e he).faultsIn f hf⟩
  · exact (hadd v ps hps).mono fun e he f hf => ⟨inner, v, hin v hv, he f hf⟩

/-- The entries of a table are refused for one of the definitions in them. -/
theorem refusesWith_decodeTableBody {name : String} (hname : tableName entries = .ok name)
    (h : DefinitionIn top document .table (.map entries m)) :
    RefusesWith (LoadError.FaultsIn (EscapesIn top document)) (decodeTableBody name entries) := by
  have hnew : ∀ st, Ensures (· = st) _ _ _ := fun st =>
    (ensures_newTable (b := st) (truthy_of_tableName hname)).weaken
      (fun st' hst => hst ▸ .refl st') (fun _ _ h => h) fun _ h => h
  refine .bind (.of_ensures hnew) fun t => ?_
  have hfields : ("fields", Part.field) ∈ Part.table.sections := by simp [Part.sections]
  refine refusesWith_section h hfields
    (fun _ _ => loadOr_of_fieldParams) (fun _ _ hps => .discard (refusesWith_addField hps)) ?_
  have hindices : ("indices", Part.index) ∈ Part.table.sections := by simp [Part.sections]
  refine refusesWith_section h hindices
    (fun _ _ => loadOr_of_childParams) (fun _ _ hps => .discard (refusesWith_addIndex hps)) ?_
  have hconstraints : ("constraints", Part.constraint) ∈ Part.table.sections := by
    simp [Part.sections]
  refine refusesWith_section h hconstraints
    (fun _ _ => loadOr_of_childParams) (fun _ _ hps => .discard (refusesWith_addConstraint hps)) ?_
  by_cases htrue : (valueAt "options" entries).truthy
  · simp only [htrue, if_true]
    refine .bind (.discard (.adapt fun st e st' he f hf => ?_)) fun _ => .pure
    rw [Edit.outcome_addOptions] at he
    rcases hnames : splitNames [valueAt "options" entries] with r | names <;> rw [hnames] at he <;>
      cases he
    -- the options count as true, so there is an entry for them
    have hentry : (.text "options", valueAt "options" entries) ∈ entries := by
      refine (valueAt_cases "options" entries).resolve_left fun hnull => ?_
      rw [hnull] at htrue
      cases htrue
    have hcheck : AttributeForm.names.check (valueAt "options" entries) =
        .error (.wrongType r) := by
      rw [AttributeForm.check, nameList, hnames]
      rfl
    have hform : ("options", .names) ∈ Part.table.formed := by simp [Part.formed]
    exact ⟨_, _, h, escapes_of_check hform hentry hcheck hf⟩
  · simp only [htrue]
    exact .pure

/-- A table definition is refused for itself or one of the definitions in it. -/
theorem refusesWith_decodeTable {v : Value} (s : SchemaId)
    (h : DefinitionIn top document .table v) :
    RefusesWith (LoadError.LoadOr (EscapesIn top document)) (decodeTable s v) := by
  refine .pureStep_bind (fun e he => ?_) fun entries hentries => ?_
  · exact (loadOr_of_partEntries he).mono fun f hf => ⟨_, _, h, hf⟩
  obtain ⟨⟨m, rfl⟩, -⟩ := partEntries_ok hentries
  refine .pureStep_bind (fun e he => ?_) fun name hname => ?_
  · exact (loadOr_of_tableName he).mono fun f hf => ⟨_, _, h, hf⟩
  refine .adapt (RefusesWith.mono (R := LoadError.FaultsIn (EscapesIn top document)) ?_
    fun e he => LoadError.loadOr_within he)
  intro st e st' he
  rw [outcome_bind] at he
  have hbody := describes_decodeTableBody (b := st) hname st (.refl st)
  rcases hrun : outcome (decodeTableBody name entries) st with ⟨e' | t, st''⟩ <;>
    rw [hrun] at he hbody <;> dsimp only at he
  · cases he
    exact refusesWith_decodeTableBody hname h st _ _ hrun
  -- the table was built with its name, so a refusal to list it shows a text at most
  · obtain ⟨o, ⟨ho, -, -⟩, hdraft⟩ := hbody
    have hname' : (st''.table t).name = .text name :=
      (congrArg TableOutline.name hdraft.outline).trans ho
    rw [Load.edit, outcome_adapt, Edit.outcome_addTable_object, Edit.outcome_register] at he
    rcases hmay : Edit.mayList st'' s t with e' | u <;> rw [hmay] at he <;> cases he
    rw [Edit.mayList, hname'] at hmay
    have hhash : (Value.text name).hashable := rfl
    obtain ⟨u, hlookup⟩ := exists_lookupTable st'' s hhash
    rw [hlookup] at hmay
    intro f hf
    split at hmay
    · split at hmay
      · next hu => cases hu
      · cases hmay
      · split at hmay <;> cases hmay
        cases hf
    · cases hmay
      cases hf

/-- A list of table definitions is refused for one of them. -/
theorem refusesWith_decodeTables (s : SchemaId) {vs : List Value}
    (h : ∀ v ∈ vs, DefinitionIn top document .table v) :
    RefusesWith (LoadError.LoadOr (EscapesIn top document)) (decodeTables s vs) := by
  induction vs with
  | nil => exact .pure
  | cons v r ih =>
    refine .bind (.discard (refusesWith_decodeTable s (h v List.mem_cons_self))) fun _ => ?_
    exact ih fun w hw => h w (List.mem_cons_of_mem v hw)

end Tables

/-- The document runs into a fault when it is refused: one of its definitions escapes. -/
def Runaway (v : Value) (f : Fault) : Prop :=
  ∃ entries m, v = .map entries m ∧ EscapesIn (topPart entries) entries f

/-- What follows the reading of the entries of a document may use that it is a mapping; it is refused
with an error of loading otherwise. -/
theorem RefusesWith.documentEntries_bind {α : Type} {C : Fault → Prop} {path : String} {v : Value}
    {f : List (Value × Value) → Load α}
    (hf : ∀ entries m, v = .map entries m → RefusesWith (LoadError.LoadOr C) (f entries)) :
    RefusesWith (LoadError.LoadOr C) (Load.pureStep (documentEntries path v) >>= f) := by
  refine .pureStep_bind (fun e he => ?_) fun entries hentries => ?_
  · cases v <;> cases he <;> exact LoadError.loadOr_of_fault? rfl rfl
  · obtain ⟨m, hv⟩ := documentEntries_ok hentries
    exact hf entries m hv

/-- The head of a document is refused with an error of loading only. -/
theorem loadOr_of_decodeHead {C : Fault → Prop} {entries : List (Value × Value)} {e : LoadError}
    (h : decodeHead entries = .error e) : e.LoadOr C := by
  rw [decodeHead] at h
  split at h
  · cases h
  · split at h <;> cases h
    exact LoadError.loadOr_of_fault? rfl rfl

/-- The entries of a document are refused with an error of loading, or for one of the definitions in
them. -/
theorem refusesWith_decodeEntries (entries : List (Value × Value)) :
    RefusesWith (LoadError.LoadOr (EscapesIn (topPart entries) entries)) (decodeEntries entries) := by
  have hnew : ∀ name database,
      RefusesWith (LoadError.LoadOr (EscapesIn (topPart entries) entries))
        (Load.edit (Edit.newSchema name database)) := by
    rintro name database st e st' ⟨⟩
  have hdocument : DefinitionIn (topPart entries) entries (topPart entries) (.map entries .own) :=
    .document
  rw [decodeEntries]
  split
  · next hnone =>
    -- the document is a table definition itself
    have htop : topPart entries = .table := by
      rw [topPart, if_neg (by simpa using hnone)]
    refine .bind (hnew _ _) fun s => .bind (.discard ?_) fun _ => .pure
    exact refusesWith_decodeTable s (htop ▸ hdocument)
  · next hsome =>
    -- the document lists tables
    have htop : topPart entries = .schema := by
      rw [topPart, if_pos (by simpa [Option.isSome_iff_ne_none] using hsome)]
    have hsection : ("tables", Part.table) ∈ Part.schema.sections := by simp [Part.sections]
    rw [htop] at hdocument hnew ⊢
    refine .pureStep_bind (fun e he => ?_) fun _ _ => ?_
    · exact (loadOr_of_checkKeys he).mono fun f hf => ⟨_, _, hdocument, hf⟩
    refine .pureStep_bind (fun e he => loadOr_of_decodeHead he) fun head _ => ?_
    refine .bind (hnew _ _) fun s => .pureStep_bind (fun e he => ?_) fun vs hvs => ?_
    · exact (loadOr_of_sectionItems hsection he).mono fun f hf => ⟨_, _, hdocument, hf⟩
    refine .bind (refusesWith_decodeTables s fun v hv => ?_) fun _ => .pure
    obtain ⟨m', hlist⟩ | ⟨-, rfl⟩ := sectionItems_ok hvs
    · exact .item hdocument hsection hlist hv
    · cases hv

/-- **A document is refused** with an error of loading, or with a fault that one of its definitions
escapes with. -/
theorem refusesWith_decodeDocument (path : String) (v : Value) :
    RefusesWith (LoadError.LoadOr (Runaway v)) (decodeDocument path v) := by
  refine .documentEntries_bind fun entries m hv => ?_
  exact (refusesWith_decodeEntries entries).mono fun e he =>
    he.mono fun f hf => ⟨entries, m, hv, hf⟩

/-! ### Refusals of files and folders -/

/-- Reading a text runs into a fault: no value can be made of it, or its value is a document that
does. -/
inductive TextEscapes (escapes : Value → Fault → Prop) (text : String) : Fault → Prop
  | valueless {base : Nat} {f : Fault} (h : Yaml.readDocument base text = .error (.fault f)) :
      TextEscapes escapes text f
  | document {base next : Nat} {v : Value} {f : Fault}
      (h : Yaml.readDocument base text = .ok (v, next)) (hv : escapes v f) :
      TextEscapes escapes text f

/-- A text that cannot be read is no document or has no value. -/
theorem refusesWith_parseText {escapes : Value → Fault → Prop} (path text : String) :
    RefusesWith (LoadError.LoadOr (TextEscapes escapes text)) (parseText path text) := by
  intro st e st' h
  rw [parseText, outcome_get_bind] at h
  rcases hread : Yaml.readDocument st.nextNode text with (f | f) | ⟨v, next⟩ <;> rw [hread] at h <;>
    cases h
  · exact LoadError.loadOr_of_fault? rfl rfl
  · exact LoadError.loadOr_fault (.valueless hread)

/-- The value that a text is read as. -/
theorem readDocument_of_parseText {path text : String} {st st' : Store} {v : Value}
    (h : outcome (parseText path text) st = (.ok v, st')) :
    ∃ next, Yaml.readDocument st.nextNode text = .ok (v, next) := by
  rw [parseText, outcome_get_bind] at h
  rcases hread : Yaml.readDocument st.nextNode text with (f | f) | ⟨w, next⟩ <;> rw [hread] at h <;>
    cases h
  exact ⟨next, rfl⟩

/-- The names of the documents in a folder. -/
def documentNames (d : Folder) (path : Path) : List String :=
  (((d.resolve path).map d.names).toOption.getD []).filter fun name =>
    Text.hasEnd name documentSuffix

/-- The document in a file of a folder defines a table, and one of the definitions in it escapes. -/
def TableRunaway (v : Value) (f : Fault) : Prop :=
  ∃ entries m, v = .map entries m ∧ EscapesIn .table entries f

/-- Reading what stands at a path runs into a fault: for what stands there or in the folder there,
or for a text or a document in one of the files. -/
inductive PathEscapes (d : Folder) (path : Path) : Fault → Prop
  | longName (h : d.entry path = .error .longName) : PathEscapes d path .longName
  | file {text : String} {f : Fault} (h : d.entry path = .ok (.file text))
      (hf : TextEscapes Runaway text f) : PathEscapes d path f
  | fileInside {name text : String} {f : Fault} (h : d.entry path = .ok .folder)
      (hname : name ∈ documentNames d path) (hfile : d.entry (path.child name) = .ok (.file text))
      (hf : TextEscapes TableRunaway text f) : PathEscapes d path f
  | folderInside {name : String} (h : d.entry path = .ok .folder)
      (hname : name ∈ documentNames d path) (hfolder : d.entry (path.child name) = .ok .folder) :
      PathEscapes d path .isFolder
  | lost {name : String} {f : Fault} (h : d.entry path = .ok .folder)
      (hname : name ∈ documentNames d path) (hf : d.entry (path.child name) = .error f) :
      PathEscapes d path f

/-- What follows the reading of a text may use that it holds the value. -/
theorem RefusesWith.parseText_bind {α : Type} {escapes : Value → Fault → Prop} {C : Fault → Prop}
    {path text : String} {f : Value → Load α} (hC : ∀ g, TextEscapes escapes text g → C g)
    (hf : ∀ v, (∃ base next, Yaml.readDocument base text = .ok (v, next)) →
      RefusesWith (LoadError.LoadOr C) (f v)) :
    RefusesWith (LoadError.LoadOr C) (parseText path text >>= f) := by
  intro st e st' h
  rw [outcome_bind] at h
  rcases hrun : outcome (parseText path text) st with ⟨e' | v, st''⟩ <;> rw [hrun] at h
  · cases h
    exact (refusesWith_parseText path text st _ _ hrun).mono hC
  · obtain ⟨next, hread⟩ := readDocument_of_parseText hrun
    exact hf v ⟨_, next, hread⟩ _ e st' h

theorem refusesWith_decodeText (path text : String) :
    RefusesWith (LoadError.LoadOr (TextEscapes Runaway text)) (decodeText path text) := by
  refine .parseText_bind (fun f (hf : TextEscapes Runaway text f) => hf)
    fun v ⟨base, next, hread⟩ => ?_
  exact (refusesWith_decodeDocument path v).mono fun e he => he.mono fun f hf => .document hread hf

/-- The files of a folder are refused for one of them. -/
theorem refusesWith_loadFiles {d : Folder} {path : Path} (s : SchemaId)
    (h : d.entry path = .ok .folder) {names : List String}
    (hnames : ∀ name ∈ names, name ∈ documentNames d path) :
    RefusesWith (LoadError.LoadOr (PathEscapes d path)) (loadFiles d path s names) := by
  induction names with
  | nil => exact .pure
  | cons name r ih =>
    have hname := hnames name List.mem_cons_self
    rw [loadFiles]
    rcases hentry : d.entry (path.child name) with f | text | _
    · exact .throw (LoadError.loadOr_fault (.lost h hname hentry))
    · dsimp only
      refine .parseText_bind (fun f hf => PathEscapes.fileInside h hname hentry hf)
        fun v ⟨base, next, hread⟩ => ?_
      refine .documentEntries_bind fun entries m hv => ?_
      have hdocument : DefinitionIn .table entries .table (.map entries .own) := .document
      have htable := refusesWith_decodeTable s hdocument
      refine .bind (.discard (htable.mono fun e he => he.mono fun f hf => ?_)) fun _ =>
        ih fun n hn => hnames n (List.mem_cons_of_mem name hn)
      exact .fileInside h hname hentry (.document hread ⟨entries, m, hv, hf⟩)
    · exact .throw (LoadError.loadOr_fault (.folderInside h hname hentry))

/-- **Reading a file or a folder** is refused with an error of loading, except for a fault: where
the files are there and their texts hold values, it is that of a definition in one of them which has
a key that is no text, has an infinity in the list of a size, or holds an integer of too many digits
in what the refusal shows. -/
theorem loadPath_refuses {d : Folder} {path : Path} {st st' : Store} {e : LoadError}
    (h : outcome (loadPath d path) st = (.error e, st')) :
    e.IsLoad ∨ ∃ f, e.fault? = some f ∧ PathEscapes d path f := by
  have hall : RefusesWith (LoadError.LoadOr (PathEscapes d path)) (loadPath d path) := by
    rw [loadPath]
    rcases hentry : d.entry path with f | text | _
    · cases f with
      | longName =>
        exact .throw (LoadError.loadOr_fault (.longName hentry))
      | _ => exact .throw (LoadError.loadOr_of_fault? rfl rfl)
    · exact (refusesWith_decodeText path.text text).mono fun e he =>
        he.mono fun f hf => .file hentry hf
    · refine .bind ?_ fun s => .bind (refusesWith_loadFiles s hentry fun _ h => h) fun _ => .pure
      rintro st e st' ⟨⟩
  exact hall st e st' h

/-- A world with one file: a table with a key that is no text. -/
def oddKeyFolder : Folder := .ofEntries [] [(.ofText "t.yaml", .file "{table: t, 1: a}")]

/-- Whether reading ended because the keys of a mapping cannot be listed. -/
def isUnlistable : Except LoadError SchemaId → Bool
  | .error (.fault .unlistable) => true
  | _ => false

theorem eq_of_isUnlistable {r : Except LoadError SchemaId} (h : isUnlistable r = true) :
    r = .error (.fault .unlistable) := by
  unfold isUnlistable at h
  split at h
  · rfl
  · cases h

/-- Reading that file runs into a fault. -/
theorem outcome_oddKeyFolder : ∃ st',
    outcome (loadPath oddKeyFolder (.ofText "t.yaml")) {} = (.error (.fault .unlistable), st') := by
  have hrun : isUnlistable (outcome (loadPath oddKeyFolder (.ofText "t.yaml")) {}).1 = true := by
    decide +kernel
  rcases hout : outcome (loadPath oddKeyFolder (.ofText "t.yaml")) {} with ⟨r, st'⟩
  rw [hout] at hrun
  obtain rfl := eq_of_isUnlistable hrun
  exact ⟨st', rfl⟩

theorem loadPath_refuses_of_odd_key : ∃ st',
    outcome (loadPath oddKeyFolder (.ofText "t.yaml")) {} = (.error (.fault .unlistable), st') ∧
      PathEscapes oddKeyFolder (.ofText "t.yaml") .unlistable := by
  obtain ⟨st', hout⟩ := outcome_oddKeyFolder
  obtain hload | ⟨f, hf, hescapes⟩ := loadPath_refuses hout
  · cases hload.1
  · cases hf
    exact ⟨st', hout, hescapes⟩

/-- It is not so that files which hold values are refused with errors of loading only. -/
theorem not_isLoad_of_odd_key :
    ¬ ∀ (d : Folder) (path : Path) (text : String) (st st' : Store) (v : Value) (next : Nat)
      (e : LoadError), d.entry path = .ok (.file text) →
      Yaml.readDocument st.nextNode text = .ok (v, next) →
      outcome (loadPath d path) st = (.error e, st') → e.IsLoad := by
  intro h
  have hread : (Yaml.readDocument 0 "{table: t, 1: a}").isOk = true := by decide +kernel
  rcases hvalue : Yaml.readDocument 0 "{table: t, 1: a}" with e | ⟨v, next⟩ <;> rw [hvalue] at hread
  · cases hread
  obtain ⟨st', hout⟩ := outcome_oddKeyFolder
  cases (h oddKeyFolder (.ofText "t.yaml") _ {} st' v next _ rfl hvalue hout).1

end DbSchema
