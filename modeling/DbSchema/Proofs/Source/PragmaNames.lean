import DbSchema.Proofs.Source.Asking
import DbSchema.Proofs.Source.Drawing
import DbSchema.Proofs.Source.Quoting

/-!
# Names in the statements of pragmas

Pragmas take no parameters, so the names of tables and of indices stand in their texts, between
double quotes and with every quote inside written twice.  Read by the rule for quoted identifiers
each statement is a keyword and one identifier in parentheses, and the identifier denotes the name
that it was made from, whatever characters that has.

## Main definitions

* `Pragma`, `Pragma.text p name` — the pragmas that are asked, and how they are sent.
* `Pragma.pieces p name` — the texts and the name that a statement is made of.
* `Pragma.Denotes p name sql` — the text is read as the pragma for this name, and as nothing else.
* `Reports c sql name` — the name is in a row that the database can give for the statement.
* `About c table sql` — what is sent about a table and its indices.

## Main results

* `Pragma.carries_text` — a pragma carries its name.
* `Pragma.eq_of_carries` — a text carries at most one name, for one pragma.
* `asks_quoted` — every pragma that is sent denotes the table or an index that is reported for it.
-/

namespace DbSchema.Source.Pragmas

open Probe Sql

/-! ### Pragmas and their pieces -/

/-- The pragmas that are asked: three about a table, and one about an index. -/
inductive Pragma
  | tableInfo
  | indexList
  | foreignKeyList
  | indexInfo
deriving DecidableEq

namespace Pragma

/-- The word for the pragma. -/
def word : Pragma → String
  | tableInfo => "table_info"
  | indexList => "index_list"
  | foreignKeyList => "foreign_key_list"
  | indexInfo => "index_info"

/-- The statement as it is sent for the object with the name. -/
def text (p : Pragma) (name : String) : String := statement p.word (quoteIdentifier name)

/-- What stands before the name. -/
def opening (p : Pragma) : String := "PRAGMA " ++ p.word ++ "("

/-- The rule for quoted identifiers: two quotes stand for one, and a single one is the end. -/
def identifier : Quoting := .doubling '"'

/-- The texts and the name that a statement is made of. -/
def pieces (p : Pragma) (name : String) : List Piece :=
  [.text p.opening, .quoted identifier name, .text ")"]

variable {p q : Pragma} {name a b sql : String} {cs : List Char}

/-- A quoted name is read to its end, and denotes the name. -/
theorem read_quoteIdentifier (name : String) {post : List Char} (h : post.head? ≠ some '"') :
    identifier.read ((quoteIdentifier name).toList ++ post) = some (name.toList, post) := by
  have hwritten : (quoteIdentifier name).toList ++ post =
      '"' :: (Text.replaceChar '"' ['"', '"'] name.toList ++ '"' :: post) := by
    simp [quoteIdentifier, String.toList_append]
  rw [hwritten, Quoting.read, if_pos (show '"' = identifier.mark from rfl)]
  exact Quoting.body_replaceChar h name.toList

theorem carries_pieces_iff :
    carries (p.pieces name) cs = true ↔
      ∃ written, cs = p.opening.toList ++ written ∧
        identifier.read written = some (name.toList, [')']) := by
  unfold pieces
  rw [carries_text_iff]
  refine exists_congr fun written => and_congr_right fun _ => ?_
  rw [carries_quoted_iff]
  constructor
  · rintro ⟨rest, hread, hrest⟩
    obtain ⟨last, rfl, hlast⟩ := carries_text_iff.mp hrest
    rw [carries, List.isEmpty_iff] at hlast
    rw [hread, hlast]
    rfl
  · intro hread
    exact ⟨_, hread, carries_text_iff.mpr ⟨[], rfl, rfl⟩⟩

/-- **A pragma carries its name**, whatever characters the name has. -/
theorem carries_text (p : Pragma) (name : String) :
    carries (p.pieces name) (p.text name).toList := by
  refine carries_pieces_iff.mpr ⟨(quoteIdentifier name).toList ++ [')'], ?_, ?_⟩
  · unfold text statement opening
    simp only [String.toList_append, List.append_assoc]
    rfl
  · exact read_quoteIdentifier name (by decide)

/-- Pragmas are told apart by what stands before the name. -/
theorem eq_of_opening {rest rest' : List Char}
    (h : p.opening.toList ++ rest = q.opening.toList ++ rest') : p = q := by
  -- The openings differ within their first fourteen characters, and none is shorter.
  have hlong : ∀ r : Pragma, 14 ≤ r.opening.toList.length := by
    intro r
    cases r <;> decide
  have htake := congrArg (List.take 14) h
  rw [List.take_append_of_le_length (hlong p), List.take_append_of_le_length (hlong q)] at htake
  cases p <;> cases q <;> first | rfl | exact absurd htake (by decide)

/-- **A text carries at most one name, for one pragma.** -/
theorem eq_of_carries (hp : carries (p.pieces a) cs) (hq : carries (q.pieces b) cs) :
    p = q ∧ a = b := by
  obtain ⟨written, rfl, hread⟩ := carries_pieces_iff.mp hp
  obtain ⟨written', heq, hread'⟩ := carries_pieces_iff.mp hq
  have hpq : p = q := eq_of_opening heq
  subst hpq
  have hsame : written = written' := List.append_cancel_left heq
  subst hsame
  rw [hread] at hread'
  refine ⟨rfl, String.toList_inj.mp ?_⟩
  exact congrArg Prod.fst (Option.some.inj hread')

/-- The text is read as the pragma for the object with this name, and as nothing else. -/
structure Denotes (p : Pragma) (name sql : String) : Prop where
  carried : carries (p.pieces name) sql.toList
  sole : ∀ q b, carries (q.pieces b) sql.toList → q = p ∧ b = name

theorem denotes_text (p : Pragma) (name : String) : p.Denotes name (p.text name) :=
  ⟨carries_text p name, fun _ _ h => eq_of_carries h (carries_text p name)⟩

/-- Statements for different pragmas or different names are different. -/
theorem text_inj (h : p.text a = q.text b) : p = q ∧ a = b :=
  eq_of_carries (carries_text p a) (h ▸ carries_text q b)

end Pragma

/-! ### What is sent -/

/-- The name is in a row that the database can give for the statement. -/
def Reports (c : Connection) (sql name : String) : Prop :=
  ∃ rows, (∃ σ, (outcome (fetchAll c sql none) σ).1 = .ok rows) ∧
    ∃ row ∈ rows, row.item "name" = .ok (.text name)

/-- What is sent about a table: the question for the text that it was made with, which takes the
name as a parameter, the pragmas for the table, and the one for each index that is reported. -/
inductive About (c : Connection) (table : String) : String → Prop
  | source : About c table sourceStatement
  | ofTable {p : Pragma} {sql : String} (hp : p ≠ .indexInfo) (h : p.Denotes table sql) :
      About c table sql
  | ofIndex {index sql : String} (hindex : Reports c (Pragma.indexList.text table) index)
      (h : Pragma.indexInfo.Denotes index sql) : About c table sql

variable {c : Connection} {table : String} {allowed : String → Prop}

theorem asks_addColumns (t : TableId) (rows : List Row) : Asks allowed (addColumns t rows) := by
  induction rows with
  | nil => exact .pure
  | cons row r ih =>
    unfold addColumns
    refine (asks_pureStep _).bind fun type => (asks_pureStep _).bind fun parts => ?_
    refine (asks_pureStep _).bind fun name => (asks_pureStep _).bind fun notNull => ?_
    refine (asks_pureStep _).bind fun default => (asks_edit _).discard.bind fun _ => ?_
    exact (asks_pureStep _).bind fun position => ih.bind fun keys => .pure

theorem asks_hasAutoincrement (name : Value) : Asks (About c table) (hasAutoincrement c name) := by
  refine (asks_fetchAll .source _).bind fun rows => ?_
  split
  · exact .pure
  · exact (asks_pureStep _).bind fun sql => (asks_pureStep _).bind fun text => .pure

theorem asks_addKey (t : TableId) (name : Value) (keys : List Value) :
    Asks (About c table) (addKey c t name keys) := by
  unfold addKey
  refine .ite ((asks_edit _).discard.bind fun _ => ?_) .pure
  split
  · refine (asks_edit _).bind fun f => .get_bind fun σ => (asks_pureStep _).bind fun type => ?_
    refine .ite ((asks_hasAutoincrement name).bind fun auto => ?_) .pure
    exact .ite (asks_edit _) .pure
  · exact .pure

theorem asks_addForeignKey (t : TableId) (rows : List Row) :
    Asks allowed (addForeignKey t rows) := by
  unfold addForeignKey
  refine (asks_pureStep _).bind fun sorted => ?_
  split
  · exact .pure
  · refine (Asks.mapM _ fun row _ => asks_pureStep _).bind fun fields => ?_
    refine (asks_pureStep _).bind fun target => ?_
    refine (Asks.mapM _ fun row _ => asks_pureStep _).bind fun targets => ?_
    refine ((asks_pureStep _).bind fun v => .pure).bind fun onUpdate => ?_
    refine ((asks_pureStep _).bind fun v => .pure).bind fun onDelete => ?_
    exact ((asks_pureStep _).bind fun v => .pure).bind fun matching => (asks_edit _).discard

/-- The columns of an index are asked for by its name, which must be a text. -/
theorem asks_indexColumns {name : Value}
    (h : ∀ index, name = .text index → allowed (Pragma.indexInfo.text index)) :
    Asks allowed (indexColumns c name) := by
  refine asks_pureStep_bind fun index hindex => ?_
  have hname : name = .text index := by
    cases name <;> cases hindex
    rfl
  refine (asks_fetchAll (h index hname) none).bind fun rows => ?_
  exact (asks_pureStep _).bind fun sorted => Asks.mapM _ fun row _ => asks_pureStep _

theorem asks_addIndex (t : TableId) {row : Row}
    (h : ∀ index, row.item "name" = .ok (.text index) → allowed (Pragma.indexInfo.text index)) :
    Asks allowed (addIndex c t row) := by
  unfold addIndex
  refine (asks_pureStep _).bind fun origin => ?_
  refine .ite (asks_pureStep_bind fun name hname => ?_) .pure
  have hcolumns : Asks allowed (indexColumns c name) :=
    asks_indexColumns fun index hindex => h index (hindex ▸ hname)
  refine hcolumns.bind fun columns => .ite ?_ (.ite ?_ ?_)
  · exact (asks_plain _).bind fun text => asks_tell _ _
  · exact (asks_edit _).discard
  · exact (asks_pureStep _).bind fun unique => (asks_edit _).discard

/-- **Reading a table sends only what is about it.**  A table whose name is no text is not asked
about at all. -/
theorem asks_readTable (name : Value) :
    Asks (fun sql => ∃ table, name = .text table ∧ About c table sql) (readTable c name) := by
  refine (asks_edit _).bind fun t => asks_pureStep_bind fun table htable => ?_
  have hname : name = .text table := by
    cases name <;> cases htable
    rfl
  have hsent : ∀ {sql}, About c table sql → ∃ table, name = .text table ∧ About c table sql :=
    fun h => ⟨table, hname, h⟩
  have hpragma : ∀ p : Pragma, p ≠ .indexInfo → About c table (p.text table) :=
    fun p hp => .ofTable hp (p.denotes_text table)
  refine (asks_fetchAll (hsent (hpragma .tableInfo (by decide))) none).bind fun rows => ?_
  refine (asks_addColumns t rows).bind fun keys => (asks_pureStep _).bind fun sorted => ?_
  refine ((asks_addKey t name _).mono fun _ h => hsent h).bind fun _ => ?_
  -- the indices that are asked about are those of the rows that the database gives
  refine (asks_fetchAll (hsent (hpragma .indexList (by decide))) none).bind_of_ok
    fun rows hrows => ?_
  have hindices : Asks (About c table) (rows.forM (addIndex c t)) :=
    Asks.forM _ fun row hrow => asks_addIndex t fun index hindex =>
      .ofIndex ⟨rows, hrows, row, hrow, hindex⟩ (Pragma.indexInfo.denotes_text index)
  refine (hindices.mono fun _ h => hsent h).bind fun _ => ?_
  refine (asks_fetchAll (hsent (hpragma .foreignKeyList (by decide))) none).bind fun rows => ?_
  refine (asks_pureStep _).bind fun groups => ?_
  exact (Asks.forM _ fun g _ => asks_addForeignKey t g.2).bind fun _ => .pure

/-- What is read from some rows are their cells. -/
theorem forall₂_of_items {rows : List Row} {column : String} {values : List Value}
    (h : ∃ σ, (outcome (rows.mapM fun row => pureStep (row.item column)) σ).1 = .ok values) :
    List.Forall₂ (fun row v => row.item column = .ok v) rows values := by
  obtain ⟨σ, hvalues⟩ := h
  have hgives := Gives.mapM (w := Watch.ofStore (answering []) fun _ => True)
    (P := fun _ => True) rows (fun row _ => gives_pureStep (row.item column)) σ
    ⟨trivial, trivial, trivial⟩
  rcases ho : outcome (rows.mapM fun row => pureStep (row.item column)) σ with ⟨e | vs, σ'⟩ <;>
    rw [ho] at hvalues hgives <;> cases hvalues
  exact hgives.2

/-- **Every pragma that is sent denotes exactly the table or the index that it is about**, whatever
characters the name has, what the database answers, and wherever the reading ends.  The tables are
those that the database lists, and the indices those that it reports for the table.  So statements
for different names are different. -/
theorem asks_quoted (c : Connection) :
    (∀ name, Asks (fun sql => ∃ table, name = .text table ∧ About c table sql)
      (readTable c name)) ∧
      Asks (fun sql => sql = listStatement ∨
          ∃ table, Reports c listStatement table ∧ About c table sql)
        (readTables .sqlite c .pragmas) ∧
      ∀ p q a b, Pragma.text p a = Pragma.text q b → p = q ∧ a = b := by
  refine ⟨asks_readTable, ?_, fun p q a b => Pragma.text_inj⟩
  refine Asks.attempt_bind ?_ fun r => ?_
  · show Asks _ (tableNames c >>= Reader.readEach c .pragmas)
    unfold tableNames
    rw [bind_assoc]
    refine (asks_fetchAll (.inl rfl) none).bind_of_ok fun rows hrows => ?_
    refine (Asks.mapM _ fun row _ => asks_pureStep _).bind_of_ok fun names hnames => ?_
    refine asks_readEach fun name hname => ?_
    obtain ⟨row, hrow, hitem⟩ := exists_of_forall₂ (forall₂_of_items hnames).flip hname
    have hread : Asks (fun sql => ∃ table, name = .text table ∧ About c table sql)
        (Reader.readTable c name .pragmas) := (asks_readTable name).bind fun _ => .pure
    refine hread.mono fun sql hsql => .inr ?_
    obtain ⟨table, rfl, habout⟩ := hsql
    exact ⟨table, ⟨rows, hrows, row, hrow, hitem⟩, habout⟩
  · cases r with
    | ok tables => exact .pure
    | error e => exact .get_bind fun σ => .throw

/-- What a database answers about a table with quotes in its name and in that of its index. -/
def quotedAnswers : List (String × List Row) :=
  [(Pragma.indexList.text "say \"hi\"",
      [.ofCells [("name", .text "\"\""), ("unique", .int 0)]]),
    (Pragma.indexInfo.text "\"\"", [.ofCells [("seqno", .int 0), ("name", .text "word")]])]

/-- All four pragmas are sent about this table, each with a name that has every quote doubled, and
each denotes the table or its index. -/
theorem asks_quoted_sayHi :
    let sent := (outcome (readTable (answering quotedAnswers) (.text "say \"hi\"")) {}).2.journal
    sent.map Request.sql? =
        [some "PRAGMA table_info(\"say \"\"hi\"\"\")",
          some "PRAGMA index_list(\"say \"\"hi\"\"\")",
          some "PRAGMA index_info(\"\"\"\"\"\")",
          some "PRAGMA foreign_key_list(\"say \"\"hi\"\"\")"] ∧
      ∀ r ∈ sent, ∀ sql ∈ r.sql?, About (answering quotedAnswers) "say \"hi\"" sql := by
  intro sent
  refine ⟨by decide +kernel, fun r hr sql hsql => ?_⟩
  obtain ⟨asked, hasked, hall⟩ := (asks_quoted (answering quotedAnswers)).1 (.text "say \"hi\"") {}
  have hsent : sent = asked := hasked
  obtain ⟨table, htable, habout⟩ := hall r (hsent ▸ hr) sql hsql
  cases htable
  exact habout

end DbSchema.Source.Pragmas
