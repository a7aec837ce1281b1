import DbSchema.Model.Children
import DbSchema.Model.Display
import DbSchema.Source.Error
import DbSchema.Source.Grouping

/-!
# Talking to a database

A connection answers requests, and its answers may depend on everything it was asked before.  While
a database is read, a trace keeps the requests and the changes of the model in order, and a log
keeps what is to be told to the user.

## Main definitions

* `Request`, `Reply`, `Connection` — what is asked of a database and what it answers.
* `Target` — a place that can be connected to.
* `Event`, `Session`, `Probe` — what happens while a database is read, the state of reading, and a
  step of it.
* `closing` — a step after which something is closed in any case.
* `fetchAll` — the rows that a statement gives.
-/

namespace DbSchema.Source

/-- What is asked of a connection. -/
inductive Request
  | query (sql : String) (params : Option (List Value))
  | openCursor
  | execute (sql : String) (params : Option (List Value))
  | fetch
  | closeCursor
  | close
deriving Repr, Inhabited

/-- What a connection answers. -/
inductive Reply
  | done
  /-- The rows that a query gives. -/
  | rows (rows : List Row)
  /-- The names of the columns that a statement gives. -/
  | columns (names : List String)
  /-- The rows of the last statement, as values in the order of its columns. -/
  | records (rows : List (List Value))
  | failed (message : String)
deriving Repr, Inhabited

/-- A connection to a database. -/
structure Connection where
  /-- Whether statements are executed through cursors. -/
  usesCursors : Bool
  /-- The name of its driver. -/
  driver : String
  /-- The answer to a request after the given ones. -/
  respond : List Request → Request → Reply

/-- A place that can be connected to: a database that a data source name describes, or a
workspace. -/
inductive Target
  | database (dsn : String) (user password : Option String)
  | workspace (host token : String)
deriving DecidableEq, Repr, Inhabited

/-- The levels of the log. -/
inductive Level
  | debug
  | info
deriving DecidableEq, Repr, Inhabited

/-- What happens while a database is read. -/
inductive Event
  | asked (r : Request)
  /-- An operation on the model, with what it left. -/
  | edited (store : Store)
deriving Repr, Inhabited

/-- The requests among some events, in order. -/
def requests (events : List Event) : List Request :=
  events.filterMap fun
    | .asked r => some r
    | .edited _ => none

/-- The state of reading a database. -/
structure Session where
  store : Store := {}
  /-- What happened so far, in order. -/
  trace : List Event := []
  log : List (Level × String) := []
  /-- The places connected to so far, in order. -/
  opened : List Target := []
  /-- The name of the database schema that is read, once it is known. -/
  schemaName : Option Value := none
deriving Repr, Inhabited

/-- The requests so far, in order. -/
def Session.journal (σ : Session) : List Request := requests σ.trace

/-- A step of reading a database. -/
abbrev Probe := ExceptT SourceError (StateM Session)

namespace Probe

/-- An operation on the model. -/
def edit {α : Type} (e : Edit α) : Probe α := do
  let s ← get
  let (r, store) := e.run s.store
  set { s with store, trace := s.trace ++ [Event.edited store] }
  match r with
  | .ok a => return a
  | .error e => throw (.model e)

/-- A question to the model. -/
def ask {α : Type} (question : Store → Except ModelError α) : Probe α := edit (Edit.ask question)

/-- The result of a pure step. -/
def pureStep {α : Type} : Except Fault α → Probe α
  | .ok a => return a
  | .error f => throw (.model (.fault f))

/-- Writes a line to the log. -/
def tell (level : Level) (line : String) : Probe Unit :=
  modify fun s => { s with log := s.log ++ [(level, line)] }

/-- A value as plain text, unless it has none. -/
def plain (v : Value) : Probe String := do
  match v.showFault? with
  | some f => throw (.model (.fault f))
  | none => return (← get).store.plain v

/-- A request to a connection; a failure of its driver ends the reading. -/
def request (c : Connection) (r : Request) : Probe Reply := do
  let s ← get
  set { s with trace := s.trace ++ [Event.asked r] }
  match c.respond s.journal r with
  | .failed m => throw (.driver m)
  | reply => return reply

/-- A step after which something is closed, whether the step succeeds or not. -/
def closing {α : Type} (step : Probe α) (close : Probe Unit) : Probe α := do
  let result ← (ExceptT.lift (ExceptT.run step) : Probe (Except SourceError α))
  close
  match result with
  | .ok a => return a
  | .error e => throw e

/-- A row of the given columns, whose names are turned to lower case; of columns with one name the
last value stays. -/
def rowOf (names : List String) (values : List Value) : Row :=
  { columns := (names.zip values).foldl
      (fun acc e => Value.store (.text (Text.lower e.1)) e.2 acc) [] }

/-- The rows that a statement gives; a cursor opened for it is closed in any case. -/
def fetchAll (c : Connection) (sql : String) (params : Option (List Value)) :
    Probe (List Row) := do
  if c.usesCursors then
    discard (request c .openCursor)
    closing
      (do
        let names ←
          match ← request c (.execute sql params) with
          | .columns names => pure names
          | _ => pure []
        match ← request c .fetch with
        | .records rows => return rows.map (rowOf names)
        | _ => return [])
      (discard (request c .closeCursor))
  else
    match ← request c (.query sql params) with
    | .rows rows => return rows
    | _ => return []

end Probe

end DbSchema.Source
