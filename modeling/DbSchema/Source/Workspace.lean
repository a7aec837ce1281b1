/-!
# Sessions with a workspace

A client of a workspace holds at most one session.  It is started when the client connects, takes
statements, and is stopped when the client closes; closing twice does no harm.  Any call may fail in
the workspace, and what it answers may depend on all calls before.

## Main definitions

* `Call`, `Workspace` — what reaches a workspace, and how it behaves.
* `Client` — a client with its credentials and the session it holds.
* `ClientError` — the reasons why a step is refused.
* `Client.connect`, `Client.fetch`, `Client.close` — the steps.
* `Client.enter`, `Client.leave` — connecting for the length of a block of steps.
-/

namespace DbSchema.Source

/-- What reaches a workspace; sessions are numbered in the order in which they are started. -/
inductive Call
  | host (name : String)
  | token (text : String)
  | start
  | statement (session : Nat) (sql : String)
  | collect (session : Nat)
  | stop (session : Nat)
deriving DecidableEq, Repr, Inhabited

/-- How a workspace behaves. -/
structure Workspace (ρ : Type) where
  /-- Why a call fails after the given ones, if it does. -/
  failure : List Call → Call → Option String
  /-- The rows that a statement gives after the given calls. -/
  rows : List Call → String → List ρ

/-- A client of a workspace. -/
structure Client where
  host : Option String := none
  token : Option String := none
  /-- The session that is held. -/
  session : Option Nat := none
  /-- The number of sessions started so far. -/
  started : Nat := 0
  calls : List Call := []
deriving DecidableEq, Repr, Inhabited

/-- The reasons why a step is refused. -/
inductive ClientError
  | alreadyConnected
  | notConnected
  /-- A call failed in the workspace. -/
  | failed (message : String)
deriving DecidableEq, Repr, Inhabited

/-- The wording of a refusal. -/
def ClientError.message : ClientError → String
  | alreadyConnected => "Already connected. Call close() before reconnecting."
  | notConnected => "Not connected. Call connect() first."
  | failed m => m

/-- A step of a client. -/
abbrev Use := ExceptT ClientError (StateM Client)

namespace Client

variable {ρ : Type}

/-- A call that reaches the workspace. -/
def send (w : Workspace ρ) (call : Call) : Use Unit := do
  let c ← get
  set { c with calls := c.calls ++ [call] }
  if let some m := w.failure c.calls call then throw (.failed m)

/-- The call for a credential, unless there is none to give. -/
def credential (call : String → Call) (given : Option String) : List Call :=
  match given with
  | none | some "" => []
  | some text => [call text]

/-- The calls that start a session with the credentials there are. -/
def startCalls (c : Client) : List Call :=
  credential .host c.host ++ credential .token c.token ++ [.start]

/-- Starts a session. -/
def connect (w : Workspace ρ) : Use Unit := do
  let c ← get
  if c.session.isSome then throw .alreadyConnected
  c.startCalls.forM (send w)
  modify fun c => { c with session := some c.started, started := c.started + 1 }

/-- The rows that a statement gives in the session. -/
def fetch (w : Workspace ρ) (sql : String) : Use (List ρ) := do
  match (← get).session with
  | none => throw .notConnected
  | some n =>
    send w (.statement n sql)
    send w (.collect n)
    return w.rows (← get).calls sql

/-- Stops the session, if there is one; it is no longer held even if stopping it fails. -/
def close (w : Workspace ρ) : Use Unit := do
  match (← get).session with
  | none => return ()
  | some n =>
    modify fun c => { c with session := none }
    send w (.stop n)

/-- Enters a block of steps. -/
def enter (w : Workspace ρ) : Use Unit := connect w

/-- Leaves a block of steps. -/
def leave (w : Workspace ρ) : Use Unit := close w

end Client

end DbSchema.Source
