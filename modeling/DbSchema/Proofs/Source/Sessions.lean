import DbSchema.Proofs.Outcome
import DbSchema.Source.Workspace
import Mathlib.Data.List.Induction

/-!
# Sessions of a client

A client of a workspace may connect, fetch and close in any order, and enter and leave blocks of
steps; every call that it sends may fail.  What a step sends depends on what happened before it:
whether a session was obtained and not closed since.  From this it follows that no session is lost
or stopped twice.

## Main definitions

* `Client.Step`, `Client.Turn` — a step of a client, and what came of it.
* `Client.run w c steps` — the turns that steps lead to, and the client after them.
* `Workspace.attempt` — calls that are sent up to the first that fails.
* `Client.Holds turns n` — the session `n` was obtained, and nothing was closed since.
* `Client.Turn.Proper` — a turn sends what is due after the turns before it.

## Main results

* `Client.outcome_perform` — what a step gives and leaves.
* `Client.settled_run` — what is known of a client after any steps.
* `Client.sessions_paired` — every session is stopped once it is closed, and never again.
-/

namespace DbSchema.Source

variable {ρ : Type}

/-- The session that a call is about. -/
def Call.session? : Call → Option Nat
  | .statement n _ | .collect n | .stop n => some n
  | _ => none

/-- The calls that are sent to a workspace after those of the past, up to the first one that fails,
and the message that it fails with. -/
def Workspace.attempt (w : Workspace ρ) (past : List Call) : List Call → List Call × Option String
  | [] => ([], none)
  | call :: wanted =>
    match w.failure past call with
    | some m => ([call], some m)
    | none =>
      let r := w.attempt (past ++ [call]) wanted
      (call :: r.1, r.2)

theorem Workspace.attempt_fst_prefix (w : Workspace ρ) (past wanted : List Call) :
    (w.attempt past wanted).1 <+: wanted := by
  induction wanted generalizing past with
  | nil => exact List.prefix_refl _
  | cons call wanted ih =>
    rw [attempt]
    split
    · exact List.prefix_append [call] wanted
    · exact List.cons_prefix_cons.mpr ⟨rfl, ih _⟩

/-- All calls are sent if none of them fails. -/
theorem Workspace.attempt_fst_of_snd (w : Workspace ρ) {past wanted : List Call}
    (h : (w.attempt past wanted).2 = none) : (w.attempt past wanted).1 = wanted := by
  induction wanted generalizing past with
  | nil => rfl
  | cons call wanted ih =>
    rw [attempt] at h ⊢
    split at h
    · cases h
    · exact congrArg _ (ih h)

/-- A single call is sent whether it fails or not. -/
@[simp] theorem Workspace.attempt_fst_singleton (w : Workspace ρ) (past : List Call) (call : Call) :
    (w.attempt past [call]).1 = [call] := by
  rw [attempt]
  split <;> rfl

namespace Client

/-! ### Steps and turns -/

/-- A step of a client. -/
inductive Step
  | connect
  | fetch (sql : String)
  | close
  | enter
  | leave
deriving DecidableEq, Repr, Inhabited

namespace Step

/-- Whether a step is there to obtain a session. -/
def connects : Step → Bool
  | connect | enter => true
  | _ => false

/-- Whether a step is there to give up the session. -/
def closes : Step → Bool
  | close | leave => true
  | _ => false

/-- What a step does; only fetching gives rows. -/
def perform (w : Workspace ρ) : Step → Use (List ρ)
  | connect => do Client.connect w; return []
  | fetch sql => Client.fetch w sql
  | close => do Client.close w; return []
  | enter => do Client.enter w; return []
  | leave => do Client.leave w; return []

/-- The calls that a step is to send, given the session that is held and the calls that start one;
or the reason why it is refused. -/
def due (start : List Call) (held : Option Nat) : Step → Except ClientError (List Call)
  | connect | enter => if held.isSome then .error .alreadyConnected else .ok start
  | fetch sql =>
    match held with
    | none => .error .notConnected
    | some n => .ok [.statement n sql, .collect n]
  | close | leave => .ok (held.toList.map .stop)

theorem due_of_connects {s : Step} (h : s.connects) (start : List Call) (held : Option Nat) :
    s.due start held = if held.isSome then .error .alreadyConnected else .ok start := by
  cases s <;> first | rfl | cases h

theorem due_of_closes {s : Step} (h : s.closes) (start : List Call) (held : Option Nat) :
    s.due start held = .ok (held.toList.map .stop) := by
  cases s <;> first | rfl | cases h

theorem closes_of_connects {s : Step} (h : s.connects) : s.closes = false := by
  cases s <;> first | rfl | cases h

/-- The rows that a step gives after the given calls. -/
def rows (w : Workspace ρ) (calls : List Call) : Step → List ρ
  | fetch sql => w.rows calls sql
  | _ => []

end Step

/-- A step, the calls that it sent, and how it ended. -/
structure Turn (ρ : Type) where
  step : Step
  sent : List Call
  result : Except ClientError (List ρ)

/-- A step of a client as a turn, and the client after it. -/
def turn (w : Workspace ρ) (c : Client) (s : Step) : Turn ρ × Client :=
  let (result, c') := outcome (s.perform w) c
  (⟨s, c'.calls.drop c.calls.length, result⟩, c')

/-- The turns that steps of a client lead to, and the client after them.  A step that fails does
not keep the next one from being tried. -/
def run (w : Workspace ρ) (c : Client) (steps : List Step) : List (Turn ρ) × Client :=
  steps.foldl (fun r s => (r.1 ++ [(turn w r.2 s).1], (turn w r.2 s).2)) ([], c)

/-! ### What a step gives and leaves -/

/-- The client after some calls were sent. -/
def withCalls (c : Client) (sent : List Call) : Client := { c with calls := c.calls ++ sent }

/-- The client after a step whose calls were sent, and one of them failed or not. -/
def settle (c : Client) (failed : Bool) (s : Step) : Client :=
  { c with
    session :=
      if s.closes then none else if s.connects && !failed then some c.started else c.session
    started := if s.connects && !failed then c.started + 1 else c.started }

theorem outcome_send (w : Workspace ρ) (call : Call) (c : Client) :
    outcome (send w call) c =
      ((match w.failure c.calls call with
        | some m => .error (.failed m)
        | none => .ok ⟨⟩), c.withCalls [call]) := by
  rw [send, outcome_get_bind, outcome_bind_of_ok (outcome_set _ _)]
  cases w.failure c.calls call <;> rfl

/-- Calls are sent up to the first one that fails. -/
theorem outcome_sendAll (w : Workspace ρ) (calls : List Call) (c : Client) :
    outcome (calls.forM (send w)) c =
      ((match (w.attempt c.calls calls).2 with
        | some m => .error (.failed m)
        | none => .ok ⟨⟩), c.withCalls (w.attempt c.calls calls).1) := by
  induction calls generalizing c with
  | nil =>
    rw [Workspace.attempt, withCalls, List.append_nil]
    rfl
  | cons call calls ih =>
    change outcome (send w call >>= fun _ => calls.forM (send w)) c = _
    rw [outcome_bind, outcome_send, Workspace.attempt]
    rcases w.failure c.calls call with _ | m
    · dsimp only
      rw [ih]
      simp only [withCalls, List.append_assoc, List.singleton_append]
    · rfl

/-- What a step gives when its calls are sent, and the client after it. -/
def answered (w : Workspace ρ) (c : Client) (s : Step) (wanted : List Call) :
    Except ClientError (List ρ) × Client :=
  let r := w.attempt c.calls wanted
  ((match r.2 with
    | some m => .error (.failed m)
    | none => .ok (s.rows w (c.calls ++ wanted))), (c.withCalls r.1).settle r.2.isSome s)

theorem outcome_connect (w : Workspace ρ) {c : Client} (h : c.session = none) :
    outcome (Step.connect.perform w) c = answered w c .connect c.startCalls := by
  rw [Step.perform, outcome_bind, Client.connect, outcome_get_bind, h]
  simp only [Option.isSome_none, Bool.false_eq_true, if_false]
  rw [outcome_bind, outcome_sendAll, answered]
  rcases (w.attempt c.calls c.startCalls).2 with _ | m <;> rfl

theorem outcome_fetch (w : Workspace ρ) {c : Client} {n : Nat} (h : c.session = some n)
    (sql : String) :
    outcome ((Step.fetch sql).perform w) c =
      answered w c (.fetch sql) [.statement n sql, .collect n] := by
  have hsend : (do
      send w (.statement n sql)
      send w (.collect n)
      return w.rows (← get).calls sql : Use (List ρ)) = (do
      [Call.statement n sql, .collect n].forM (send w)
      return w.rows (← get).calls sql) := by
    simp only [List.forM, bind_assoc, pure_bind]
  rw [Step.perform, Client.fetch, outcome_get_bind, h]
  dsimp only
  rw [hsend, outcome_bind, outcome_sendAll, answered]
  rcases hf : (w.attempt c.calls [.statement n sql, .collect n]).2 with _ | m
  · rw [w.attempt_fst_of_snd hf]
    rfl
  · rfl

theorem outcome_close (w : Workspace ρ) (c : Client) :
    outcome (Step.close.perform w) c = answered w c .close (c.session.toList.map .stop) := by
  rw [Step.perform, outcome_bind, Client.close, outcome_get_bind]
  rcases h : c.session with _ | n
  · have hsame : c.withCalls [] = c := by rw [withCalls, List.append_nil]
    rw [answered, Option.toList_none, List.map_nil, Workspace.attempt, hsame, settle]
    simp only [Step.closes, Step.connects, if_true, Bool.false_and, Bool.false_eq_true, if_false]
    rw [← h]
    rfl
  · rw [outcome_bind_of_ok (outcome_modify _ _), outcome_send, answered]
    simp only [Option.toList_some, List.map_cons, List.map_nil, Workspace.attempt]
    rcases w.failure c.calls (.stop n) with _ | m <;> rfl

/-- **What a step gives and leaves.**  A step that is refused sends nothing and leaves the client as
it was; another one sends what is due, up to the first call that fails. -/
theorem outcome_perform (w : Workspace ρ) (s : Step) (c : Client) :
    outcome (s.perform w) c =
      match s.due c.startCalls c.session with
      | .error e => (.error e, c)
      | .ok wanted => answered w c s wanted := by
  cases s with
  | connect =>
    rcases h : c.session with _ | n
    · exact outcome_connect w h
    · rw [Step.perform, outcome_bind, Client.connect, outcome_get_bind, h]
      rfl
  | enter =>
    rcases h : c.session with _ | n
    · exact outcome_connect w h
    · rw [Step.perform, outcome_bind, Client.enter, Client.connect, outcome_get_bind, h]
      rfl
  | fetch sql =>
    rcases h : c.session with _ | n
    · rw [Step.perform, Client.fetch, outcome_get_bind, h]
      rfl
    · exact outcome_fetch w h sql
  | close => exact outcome_close w c
  | leave => exact outcome_close w c

/-! ### What happened before -/

namespace Turn

/-- Whether a session was obtained. -/
def obtains (t : Turn ρ) : Bool := t.step.connects && t.result.isOk

/-- The turn was refused, and nothing was sent. -/
def Refused (t : Turn ρ) (e : ClientError) : Prop := t.sent = [] ∧ t.result = .error e

/-- The turn sent the wanted calls after those of the past, up to the first one that failed, and
ended as that one did. -/
def Sends (w : Workspace ρ) (past wanted : List Call) (t : Turn ρ) : Prop :=
  t.sent = (w.attempt past wanted).1 ∧
    t.result =
      match (w.attempt past wanted).2 with
      | some m => .error (.failed m)
      | none => .ok (t.step.rows w (past ++ wanted))

end Turn

/-- The calls that were sent. -/
def callsOf (turns : List (Turn ρ)) : List Call := turns.flatMap (·.sent)

/-- The number of sessions that were obtained; each one is known by the number before it. -/
def obtained (turns : List (Turn ρ)) : Nat := turns.countP Turn.obtains

/-- The session was obtained, and nothing was closed since. -/
def Holds (turns : List (Turn ρ)) (n : Nat) : Prop :=
  ∃ before t after, turns = before ++ t :: after ∧ t.obtains ∧ obtained before = n ∧
    ∀ u ∈ after, ¬ u.step.closes

theorem callsOf_concat (turns : List (Turn ρ)) (t : Turn ρ) :
    callsOf (turns ++ [t]) = callsOf turns ++ t.sent := by
  simp [callsOf]

theorem obtained_concat (turns : List (Turn ρ)) (t : Turn ρ) :
    obtained (turns ++ [t]) = obtained turns + if t.obtains then 1 else 0 := by
  simp [obtained, List.countP_append, List.countP_cons]

/-- A session is held after one more turn if the turn obtained it, or did not close it. -/
theorem holds_concat {turns : List (Turn ρ)} {t : Turn ρ} {n : Nat} :
    Holds (turns ++ [t]) n ↔
      t.obtains ∧ obtained turns = n ∨ Holds turns n ∧ ¬ t.step.closes := by
  constructor
  · rintro ⟨before, u, after, hturns, hu, hn, hafter⟩
    rcases List.eq_nil_or_concat after with rfl | ⟨after, v, rfl⟩
    · obtain ⟨rfl, h⟩ := List.append_inj' hturns rfl
      cases h
      exact .inl ⟨hu, hn⟩
    · rw [List.concat_eq_append, ← List.cons_append, ← List.append_assoc] at hturns
      obtain ⟨rfl, h⟩ := List.append_inj' hturns rfl
      cases h
      refine .inr ⟨⟨before, u, after, rfl, hu, hn, fun x hx => ?_⟩, ?_⟩
      · exact hafter x (by simp [hx])
      · exact hafter t (by simp)
  · rintro (⟨ht, hn⟩ | ⟨⟨before, u, after, rfl, hu, hn, hafter⟩, ht⟩)
    · exact ⟨turns, t, [], rfl, ht, hn, by simp⟩
    · refine ⟨before, u, after ++ [t], by simp, hu, hn, fun x hx => ?_⟩
      rcases List.mem_append.mp hx with hx | hx
      · exact hafter x hx
      · rwa [List.mem_singleton.mp hx]

/-- The turn sends what is due after the turns before it, where `start` are the calls that start a
session. -/
structure Turn.Proper (w : Workspace ρ) (start : List Call) (before : List (Turn ρ))
    (t : Turn ρ) : Prop where
  /-- Connecting starts a session if none is held. -/
  connecting : t.step.connects → (∀ n, ¬ Holds before n) → t.Sends w (callsOf before) start
  /-- Otherwise it is refused, and the session is still held. -/
  connected : t.step.connects → ∀ n, Holds before n →
    t.Refused .alreadyConnected ∧ Holds (before ++ [t]) n
  /-- A statement is sent in the session that is held. -/
  fetching : ∀ sql, t.step = .fetch sql → ∀ n, Holds before n →
    t.Sends w (callsOf before) [.statement n sql, .collect n]
  /-- Without a session it is refused. -/
  unconnected : ∀ sql, t.step = .fetch sql → (∀ n, ¬ Holds before n) → t.Refused .notConnected
  /-- Closing stops the session that is held, whether that fails or not. -/
  closing : t.step.closes → ∀ n, Holds before n →
    t.sent = [.stop n] ∧ t.Sends w (callsOf before) [.stop n]
  /-- Closing without a session sends nothing. -/
  closed : t.step.closes → (∀ n, ¬ Holds before n) → t.Sends w (callsOf before) []
  /-- Whatever is sent is about no other session than the one that is held. -/
  held : ∀ call ∈ t.sent, ∀ n, call.session? = some n → Holds before n
  /-- No session is held after closing. -/
  released : t.step.closes → ∀ n, ¬ Holds (before ++ [t]) n

/-! ### One turn -/

variable {w : Workspace ρ} {c : Client} {s : Step}

theorem turn_of_refused {e : ClientError} (h : s.due c.startCalls c.session = .error e) :
    turn w c s = (⟨s, [], .error e⟩, c) := by
  rw [turn, outcome_perform, h]
  simp

theorem turn_of_due {wanted : List Call} (h : s.due c.startCalls c.session = .ok wanted) :
    turn w c s =
      (⟨s, (w.attempt c.calls wanted).1, (answered w c s wanted).1⟩, (answered w c s wanted).2) := by
  rw [turn, outcome_perform, h]
  simp [answered, settle, withCalls]

theorem session?_of_mem_startCalls {call : Call} (h : call ∈ c.startCalls) :
    call.session? = none := by
  have hcredential : ∀ {kind : String → Call} {given : Option String},
      (∀ text, (kind text).session? = none) → call ∈ credential kind given →
        call.session? = none := by
    intro kind given hkind hcall
    unfold credential at hcall
    split at hcall
    · cases hcall
    · cases hcall
    · rw [List.mem_singleton.mp hcall]
      exact hkind _
  simp only [startCalls, List.mem_append, List.mem_singleton] at h
  rcases h with (h | h) | rfl
  · exact hcredential (fun _ => rfl) h
  · exact hcredential (fun _ => rfl) h
  · rfl

/-- What is due is about no other session than the one that is held. -/
theorem session_of_mem_due {wanted : List Call} (h : s.due c.startCalls c.session = .ok wanted)
    {call : Call} (hcall : call ∈ wanted) {n : Nat} (hn : call.session? = some n) :
    c.session = some n := by
  cases s with
  | connect | enter =>
    rw [Step.due_of_connects rfl] at h
    split at h <;> cases h
    cases (session?_of_mem_startCalls hcall).symm.trans hn
  | fetch sql =>
    rcases hheld : c.session with _ | m <;> rw [hheld] at h <;> cases h
    simp only [List.mem_cons, List.not_mem_nil, or_false] at hcall
    rcases hcall with rfl | rfl <;> exact hn
  | close | leave =>
    cases h
    obtain ⟨m, hm, rfl⟩ := List.mem_map.mp hcall
    cases hn
    exact Option.mem_toList.mp hm

/-- What a turn changes: it may obtain a session if none was held, and closing stops the one that is
held. -/
structure Turn.Moves (t : Turn ρ) (c c' : Client) : Prop where
  startCalls : c'.startCalls = c.startCalls
  calls : c'.calls = c.calls ++ t.sent
  started : c'.started = c.started + if t.obtains then 1 else 0
  session : c'.session =
    if t.obtains then some c.started else if t.step.closes then none else c.session
  obtains : t.obtains → c.session = none ∧ ¬ t.step.closes
  stops : ∀ n, t.sent.count (.stop n) = if t.step.closes ∧ c.session = some n then 1 else 0

/-- A refused turn changes nothing. -/
theorem moves_of_refused {e : ClientError} (h : s.due c.startCalls c.session = .error e) :
    (turn w c s).1.Moves c (turn w c s).2 := by
  have hcloses : s.closes = false := by
    cases s <;> first | rfl | cases h
  rw [turn_of_refused h]
  constructor <;> simp [Turn.obtains, Except.isOk, Except.toBool, hcloses]

/-- The calls of a step that closes stop the session that is held; no other step stops one. -/
theorem count_stop_of_due {wanted past : List Call}
    (h : s.due c.startCalls c.session = .ok wanted) (n : Nat) :
    (w.attempt past wanted).1.count (.stop n) = if s.closes ∧ c.session = some n then 1 else 0 := by
  have hsent := (w.attempt_fst_prefix past wanted).subset
  have hother : Call.stop n ∉ wanted → (w.attempt past wanted).1.count (.stop n) = 0 :=
    fun hn => List.count_eq_zero.mpr fun hs => hn (hsent hs)
  -- a call to stop is sent even when it fails
  have hclose : wanted = c.session.toList.map .stop → (w.attempt past wanted).1.count (.stop n) =
      if c.session = some n then 1 else 0 := by
    rintro rfl
    rcases c.session with _ | m
    · rfl
    · rw [Option.toList_some, List.map_singleton, Workspace.attempt_fst_singleton]
      simp [List.count_singleton]
  cases s with
  | connect | enter =>
    rw [Step.due_of_connects rfl] at h
    split at h <;> cases h
    have hn : Call.stop n ∉ c.startCalls := fun hs => by cases session?_of_mem_startCalls hs
    simp [hother hn, Step.closes]
  | fetch sql =>
    rcases hheld : c.session with _ | m <;> rw [hheld] at h <;> cases h
    simp [hother, Step.closes]
  | close | leave =>
    cases h
    simp [hclose, Step.closes]

/-- A turn that is not refused may obtain a session if none is held. -/
theorem moves_of_due {wanted : List Call} (h : s.due c.startCalls c.session = .ok wanted) :
    (turn w c s).1.Moves c (turn w c s).2 := by
  have hobtains : (turn w c s).1.obtains =
      (s.connects && !(w.attempt c.calls wanted).2.isSome) := by
    rw [turn_of_due h, Turn.obtains, answered]
    cases (w.attempt c.calls wanted).2 <;> rfl
  rw [turn_of_due h] at hobtains ⊢
  refine ⟨rfl, rfl, ?_, ?_, fun ho => ?_, count_stop_of_due h⟩
  · rw [hobtains]
    dsimp only [answered, settle, withCalls]
    split <;> rfl
  · rw [hobtains]
    dsimp only [answered, settle, withCalls]
    cases hs : s.connects with
    | true => rw [Step.closes_of_connects hs, if_neg Bool.false_ne_true, if_neg Bool.false_ne_true]
    | false => rfl
  · rw [hobtains, Bool.and_eq_true] at ho
    rw [Step.due_of_connects ho.1] at h
    dsimp only
    split at h <;> cases h
    rw [Step.closes_of_connects ho.1]
    simp_all

theorem moves_turn (w : Workspace ρ) (c : Client) (s : Step) :
    (turn w c s).1.Moves c (turn w c s).2 := by
  rcases h : s.due c.startCalls c.session with e | wanted
  · exact moves_of_refused h
  · exact moves_of_due h

/-- What is known of a client after turns: it holds the session that was obtained and not closed
since, and every other one was stopped, once. -/
structure Settled (start : List Call) (turns : List (Turn ρ)) (c : Client) : Prop where
  startCalls : c.startCalls = start
  calls : c.calls = callsOf turns
  started : c.started = obtained turns
  session : ∀ n, c.session = some n ↔ Holds turns n
  stopped : ∀ n, Call.stop n ∈ callsOf turns ↔ n < obtained turns ∧ ¬ Holds turns n
  once : ∀ n, (callsOf turns).count (.stop n) ≤ 1

theorem lt_obtained_of_holds {turns : List (Turn ρ)} {n : Nat} (h : Holds turns n) :
    n < obtained turns := by
  obtain ⟨before, t, after, rfl, ht, rfl, -⟩ := h
  simp [obtained, List.countP_append, ht]

/-- One more turn leaves the client settled. -/
theorem Settled.concat {start : List Call} {turns : List (Turn ρ)} {t : Turn ρ} {c c' : Client}
    (h : Settled start turns c) (ht : t.Moves c c') : Settled start (turns ++ [t]) c' where
  startCalls := ht.startCalls.trans h.startCalls
  calls := by rw [callsOf_concat, ht.calls, h.calls]
  started := by rw [obtained_concat, ht.started, h.started]
  session n := by
    rw [holds_concat, ht.session, ← h.session, ← h.started]
    cases ho : t.obtains with
    | true => simp [ht.obtains ho]
    | false => by_cases hc : t.step.closes <;> simp [hc]
  stopped n := by
    have hlt := @lt_obtained_of_holds ρ turns n
    have hmem : Call.stop n ∈ t.sent ↔ t.step.closes ∧ Holds turns n := by
      rw [← h.session, ← List.count_pos_iff, ht.stops]
      split <;> simp_all
    rw [callsOf_concat, List.mem_append, h.stopped, hmem, obtained_concat, holds_concat]
    cases ho : t.obtains with
    | true =>
      have hnone : ¬ Holds turns n := by
        rw [← h.session, (ht.obtains ho).1]
        simp
      simp [hnone, (ht.obtains ho).2]
      omega
    | false => by_cases hn : Holds turns n <;> simp [hn, hlt]
  once n := by
    rw [callsOf_concat, List.count_append, ht.stops]
    split
    · next hc =>
      have hheld : Holds turns n := (h.session n).mp hc.2
      have hzero : (callsOf turns).count (.stop n) = 0 := by
        rw [List.count_eq_zero, h.stopped]
        exact fun hs => hs.2 hheld
      omega
    · exact h.once n

section

variable {start : List Call} {turns : List (Turn ρ)}

theorem Settled.session_eq_none (h : Settled start turns c) (hnone : ∀ n, ¬ Holds turns n) :
    c.session = none := by
  rcases hs : c.session with _ | n
  · rfl
  · exact absurd ((h.session n).mp hs) (hnone n)

/-- A step that is not refused sends what is due to it. -/
theorem Settled.sends (h : Settled start turns c) {wanted : List Call}
    (hdue : s.due start c.session = .ok wanted) :
    (turn w c s).1.Sends w (callsOf turns) wanted := by
  rw [← h.startCalls] at hdue
  rw [turn_of_due hdue, ← h.calls]
  exact ⟨rfl, rfl⟩

theorem Settled.refused (h : Settled start turns c) {e : ClientError}
    (hdue : s.due start c.session = .error e) : (turn w c s).1.Refused e := by
  rw [← h.startCalls] at hdue
  rw [turn_of_refused hdue]
  exact ⟨rfl, rfl⟩

/-- A turn of a settled client sends what is due. -/
theorem Settled.proper (h : Settled start turns c) : (turn w c s).1.Proper w start turns where
  connecting (hs : s.connects) hall :=
    h.sends (by rw [Step.due_of_connects hs, h.session_eq_none hall]; rfl)
  connected (hs : s.connects) n hn := by
    refine ⟨h.refused ?_, holds_concat.mpr (.inr ⟨hn, ?_⟩)⟩
    · rw [Step.due_of_connects hs, (h.session n).mpr hn]
      rfl
    · change ¬ s.closes
      rw [Step.closes_of_connects hs]
      exact Bool.false_ne_true
  fetching := by
    rintro sql rfl n hn
    exact h.sends (by rw [(h.session n).mpr hn]; rfl)
  unconnected := by
    rintro sql rfl hall
    exact h.refused (by rw [h.session_eq_none hall]; rfl)
  closing (hs : s.closes) n hn := by
    have hsent : (turn w c s).1.Sends w (callsOf turns) [.stop n] :=
      h.sends (by rw [Step.due_of_closes hs, (h.session n).mpr hn]; rfl)
    exact ⟨hsent.1.trans (w.attempt_fst_singleton _ _), hsent⟩
  closed (hs : s.closes) hall :=
    h.sends (by rw [Step.due_of_closes hs, h.session_eq_none hall]; rfl)
  held call hcall n hn := by
    rw [← h.session]
    rcases hdue : s.due c.startCalls c.session with e | wanted
    · rw [turn_of_refused hdue] at hcall
      cases hcall
    · rw [turn_of_due hdue] at hcall
      exact session_of_mem_due hdue ((w.attempt_fst_prefix _ _).subset hcall) hn
  released hs n hn := by
    rcases holds_concat.mp hn with ⟨ho, -⟩ | ⟨-, hc⟩
    · exact ((moves_turn w c s).obtains ho).2 hs
    · exact hc hs

end

/-! ### Runs -/

theorem run_concat (w : Workspace ρ) (c : Client) (steps : List Step) (s : Step) :
    run w c (steps ++ [s]) =
      ((run w c steps).1 ++ [(turn w (run w c steps).2 s).1], (turn w (run w c steps).2 s).2) := by
  simp [run]

/-- The turns before a turn are those that some first steps lead to. -/
theorem exists_of_run {steps : List Step} {before after : List (Turn ρ)} {t : Turn ρ}
    (h : (run w c steps).1 = before ++ t :: after) :
    ∃ first s, (run w c first).1 = before ∧ t = (turn w (run w c first).2 s).1 := by
  induction steps using List.reverseRecOn generalizing after with
  | nil => simp [run] at h
  | append_singleton steps s ih =>
    rw [run_concat] at h
    rcases List.eq_nil_or_concat after with rfl | ⟨after, u, rfl⟩
    · obtain ⟨hbefore, hlast⟩ := List.append_inj' h rfl
      cases hlast
      exact ⟨steps, s, hbefore, rfl⟩
    · rw [List.concat_eq_append, ← List.cons_append, ← List.append_assoc] at h
      exact ih (List.append_inj' h rfl).1

/-- After any steps, a new client is settled. -/
theorem settled_run (w : Workspace ρ) (host token : Option String) (steps : List Step) :
    Settled (startCalls { host, token }) (run w { host, token } steps).1
      (run w { host, token } steps).2 := by
  induction steps using List.reverseRecOn with
  | nil =>
    have hnone : ∀ n, ¬ Holds ([] : List (Turn ρ)) n := by simp [Holds]
    constructor <;> simp [run, callsOf, obtained, hnone]
  | append_singleton steps s ih =>
    rw [run_concat]
    exact ih.concat (moves_turn _ _ _)

/-- **No session is lost or used after it is closed.**  A client may connect, fetch and close in any
order, enter and leave blocks of steps, and any call that it sends may fail.  A turn sends what is
due after the turns before it, and nothing else; at most one session is held at any time, which is
the one that was obtained and not closed since; every other session that was obtained was stopped;
no session is stopped twice; and after a close none is held, so that the client may connect
again. -/
theorem sessions_paired (w : Workspace ρ) (host token : Option String) (steps : List Step) :
    let c : Client := { host, token }
    let turns := (run w c steps).1
    (∀ before t after, turns = before ++ t :: after → t.Proper w c.startCalls before) ∧
    (∀ n m, Holds turns n → Holds turns m → n = m) ∧
    (∀ n, (run w c steps).2.session = some n ↔ Holds turns n) ∧
    (∀ n, Call.stop n ∈ callsOf turns ↔ n < obtained turns ∧ ¬ Holds turns n) ∧
    (∀ n, (callsOf turns).count (.stop n) ≤ 1) := by
  intro c turns
  have hsettled := settled_run w host token steps
  refine ⟨fun before t after hturns => ?_, fun n m hn hm => ?_, hsettled.session, hsettled.stopped,
    hsettled.once⟩
  · obtain ⟨first, s, rfl, rfl⟩ := exists_of_run hturns
    exact (settled_run w host token first).proper
  · rw [← hsettled.session] at hn hm
    exact Option.some.inj (hn.symm.trans hm)

/-- A workspace in which the first session cannot be stopped. -/
def losesFirst : Workspace Unit where
  failure _ call := if call = .stop 0 then some "no such session" else none
  rows _ _ := []

/-- A session that cannot be stopped is given up all the same, and the next one is another. -/
theorem sessions_paired_losesFirst :
    let turns := (run losesFirst {}
      [.enter, .fetch "SELECT 1", .leave, .connect, .connect, .close, .close]).1
    callsOf turns = [.start, .statement 0 "SELECT 1", .collect 0, .stop 0, .start, .stop 1] ∧
      obtained turns = 2 ∧ (∀ n, ¬ Holds turns n) ∧ ∀ n < 2, (callsOf turns).count (.stop n) = 1 := by
  intro turns
  obtain ⟨-, -, hheld, hstopped, honce⟩ := sessions_paired losesFirst none none
    [.enter, .fetch "SELECT 1", .leave, .connect, .connect, .close, .close]
  have hobtained : obtained turns = 2 := by decide
  have hnone : ∀ n, ¬ Holds turns n := fun n hn => by cases (hheld n).mpr hn
  refine ⟨by decide, hobtained, hnone, fun n hn => ?_⟩
  have hmem : Call.stop n ∈ callsOf turns := (hstopped n).mpr ⟨hobtained ▸ hn, hnone n⟩
  exact Nat.le_antisymm (honce n) (List.count_pos_iff.mpr hmem)

end Client

end DbSchema.Source
