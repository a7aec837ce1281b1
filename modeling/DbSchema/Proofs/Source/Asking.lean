import DbSchema.Proofs.Source.Steps

/-!
# What is asked

A step of reading sends statements to the database and does other things in between.  Only what
asks for rows sends anything, so the statements that a step sends are those for which its parts ask
for rows, however many of them there are and wherever the reading ends.

## Main definitions

* `Request.sql?` — the statement that a request sends, if it sends one.
* `Sent allowed past σ` — what was sent after the requests of the past is allowed.
* `Asks allowed step` — whatever is answered, all statements that the step sends are allowed.

## Main results

* `asks_fetchAll` — asking for the rows of a statement sends nothing else.
* `Asks.bind`, `Asks.forM` and their like — steps made of steps.
* `Asks.bind_of_ok` — a step after one that gives something to ask about.
* `asks_readEach` — reading tables one after the other sends what reading each of them sends.
-/

namespace DbSchema.Source

open Probe

variable {α β γ : Type} {c : Connection} {allowed allowed' : String → Prop}

/-- The statement that a request sends. -/
def Request.sql? : Request → Option String
  | .query sql _ | .execute sql _ => some sql
  | _ => none

/-- After the requests of the past only allowed statements were sent. -/
def Sent (allowed : String → Prop) (past : List Request) (σ : Session) : Prop :=
  ∃ asked, σ.journal = past ++ asked ∧ ∀ r ∈ asked, ∀ sql ∈ r.sql?, allowed sql

/-- Wherever the step is started and however it ends, the statements that it sends are allowed. -/
def Asks (allowed : String → Prop) (step : Probe α) : Prop :=
  ∀ σ, Sent allowed σ.journal (outcome step σ).2

theorem Sent.of_eq {past : List Request} {σ : Session} (h : σ.journal = past) :
    Sent allowed past σ := ⟨[], by rw [h, List.append_nil], by simp⟩

theorem Sent.trans {past : List Request} {σ σ' : Session} (h : Sent allowed past σ)
    (h' : Sent allowed σ.journal σ') : Sent allowed past σ' := by
  obtain ⟨asked, hasked, hall⟩ := h
  obtain ⟨more, hmore, hall'⟩ := h'
  refine ⟨asked ++ more, by rw [hmore, hasked, List.append_assoc], fun r hr => ?_⟩
  exact (List.mem_append.mp hr).elim (hall r) (hall' r)

section

variable {step : Probe α} {f : α → Probe β}

/-- What a step sends may be told by what was sent before it as well. -/
theorem asks_iff : Asks allowed step ↔
    ∀ past, Ensures (Sent allowed past) step (fun _ => Sent allowed past) (Sent allowed past) := by
  refine ⟨fun h past => Ensures.iff_outcome.mpr fun σ hσ => hσ.trans (h σ), fun h σ => ?_⟩
  exact Ensures.iff_outcome.mp (h σ.journal) σ (.of_eq rfl)

namespace Asks

theorem mono (h : Asks allowed step) (hle : ∀ sql, allowed sql → allowed' sql) :
    Asks allowed' step := by
  intro σ
  obtain ⟨asked, hasked, hall⟩ := h σ
  exact ⟨asked, hasked, fun r hr sql hsql => hle sql (hall r hr sql hsql)⟩

theorem pure {a : α} : Asks allowed (Pure.pure a) := fun _ => .of_eq rfl

theorem throw {e : SourceError} : Asks allowed (MonadExcept.throw e : Probe α) :=
  fun _ => .of_eq rfl

theorem bind (h : Asks allowed step) (hf : ∀ a, Asks allowed (f a)) :
    Asks allowed (step >>= f) :=
  asks_iff.mpr fun past => (asks_iff.mp h past).bind fun a => asks_iff.mp (hf a) past

/-- What is sent after a step may hang on what the step can give. -/
theorem bind_of_ok (h : Asks allowed step)
    (hf : ∀ a, (∃ σ, (outcome step σ).1 = .ok a) → Asks allowed (f a)) :
    Asks allowed (step >>= f) := by
  intro σ
  have hstep := h σ
  rw [outcome_bind]
  rcases ho : outcome step σ with ⟨e | a, σ'⟩ <;> rw [ho] at hstep
  · exact hstep
  · exact hstep.trans (hf a ⟨σ, by rw [ho]⟩ σ')

/-- A step may look at the state first. -/
theorem get_bind {f : Session → Probe β} (hf : ∀ σ, Asks allowed (f σ)) :
    Asks allowed (get >>= f) :=
  asks_iff.mpr fun past => .get_bind fun σ _ => asks_iff.mp (hf σ) past

/-- A step that is only tried sends what it sends. -/
theorem attempt_bind {g : Except SourceError α → Probe β} (h : Asks allowed step)
    (hg : ∀ r, Asks allowed (g r)) :
    Asks allowed ((ExceptT.lift (ExceptT.run step) : Probe (Except SourceError α)) >>= g) :=
  asks_iff.mpr fun past => concludes_attempt (asks_iff.mp h past)
    (fun a => asks_iff.mp (hg (.ok a)) past) fun e => asks_iff.mp (hg (.error e)) past

theorem discard (h : Asks allowed step) : Asks allowed (Functor.discard step) :=
  asks_iff.mpr fun past => (asks_iff.mp h past).discard

theorem ite {p : Prop} [Decidable p] {g : Probe α} (h : Asks allowed step) (hg : Asks allowed g) :
    Asks allowed (if p then step else g) := by
  split
  · exact h
  · exact hg

theorem forM {g : γ → Probe PUnit} (l : List γ) (h : ∀ x ∈ l, Asks allowed (g x)) :
    Asks allowed (l.forM g) :=
  asks_iff.mpr fun past => .forM l fun x hx => asks_iff.mp (h x hx) past

theorem mapM {g : γ → Probe β} (l : List γ) (h : ∀ x ∈ l, Asks allowed (g x)) :
    Asks allowed (l.mapM g) :=
  asks_iff.mpr fun past => Concludes.mapM l fun x hx => asks_iff.mp (h x hx) past

end Asks

end

/-! ### The steps of reading -/

theorem asks_request {r : Request} (h : ∀ sql ∈ r.sql?, allowed sql) :
    Asks allowed (request c r) := by
  intro σ
  refine ⟨[r], ?_, by simpa using h⟩
  rw [outcome_request, Session.journal, requests_append]
  rfl

/-- **Asking for the rows of a statement sends that statement only**, with a cursor or without. -/
theorem asks_fetchAll {sql : String} (h : allowed sql) (params : Option (List Value)) :
    Asks allowed (fetchAll c sql params) := by
  have hsql : ∀ r : Request, r.sql? = some sql → Asks allowed (request c r) := fun r hr =>
    asks_request fun sql' hsql' => Option.some.inj (hr ▸ hsql') ▸ h
  have hnone : ∀ r : Request, r.sql? = none → Asks allowed (request c r) := fun r hr =>
    asks_request (by simp [hr])
  refine asks_iff.mpr fun past => ?_
  cases hc : c.usesCursors with
  | false => exact concludes_fetchAll_of_query hc (asks_iff.mp (hsql _ rfl) past)
  | true =>
    have hclose := asks_iff.mp (hnone .closeCursor rfl) past
    exact concludes_fetchAll_of_cursor hc (asks_iff.mp (hnone _ rfl) past)
      (asks_iff.mp (hsql _ rfl) past) (asks_iff.mp (hnone _ rfl) past) hclose fun _ => hclose

theorem asks_edit (e : Edit α) : Asks allowed (edit e) := fun σ => .of_eq <| by
  rw [outcome_edit, Session.journal, requests_append]
  exact List.append_nil _

theorem asks_pureStep (r : Except Fault α) : Asks allowed (pureStep r) := by
  cases r with
  | ok a => exact .pure
  | error f => exact .throw

/-- What is sent after a pure step may hang on what it gives. -/
theorem asks_pureStep_bind {r : Except Fault α} {f : α → Probe β}
    (h : ∀ a, r = .ok a → Asks allowed (f a)) : Asks allowed (pureStep r >>= f) := by
  cases r with
  | ok a => exact h a rfl
  | error e => exact .throw

theorem asks_tell (level : Level) (line : String) : Asks allowed (tell level line) :=
  fun _ => .of_eq rfl

theorem asks_plain (v : Value) : Asks allowed (plain v) := by
  unfold plain
  split
  · exact .throw
  · exact .get_bind fun _ => .pure

/-- What is done with the text of a text is done with itself. -/
theorem asks_plain_text_bind {s : String} {f : String → Probe β} (h : Asks allowed (f s)) :
    Asks allowed (plain (.text s) >>= f) := h

/-- **Reading tables one after the other sends what reading each of them sends.** -/
theorem asks_readEach {r : Reader} {names : List Value}
    (h : ∀ name ∈ names, Asks allowed (r.readTable c name)) :
    Asks allowed (r.readEach c names) := by
  induction names with
  | nil => exact .pure
  | cons name rest ih =>
    have hrest := ih fun n hn => h n (List.mem_cons_of_mem name hn)
    refine (h name List.mem_cons_self).bind fun found => ?_
    cases found with
    | none => exact (asks_plain _).bind fun _ => (asks_tell _ _).bind fun _ => hrest
    | some t =>
      refine .get_bind fun σ => (asks_plain _).bind fun _ => (asks_tell _ _).bind fun _ => ?_
      exact hrest.bind fun _ => .pure

end DbSchema.Source
