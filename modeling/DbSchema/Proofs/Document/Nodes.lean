import DbSchema.Proofs.Document.Marks
import DbSchema.Yaml.Content

/-!
# The numbers of nodes

The collections and dates of a text are marked with the numbers of their nodes, which go on from
text to text.  What a text is read as does not depend on the number of its first node, except for
these marks.

## Main definitions

* `Found.bare f` — what a walk knows of a node, without marks.
* `Agrees bare x y` — two steps of walks through the same document end alike, if they begin alike.

## Main results

* `Content.agrees_valueOf` — the values of a node agree.
* `readDocument_bare` — a text is read from any number on as it is read from zero on.
-/

namespace DbSchema.Yaml

/-- What a walk knows of a node, without marks. -/
def Found.bare : Found → Found
  | .value v => .value v.bare
  | f => f

/-- Two walks have found the same but for marks. -/
structure Walk.Alike (w w' : Walk) : Prop where
  found : w.found.map Found.bare = w'.found.map Found.bare
  knots : w.knots = w'.knots

/-- Two documents have the same nodes, and the same stands where one is met inside itself, but for
marks. -/
structure Content.Alike (c c' : Content) : Prop where
  made : c.made = c'.made
  inner : c.inner.map (Option.map Value.bare) = c'.inner.map (Option.map Value.bare)

variable {α β γ δ : Type} {w w' : Walk} {c c' : Content}

/-- An element of an array that is looked up is looked up in what it is mapped to. -/
theorem map_getD {f : α → β} (l : Array α) (n : Nat) (d : α) :
    f (l.getD n d) = (l.map f).getD n (f d) := by
  simp only [Array.getD_eq_getD_getElem?, Array.getElem?_map]
  cases l[n]? <;> rfl

theorem Walk.Alike.getD (h : w.Alike w') (n : Nat) :
    (w.found.getD n .nothing).bare = (w'.found.getD n .nothing).bare := by
  rw [map_getD (f := Found.bare), map_getD (f := Found.bare), h.found]

theorem Walk.Alike.put (h : w.Alike w') (n : Nat) {f f' : Found} (hf : f.bare = f'.bare) :
    (w.put n f).Alike (w'.put n f') := by
  refine ⟨?_, h.knots⟩
  simp only [Walk.put, Array.map_setIfInBounds, h.found, hf]

theorem Walk.Alike.tie (h : w.Alike w') (n : Nat) : (w.tie n).Alike (w'.tie n) :=
  ⟨h.found, by simp only [Walk.tie, h.knots]⟩

/-- What stands where a node is met inside itself is the same but for marks. -/
theorem Content.Alike.bare_inner (h : c.Alike c') (n : Nat) {v v' : Value} (hv : v.bare = v'.bare) :
    ((c.inner.getD n none).getD v).bare = ((c'.inner.getD n none).getD v').bare := by
  have hinner : (c.inner.getD n none).map Value.bare = (c'.inner.getD n none).map Value.bare := by
    rw [map_getD (f := Option.map Value.bare), map_getD (f := Option.map Value.bare), h.inner]
  rw [← Option.getD_map Value.bare, ← Option.getD_map Value.bare, hinner, hv]

/-! ### Steps that agree -/

/-- Two steps that begin with walks that are alike end with such walks, and their results are the
same under `bare`. -/
def Agrees (bare : α → β) (x y : StateM Walk α) : Prop :=
  ∀ w w' : Walk, w.Alike w' → bare (x.run w).1 = bare (y.run w').1 ∧ (x.run w).2.Alike (y.run w').2

namespace Agrees

variable {bare : α → β} {bare' : γ → δ} {x y : StateM Walk α} {f g : α → StateM Walk γ}

theorem pure {a b : α} (h : bare a = bare b) :
    Agrees bare (Pure.pure a : StateM Walk α) (Pure.pure b) := fun _ _ hw => ⟨h, hw⟩

theorem bind (h : Agrees bare x y) (hf : ∀ a b, bare a = bare b → Agrees bare' (f a) (g b)) :
    Agrees bare' (x >>= f) (y >>= g) := fun w w' hw =>
  hf _ _ (h w w' hw).1 _ _ (h w w' hw).2

theorem mapM {f g : γ → StateM Walk α} (l : List γ) (h : ∀ n ∈ l, Agrees bare (f n) (g n)) :
    Agrees (List.map bare) (l.mapM f) (l.mapM g) := by
  induction l with
  | nil => exact pure rfl
  | cons n l ih =>
    rw [List.mapM_cons, List.mapM_cons]
    refine (h n List.mem_cons_self).bind fun a b hab => ?_
    refine (ih fun m hm => h m (List.mem_cons_of_mem n hm)).bind fun as bs habs => pure ?_
    rw [List.map_cons, List.map_cons, hab, habs]

/-- A step may look at the walk first. -/
theorem get_bind {f g : Walk → StateM Walk α}
    (h : ∀ w w' : Walk, w.Alike w' →
      bare ((f w).run w).1 = bare ((g w').run w').1 ∧ ((f w).run w).2.Alike ((g w').run w').2) :
    Agrees bare (get >>= f) (get >>= g) := fun w w' hw => h w w' hw

theorem modify {f g : Walk → Walk} (h : ∀ w w' : Walk, w.Alike w' → (f w).Alike (g w')) :
    Agrees (fun u => u) (modify f : StateM Walk PUnit) (modify g) :=
  fun w w' hw => ⟨rfl, h w w' hw⟩

end Agrees

/-! ### Values of nodes -/

theorem Made.bare_blank (mark mark' : Mark) (m : Made) :
    (m.blank mark).bare = (m.blank mark').bare := by
  cases m <;> rfl

/-- The values of what a node has become agree when those of other nodes do. -/
theorem Made.agrees_value (mark mark' : Mark) {visit visit' : NodeId → StateM Walk Value}
    (h : ∀ n, Agrees Value.bare (visit n) (visit' n)) (m : Made) :
    Agrees Value.bare (m.value mark visit) (m.value mark' visit') := by
  have hitems : ∀ items : List NodeId,
      Agrees (List.map Value.bare) (items.mapM visit) (items.mapM visit') :=
    fun items => .mapM items fun n _ => h n
  have hentries : ∀ entries : Entries, Agrees (List.map fun e => (e.1.bare, e.2.bare))
      (entries.mapM (value.pair visit)) (entries.mapM (value.pair visit')) := by
    refine fun entries => .mapM entries fun e _ => ?_
    refine (h e.1).bind fun k k' hk => (h e.2).bind fun v v' hv => .pure ?_
    rw [hk, hv]
  cases m with
  | plain v => exact .pure (by simp)
  | begun => exact .pure rfl
  | list items | set items =>
    refine (hitems items).bind fun _ _ hvs => .pure ?_
    simp only [Value.bare, Value.bareAll_eq_map, hvs]
  | map entries =>
    refine (hentries entries).bind fun _ _ hvs => .pure ?_
    simp only [Value.bare, Value.bareEntries_eq_map, hvs]
  | pairs entries =>
    -- each pair becomes a tuple, whose mark does not matter
    have htuples : ∀ es : List (Value × Value),
        Value.bareAll (es.map fun e => .tuple [e.1, e.2] .own) =
          (es.map fun e => (e.1.bare, e.2.bare)).map fun e => .tuple [e.1, e.2] .own := by
      intro es
      simp only [Value.bareAll_eq_map, List.map_map]
      rfl
    refine (hentries entries).bind fun _ _ hvs => .pure ?_
    simp only [Value.bare, htuples, hvs]

/-- **The values of a node agree** in documents that are alike. -/
theorem Content.agrees_valueOf (hc : c.Alike c') (fuel : Nat) (n : NodeId) :
    Agrees Value.bare (c.valueOf fuel n) (c'.valueOf fuel n) := by
  induction fuel generalizing n with
  | zero => exact .pure rfl
  | succ fuel ih =>
    unfold valueOf
    refine Agrees.get_bind fun w w' hw => ?_
    have hfound := hw.getD n
    generalize w.found.getD n .nothing = found at hfound ⊢
    generalize w'.found.getD n .nothing = found' at hfound ⊢
    rcases found with _ | _ | v <;> rcases found' with _ | _ | v' <;>
      simp only [Found.bare, reduceCtorEq, Found.value.injEq] at hfound
    · -- the node is met for the first time
      refine Agrees.bind (Agrees.modify fun _ _ h => h.put n rfl) (fun _ _ _ => ?_) w w' hw
      rw [← hc.made]
      refine (Made.agrees_value _ _ ih _).bind fun v v' hv => ?_
      have hput : Found.bare (.value v) = Found.bare (.value v') := congrArg Found.value hv
      exact (Agrees.modify fun _ _ h => h.put n hput).bind fun _ _ _ => .pure hv
    · -- the node is met inside itself
      rw [← hc.made]
      exact (Agrees.modify fun _ _ h => h.tie n).bind
        (fun _ _ _ => .pure (hc.bare_inner n (Made.bare_blank _ _ _))) w w' hw
    · exact ⟨hfound, hw⟩

/-! ### Values of documents -/

theorem Content.alike_walk (hc : c.Alike c') (root : NodeId) :
    (c.walk root).1.bare = (c'.walk root).1.bare ∧ (c.walk root).2.Alike (c'.walk root).2 := by
  rw [walk, walk, ← hc.made]
  exact agrees_valueOf hc _ root _ _ ⟨rfl, rfl⟩

theorem Content.Alike.unfolded (hc : c.Alike c') (hw : w.Alike w') :
    (c.unfolded w).Alike (c'.unfolded w') := by
  refine ⟨hc.made, ?_⟩
  -- what is found is without marks before it is taken or after that
  have htake : ∀ w : Walk, ((c.unfolded w).inner.map (Option.map Value.bare)) =
      (w.found.map Found.bare).map fun f =>
        match f with
        | .value v => some v
        | _ => none := by
    intro w
    simp only [Content.unfolded, Array.map_map]
    congr 1
    funext f
    cases f <;> rfl
  rw [htake, hw.found, ← htake]
  rfl

theorem Content.bare_deepValue (hc : c.Alike c') (root : NodeId) (times : Nat) :
    (c.deepValue root times).bare = (c'.deepValue root times).bare := by
  induction times generalizing c c' with
  | zero => exact (alike_walk hc root).1
  | succ times ih => exact ih (hc.unfolded (alike_walk hc root).2)

/-- The value of a document is the same but for marks. -/
theorem Content.Alike.bare_value (hc : c.Alike c') (root : NodeId) :
    (c.value root).bare = (c'.value root).bare := by
  have hwalk := alike_walk hc root
  have hdeep := bare_deepValue hc root
  rw [value, value]
  generalize c.walk root = p at hwalk ⊢
  generalize c'.walk root = p' at hwalk ⊢
  obtain ⟨v, found, knots⟩ := p
  obtain ⟨v', found', knots'⟩ := p'
  obtain ⟨hv, -, hknots⟩ := hwalk
  cases hknots
  rcases knots with _ | ⟨k, l⟩
  · exact hv
  · exact hdeep _

/-- **A text is read from any number on as it is read from zero on**, but for marks. -/
theorem readDocument_bare {text : String} {v : Value} {next : Nat}
    (h : readDocument 0 text = .ok (v, next)) (base : Nat) :
    ∃ v', readDocument base text = .ok (v', base + next) ∧ v'.bare = v.bare := by
  rw [readDocument] at h ⊢
  rcases hnodes : Node.ofTokens (TokenRun.scan (Text.joinLines text.toList)) with
    e | _ | ⟨nodes, root⟩ <;> simp only [hnodes, bind, Except.bind] at h ⊢
  · cases h
  · cases h
    exact ⟨.null, rfl, rfl⟩
  · rcases hmade : Made.ofNodes nodes root with e | made <;> simp only [hmade] at h ⊢ <;> cases h
    have halike : (Content.mk made base #[]).Alike (Content.mk made 0 #[]) := ⟨rfl, rfl⟩
    exact ⟨_, by rw [Nat.zero_add]; rfl, halike.bare_value root⟩

end DbSchema.Yaml
