import DbSchema.Yaml.Build

/-!
# The content of a document

A document may hold a collection inside itself.  Its value is a tree in which such a collection is
unfolded as often as anything can tell; where the unfolding ends stands an empty collection with
the same mark.

## Main definitions

* `Walk` — the values found on a walk through a document.
* `Made.value` — the value of what a node has become, given those of other nodes.
* `valueOf` — the value of a node.
* `readDocument` — the value that a text holds.
-/

namespace DbSchema.Yaml

/-- What a walk through a document knows of a node. -/
inductive Found
  | nothing
  /-- The walk is inside of it. -/
  | inside
  | value (v : Value)
deriving Repr, Inhabited

/-- The values found on a walk through a document. -/
structure Walk where
  found : Array Found
  /-- The nodes that were met inside themselves. -/
  knots : List NodeId := []
deriving Inhabited

/-- Notes what is known of a node. -/
@[noinline] def Walk.put (n : NodeId) (f : Found) (w : Walk) : Walk :=
  { w with found := w.found.setIfInBounds n f }

/-- Notes that a node was met inside itself. -/
def Walk.tie (n : NodeId) (w : Walk) : Walk :=
  { w with knots := if w.knots.contains n then w.knots else n :: w.knots }

/-- An empty collection of the kind of another. -/
def Made.blank (mark : Mark) : Made → Value
  | .map _ => .map [] mark
  | .set _ => .set [] mark
  | _ => .list [] mark

/-- The value of what a node with the given mark has become; `visit` gives the values of other
nodes. -/
def Made.value (mark : Mark) (visit : NodeId → StateM Walk Value) : Made → StateM Walk Value
  | .plain v => return v.markedAs mark
  | .begun => return .null
  | .list items => return .list (← items.mapM visit) mark
  | .set items => return .set (← items.mapM visit) mark
  | .map entries => return .map (← entries.mapM pair) mark
  | .pairs entries => return .list ((← entries.mapM pair).map fun e => .tuple [e.1, e.2] .own) mark
where
  /-- The values of a pair of nodes. -/
  pair (e : NodeId × NodeId) : StateM Walk (Value × Value) := return (← visit e.1, ← visit e.2)

/-- A document whose nodes have become values and collections. -/
structure Content where
  made : Array (Option Made)
  /-- The number that the first node is marked with. -/
  base : Nat
  /-- What stands where a node is met inside itself. -/
  inner : Array (Option Value)
deriving Inhabited

namespace Content

/-- The value of a node. -/
def valueOf (c : Content) : Nat → NodeId → StateM Walk Value
  | 0, _ => return .null
  | fuel + 1, n => do
    let made := (c.made.getD n none).getD .begun
    let mark : Mark := .node (c.base + n)
    match (← get).found.getD n .nothing with
    | .value v => return v
    | .inside =>
      modify (Walk.tie n)
      return (c.inner.getD n none).getD (made.blank mark)
    | .nothing =>
      modify (Walk.put n .inside)
      let v ← made.value mark (valueOf c fuel)
      modify (Walk.put n (.value v))
      return v

/-- The value of a node and what was found on the way. -/
def walk (c : Content) (root : NodeId) : Value × Walk :=
  (c.valueOf (c.made.size + 1) root).run { found := Array.replicate c.made.size .nothing }

/-- The document with what a walk found in place of nodes inside themselves. -/
def unfolded (c : Content) (w : Walk) : Content :=
  { c with inner := w.found.map fun f =>
      match f with
      | .value v => some v
      | _ => none }

/-- The value of a node after unfolding some times. -/
def deepValue (root : NodeId) : Nat → Content → Value
  | 0, c => (c.walk root).1
  | times + 1, c => deepValue root times (c.unfolded (c.walk root).2)

/-- The parts of a schema that lie inside each other. -/
def maxParts : Nat := 5

/-- The value of a document: without a knot one walk finds it; otherwise it is unfolded for every
knot on a way, and for every part of a schema that may lie on another round. -/
def value (c : Content) (root : NodeId) : Value :=
  match c.walk root with
  | (v, ⟨_, []⟩) => v
  | (_, ⟨_, knots⟩) => c.deepValue root (knots.length + maxParts)

end Content

/-- The value that a text holds, null if it holds none.  Nodes are numbered from `base` on; the
number after the last one is given too. -/
def readDocument (base : Nat) (text : String) : Except Failure (Value × Nat) := do
  match ← Node.ofTokens (TokenRun.scan (Text.joinLines text.toList)) with
  | none => return (.null, base)
  | some (nodes, root) =>
    let made ← Made.ofNodes nodes root
    return (Content.value ⟨made, base, #[]⟩ root, base + nodes.size)

end DbSchema.Yaml
