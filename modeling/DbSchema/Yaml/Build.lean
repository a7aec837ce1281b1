import DbSchema.Yaml.Node
import DbSchema.Yaml.Scalar

/-!
# Making values of nodes

A node becomes a value under its tag.  A collection is made empty and filled later, level by level,
so that the first fault of a document is the one nearest to its root.  A mapping takes over the
entries of the mappings that are merged into it; this changes the nodes themselves, and what meets
them afterwards finds them merged.

## Main definitions

* `Made` — what a node has become.
* `Build` — a step of making values.
* `Build.flatten` — merges into a mapping what it asks for.
* `Build.make`, `Build.fill` — begins a value and completes a collection.
* `Made.ofNodes` — what all nodes of a document become.
-/

namespace DbSchema.Yaml

/-- The entries of a mapping: keys and values by number. -/
abbrev Entries := List (NodeId × NodeId)

/-- What a node has become. -/
inductive Made
  | plain (v : Value)
  /-- A collection that is not filled yet. -/
  | begun
  | list (items : List NodeId)
  | pairs (entries : Entries)
  | set (items : List NodeId)
  | map (entries : Entries)
deriving Repr, Inhabited

/-- What the making of values has reached. -/
structure BuildState where
  nodes : Array Node
  /-- What the nodes have become so far. -/
  made : Array (Option Made)
  /-- The collections that are to be filled, the latest first. -/
  later : List NodeId := []
  /-- A number that the merges of the document do not exceed. -/
  merges : Nat
deriving Inhabited

/-- A step of making values. -/
abbrev Build := StateT BuildState (Except Failure)

namespace Build

/-- The document breaks a rule of the format. -/
def fail {α : Type} : Build α := throw .malformed

/-- The node with a number. -/
def nodeAt (n : NodeId) : Build Node := do return (← get).nodes.getD n default

/-- Changes a node. -/
def setNode (n : NodeId) (node : Node) : Build Unit :=
  modify fun s => { s with nodes := s.nodes.setIfInBounds n node }

/-- Remembers what a node has become. -/
def setMade (n : NodeId) (m : Made) : Build Unit :=
  modify fun s => { s with made := s.made.setIfInBounds n (some m) }

/-- Whether the key of an entry has a tag. -/
def hasKeyTag (t : Tag) (e : NodeId × NodeId) : Build Bool := do
  return (← nodeAt e.1).tag = t

/-- The first entry that is found by a test, and all others. -/
def takeFirst (test : NodeId × NodeId → Build Bool) :
    Entries → Build (Option (NodeId × NodeId) × Entries)
  | [] => return (none, [])
  | e :: r => do
    if (← test e) then return (some e, r)
    else
      let (found, r) ← takeFirst test r
      return (found, e :: r)

/-- The entries of a node, which must be a mapping. -/
def entriesAt (n : NodeId) : Build Entries := do
  match (← nodeAt n) with
  | .mapping _ entries => return entries
  | _ => fail

/-- Changes the entries of a mapping. -/
def setEntries (n : NodeId) (entries : Entries) : Build Unit := do
  setNode n (.mapping (← nodeAt n).tag entries)

/-- Makes the sign of the default value a plain text where it is the key of an entry. -/
def namePlain (e : NodeId × NodeId) : Build Unit := do
  if (← hasKeyTag .value e) then setNode e.1 ((← nodeAt e.1).retagged .str)

/-- Takes what is merged out of the entries of a mapping and puts the entries of it in front, those
already collected first; of a list of mappings the later one comes before the earlier one.  Every
call takes out one entry for good, so a mapping may be merged into itself. -/
def flatten : Nat → NodeId → Entries → Build Unit
  | 0, _, _ => fail
  | fuel + 1, n, collected => do
    let entries ← entriesAt n
    match (← takeFirst (hasKeyTag .merge) entries) with
    | (none, _) => do
      entries.forM namePlain
      setEntries n (collected ++ entries)
    | (some (_, source), rest) => do
      setEntries n rest
      let flat (m : NodeId) : Build Entries := do
        flatten fuel m []
        entriesAt m
      let more ←
        match (← nodeAt source) with
        | .mapping .. => flat source
        | .sequence _ items => pure (← items.mapM flat).reverse.flatten
        | .scalar .. => fail
      flatten fuel n (collected ++ more)

/-- The characters of a scalar; a mapping with a default value gives the characters of that. -/
def scalarText : Nat → NodeId → Build String
  | 0, _ => throw (.fault .tooDeep)
  | fuel + 1, n => do
    match (← nodeAt n) with
    | .scalar _ s => return s
    | .sequence .. => fail
    | .mapping _ entries =>
      match (← takeFirst (hasKeyTag .value) entries) with
      | (some (_, v), _) => scalarText fuel v
      | (none, _) => fail

/-- The value of a node that becomes no collection. -/
def readPlain (n : NodeId) : Build Value := do
  let s ← get
  match (← nodeAt n).tag with
  | .null | .bool | .int | .float | .binary | .str =>
    readScalar (← nodeAt n).tag (← scalarText (s.nodes.size + 1) n)
  | .timestamp =>
    let text ← scalarText (s.nodes.size + 1) n
    match (← nodeAt n) with
    | .scalar .. => readScalar .timestamp text
    | _ => throw (.fault (.notText (.ofList [])))
  | _ => fail

/-- Begins the value of a node unless it was begun already. -/
def make (n : NodeId) : Build Unit := do
  if ((← get).made.getD n none).isNone then
    match (← nodeAt n).tag with
    | .seq | .map | .set | .omap | .pairs =>
      setMade n .begun
      modify fun s => { s with later := n :: s.later }
    | _ => setMade n (.plain (← readPlain n))

/-- The value of a key, which must not be a collection. -/
def keyValue (n : NodeId) : Build Value := do
  make n
  match (← get).made.getD n none with
  | some (.plain v) => return v
  | _ => fail

/-- Whether the word for not a number is written.  All places where it is hold the same value. -/
def isNanWord (n : NodeId) : Build Bool := do
  let s ← get
  let text := (dropLines (← scalarText (s.nodes.size + 1) n)).map Char.toLower
  return text.drop (text.length - 4) = ['.', 'n', 'a', 'n']

/-- Whether two keys are one. -/
def sameKey (n : NodeId) (v : Value) (m : NodeId) (w : Value) : Build Bool := do
  if n = m || v.same w then return true
  else
    match v, w with
    | .float .nan, .float .nan => return (← isNanWord n) && (← isNanWord m)
    | _, _ => return false

/-- The entries after storing a value under a key: an equal key keeps its place and its first
spelling. -/
def storeEntry (key : NodeId) (v : Value) (item : NodeId) :
    List (NodeId × Value × NodeId) → Build (List (NodeId × Value × NodeId))
  | [] => return [(key, v, item)]
  | (k, w, old) :: r => do
    if (← sameKey k w key v) then return (k, w, item) :: r
    else return (k, w, old) :: (← storeEntry key v item r)

/-- The entries of a mapping after merging, each key once, with all their values begun. -/
def mappingEntries (n : NodeId) : Build Entries := do
  match (← nodeAt n) with
  | .mapping .. =>
    flatten ((← get).merges + 1) n []
    let stored ← (← entriesAt n).foldlM (fun acc e => do
      let key ← keyValue e.1
      make e.2
      storeEntry e.1 key e.2 acc) []
    return stored.map fun e => (e.1, e.2.2)
  | _ => fail

/-- The entry of a mapping that has no other. -/
def singleEntry (n : NodeId) : Build (NodeId × NodeId) := do
  match (← nodeAt n) with
  | .mapping _ [e] =>
    make e.1
    make e.2
    return e
  | _ => fail

/-- Fills a collection. -/
def fill (n : NodeId) : Build Unit := do
  match (← nodeAt n).tag, (← nodeAt n) with
  | .seq, .sequence _ items =>
    items.forM make
    setMade n (.list items)
  | .omap, .sequence _ items | .pairs, .sequence _ items =>
    setMade n (.pairs (← items.mapM singleEntry))
  | .map, .mapping .. => setMade n (.map (← mappingEntries n))
  | .set, .mapping .. => setMade n (.set ((← mappingEntries n).map (·.1)))
  | _, _ => fail

/-- Fills collections level by level until none is left. -/
def fillAll : Nat → Build Unit
  | 0 => return ()
  | fuel + 1 => do
    match (← get).later with
    | [] => return ()
    | level =>
      modify fun s => { s with later := [] }
      level.reverse.forM fill
      fillAll fuel

end Build

/-- The number of entries of a node. -/
def Node.entryCount : Node → Nat
  | .mapping _ entries => entries.length
  | _ => 0

/-- What the nodes of a document with the given root become. -/
def Made.ofNodes (nodes : Array Node) (root : NodeId) :
    Except Failure (Array (Option Made)) := do
  let start : BuildState :=
    { nodes
      made := Array.replicate nodes.size none
      merges := nodes.foldl (fun k node => k + node.entryCount) 0 }
  let build : Build Unit := do
    Build.make root
    Build.fillAll (nodes.size + 1)
  let (_, s) ← build.run start
  return s.made

end DbSchema.Yaml
