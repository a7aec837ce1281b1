import DbSchema.Yaml.Lexer
import DbSchema.Yaml.Tag

/-!
# Nodes

The graph that a stream of tokens describes.  Nodes are numbered in the order in which they begin,
and refer to each other by number: an alias stands for the very node that carries the anchor, also
inside that node itself.

## Main definitions

* `Node` — scalars, sequences and mappings.
* `Parse` — what a parser has left and has learnt.
* `Node.ofTokens` — the nodes of the single document of a stream.
-/

namespace DbSchema.Yaml

/-- The number of a node in its document. -/
abbrev NodeId := Nat

/-- A node of a document. -/
inductive Node
  | scalar (tag : Tag) (text : String)
  | sequence (tag : Tag) (items : List NodeId)
  | mapping (tag : Tag) (entries : List (NodeId × NodeId))
deriving Repr, Inhabited

namespace Node

/-- The tag of a node. -/
def tag : Node → Tag
  | scalar t _ | sequence t _ | mapping t _ => t

/-- The node with another tag. -/
def retagged (t : Tag) : Node → Node
  | scalar _ s => scalar t s
  | sequence _ items => sequence t items
  | mapping _ entries => mapping t entries

end Node

/-- What a parser has left and has learnt. -/
structure ParseState where
  tokens : List Token
  /-- What stops the stream after these tokens, before its end. -/
  stop : Option Failure := none
  /-- The nodes with an anchor. -/
  anchors : List (String × NodeId) := []
  /-- The handles of tags and what they stand for. -/
  handles : List (String × String) := []
  /-- The nodes begun so far; one that is not complete has no items yet. -/
  nodes : Array Node := #[]
deriving Inhabited

/-- A step of the parser. -/
abbrev Parse := StateT ParseState (Except Failure)

namespace Parse

/-- The next token, nothing at the end of the stream. -/
def peek : Parse (Option Token) := do
  let s ← get
  match s.tokens, s.stop with
  | t :: _, _ => return some t
  | [], none => return none
  | [], some f => throw f

/-- Passes over the next token. -/
def skip : Parse Unit := modify fun s => { s with tokens := s.tokens.tail }

/-- The stream breaks a rule of the format. -/
def fail {α : Type} : Parse α := throw .malformed

/-- Passes over the next token, which must be the given one. -/
def expect (t : Token) : Parse Unit := do
  if (← peek) = some t then skip else fail

/-- Passes over the next token if it is the given one, and tells whether it was. -/
def accept (t : Token) : Parse Bool := do
  if (← peek) = some t then
    skip
    return true
  else return false

/-- Whether the next token is one of the given ones. -/
def nextIn (ts : List Token) : Parse Bool := do
  match (← peek) with
  | some t => return ts.contains t
  | none => return false

/-- Begins a node. -/
def begin (n : Node) : Parse NodeId :=
  modifyGet fun s => (s.nodes.size, { s with nodes := s.nodes.push n })

/-- Gives a node that was begun its final form. -/
def finish (id : NodeId) (n : Node) : Parse Unit :=
  modify fun s => { s with nodes := s.nodes.setIfInBounds id n }

/-- The node that stands where nothing is written. -/
def emptyNode : Parse NodeId := begin (.scalar .null "")

/-- The anchor and the tag in front of a node, in either order. -/
def properties : Parse (Option String × Option (Option String × String)) := do
  match (← peek) with
  | some (.anchor a) =>
    skip
    match (← peek) with
    | some (.tag h s) =>
      skip
      return (some a, some (h, s))
    | _ => return (some a, none)
  | some (.tag h s) =>
    skip
    match (← peek) with
    | some (.anchor a) =>
      skip
      return (some a, some (h, s))
    | _ => return (none, some (h, s))
  | _ => return (none, none)

/-- A written tag in full. -/
def fullTag (written : Option String × String) : Parse String := do
  match written with
  | (none, suffix) => return suffix
  | (some handle, suffix) =>
    match (← get).handles.find? (·.1 == handle) with
    | some (_, pre) => return pre ++ suffix
    | none => fail

/-- The tag of a node: the written one unless it is absent or a lone exclamation mark. -/
def chooseTag (written : Option String) (standard : Tag) : Tag :=
  match written with
  | none => standard
  | some uri => if uri = "!" then standard else .ofUri uri

/-- The tag of a scalar: quoted text is a string unless it is tagged. -/
def scalarTag (written : Option String) (isPlain : Bool) (text : String) : Tag :=
  match written with
  | none => if isPlain then plainTag text else .str
  | some uri => if uri = "!" then plainTag text else .ofUri uri

/-- Remembers the node with this anchor; no two nodes may share an anchor. -/
def putAnchor (anchor : Option String) (id : NodeId) : Parse Unit := do
  if let some a := anchor then
    if (← get).anchors.any (·.1 == a) then fail
    modify fun s => { s with anchors := (a, id) :: s.anchors }

/-- The node that an alias stands for. -/
def aliased (name : String) : Parse NodeId := do
  match (← get).anchors.find? (·.1 == name) with
  | some (_, id) => return id
  | none => fail

/-- What a node turns out to be at its first token. -/
inductive Shape
  | scalar (text : String) (isPlain : Bool)
  | indentless
  | flowSequence
  | flowMapping
  | blockSequence
  | blockMapping
deriving DecidableEq, Repr, Inhabited

/-- The shape of the node in front; the token that tells it is passed over unless it belongs to an
item.  Nothing may be written where there is an anchor or a tag. -/
def shape (block indentless named : Bool) : Parse Shape := do
  match (← peek), block, indentless with
  | some (.scalar text isPlain), _, _ =>
    skip
    return .scalar text isPlain
  | some .flowSequenceStart, _, _ =>
    skip
    return .flowSequence
  | some .flowMappingStart, _, _ =>
    skip
    return .flowMapping
  | some .blockSequenceStart, true, _ =>
    skip
    return .blockSequence
  | some .blockMappingStart, true, _ =>
    skip
    return .blockMapping
  | some .blockEntry, _, true => return .indentless
  | _, _, _ => if named then return .scalar "" true else fail

/-- The greatest depth of a node in its document. -/
def maxDepth : Nat := 487

mutual

/-- A node at a depth.  `block` admits blocks, `indentless` a sequence without indentation of its
own. -/
def node (block indentless : Bool) (depth : Nat) : Nat → Parse NodeId
  | 0 => fail
  | fuel + 1 => do
    if let some (.alias name) := (← peek) then
      skip
      aliased name
    else
      let (anchor, written) ← properties
      let written ← written.mapM fullTag
      let shape ← shape block indentless (anchor.isSome || written.isSome)
      let id ← begin (.scalar .null "")
      putAnchor anchor id
      let sequence (items : Parse (List NodeId)) : Parse Unit := do
        if maxDepth < depth then throw (.fault .tooDeep)
        finish id (.sequence (chooseTag written .seq) (← items))
      let mapping (entries : Parse (List (NodeId × NodeId))) : Parse Unit := do
        if maxDepth < depth then throw (.fault .tooDeep)
        finish id (.mapping (chooseTag written .map) (← entries))
      match shape with
      | .scalar text isPlain => finish id (.scalar (scalarTag written isPlain text) text)
      | .indentless => sequence (indentlessItems depth fuel)
      | .flowSequence => sequence (flowItems true depth fuel)
      | .flowMapping => mapping (flowEntries true depth fuel)
      | .blockSequence => sequence (blockItems depth fuel)
      | .blockMapping => mapping (blockEntries depth fuel)
      return id
termination_by structural fuel => fuel

/-- The items of a block sequence. -/
def blockItems (depth : Nat) : Nat → Parse (List NodeId)
  | 0 => fail
  | fuel + 1 => do
    if (← accept .blockEntry) then
      let item ←
        if (← nextIn [.blockEntry, .blockEnd]) then emptyNode
        else node true false (depth + 1) fuel
      return item :: (← blockItems depth fuel)
    else
      expect .blockEnd
      return []
termination_by structural fuel => fuel

/-- The items of a sequence without indentation of its own. -/
def indentlessItems (depth : Nat) : Nat → Parse (List NodeId)
  | 0 => fail
  | fuel + 1 => do
    if (← accept .blockEntry) then
      let item ←
        if (← nextIn [.blockEntry, .key, .value, .blockEnd]) then emptyNode
        else node true false (depth + 1) fuel
      return item :: (← indentlessItems depth fuel)
    else return []
termination_by structural fuel => fuel

/-- The entries of a block mapping. -/
def blockEntries (depth : Nat) : Nat → Parse (List (NodeId × NodeId))
  | 0 => fail
  | fuel + 1 => do
    let part : Parse NodeId := do
      if (← nextIn [.key, .value, .blockEnd]) then emptyNode
      else node true true (depth + 1) fuel
    if (← accept .key) then
      let k ← part
      let v ← if (← accept .value) then part else emptyNode
      return (k, v) :: (← blockEntries depth fuel)
    else
      expect .blockEnd
      return []
termination_by structural fuel => fuel

/-- The items of a bracketed sequence; an item with a key is a mapping of one entry. -/
def flowItems (first : Bool) (depth : Nat) : Nat → Parse (List NodeId)
  | 0 => fail
  | fuel + 1 => do
    if (← accept .flowSequenceEnd) then return []
    else
      if !first then expect .flowEntry
      if (← accept .key) then
        let id ← begin (.mapping .map [])
        let k ←
          if (← nextIn [.value, .flowEntry, .flowSequenceEnd]) then emptyNode
          else node false false (depth + 2) fuel
        let v ←
          if (← accept .value) then
            if (← nextIn [.flowEntry, .flowSequenceEnd]) then emptyNode
            else node false false (depth + 2) fuel
          else emptyNode
        finish id (.mapping .map [(k, v)])
        return id :: (← flowItems false depth fuel)
      else if (← accept .flowSequenceEnd) then return []
      else
        let item ← node false false (depth + 1) fuel
        return item :: (← flowItems false depth fuel)
termination_by structural fuel => fuel

/-- The entries of a bracketed mapping; a node alone is a key without a value. -/
def flowEntries (first : Bool) (depth : Nat) : Nat → Parse (List (NodeId × NodeId))
  | 0 => fail
  | fuel + 1 => do
    if (← accept .flowMappingEnd) then return []
    else
      if !first then expect .flowEntry
      if (← accept .key) then
        let k ←
          if (← nextIn [.value, .flowEntry, .flowMappingEnd]) then emptyNode
          else node false false (depth + 1) fuel
        let v ←
          if (← accept .value) then
            if (← nextIn [.flowEntry, .flowMappingEnd]) then emptyNode
            else node false false (depth + 1) fuel
          else emptyNode
        return (k, v) :: (← flowEntries false depth fuel)
      else if (← accept .flowMappingEnd) then return []
      else
        let k ← node false false (depth + 1) fuel
        let v ← emptyNode
        return (k, v) :: (← flowEntries false depth fuel)
termination_by structural fuel => fuel

end

/-- The handles that need no directive. -/
def standardHandles : List (String × String) := [("!", "!"), ("!!", Tag.standard)]

/-- The directives in front of a document: at most one version, which must be the first, and one
meaning for each handle. -/
def directives : Nat → Bool → List (String × String) → Parse (List (String × String))
  | 0, _, handles => return handles
  | fuel + 1, hasVersion, handles => do
    match (← peek) with
    | some (.versionDirective major) =>
      skip
      if hasVersion ∨ major ≠ 1 then fail
      directives fuel true handles
    | some (.tagDirective handle pre) =>
      skip
      if handles.any (·.1 == handle) then fail
      directives fuel hasVersion (handles ++ [(handle, pre)])
    | some .otherDirective =>
      skip
      directives fuel hasVersion handles
    | _ => return handles

/-- Whether the next token is a directive. -/
def atDirective : Parse Bool := do
  match (← peek) with
  | some (.versionDirective _) | some (.tagDirective ..) | some .otherDirective => return true
  | _ => return false

/-- Passes over the ends of documents in front. -/
def skipEnds : Nat → Parse Unit
  | 0 => return ()
  | fuel + 1 => do
    if (← accept .documentEnd) then skipEnds fuel

/-- Passes over what opens a document with directives or a marker, and tells whether there is one;
there is none at the end of the stream. -/
def openDocument (fuel : Nat) : Parse Bool := do
  skipEnds fuel
  if (← peek).isNone then return false
  let handles ← directives fuel false []
  modify fun s => { s with
    handles := handles ++ standardHandles.filter fun h => !handles.any (·.1 == h.1) }
  expect .documentStart
  return true

/-- The root of a document after its marker. -/
def explicitRoot (fuel : Nat) : Parse NodeId := do
  if (← atDirective) || (← peek).isNone || (← nextIn [.documentStart, .documentEnd]) then emptyNode
  else node true false 1 fuel

/-- The root of the single document of the stream, if there is a document. -/
def document (fuel : Nat) : Parse (Option NodeId) := do
  let startsExplicit := (← atDirective) || (← peek).isNone || (← nextIn [.documentStart])
  let root ←
    if startsExplicit then
      if (← openDocument fuel) then some <$> explicitRoot fuel else pure none
    else do
      modify fun s => { s with handles := standardHandles }
      some <$> node true false 1 fuel
  discard (accept .documentEnd)
  if (← openDocument fuel) then fail
  return root

end Parse

/-- The nodes of the single document that a run of tokens describes, and the number of its root;
nothing if there is no document. -/
def Node.ofTokens (run : TokenRun) : Except Failure (Option (Array Node × NodeId)) := do
  let (root, s) ←
    (Parse.document (4 * run.tokens.length + 16)).run { tokens := run.tokens, stop := run.stop }
  return root.map fun id => (s.nodes, id)

end DbSchema.Yaml
