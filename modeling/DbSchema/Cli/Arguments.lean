import DbSchema.Text.Blank
import DbSchema.Text.Digit

/-!
# Arguments of a command line

Arguments are options and plain words.  A long option may be cut short as long as no other begins
the same way, and takes its value after an equals sign or as the next word; short options may be
written together.  After two dashes every argument is a plain word.

## Main definitions

* `Effect`, `Grammar` — what options do, and the options there are.
* `Word`, `Grammar.classify` — what an argument is, seen on its own.
* `Values`, `Grammar.readWords` — what the options of a list of words say.
-/

namespace DbSchema.Cli

open Text

/-- What an option does. -/
inductive Effect
  /-- It asks for help. -/
  | help
  | flag (key : String)
  /-- It has a value. -/
  | value (key : String)
deriving DecidableEq, Repr, Inhabited

/-- The options there are, under all their spellings. -/
abbrev Grammar := List (String × Effect)

/-- Why arguments describe nothing to be done. -/
inductive Refusal
  | help
  | wrong
deriving DecidableEq, Repr, Inhabited

/-- A text in the same argument as an option. -/
structure Attached where
  /-- Whether an equals sign stands before it. -/
  afterSign : Bool
  text : List Char
deriving DecidableEq, Repr, Inhabited

/-- What an argument is. -/
inductive Word
  | plain (text : String)
  | dashes
  | option (name : List Char) (effect : Effect) (attached : Option Attached)
  | unknown
deriving DecidableEq, Repr, Inhabited

/-! ### Single arguments -/

/-- Whether the characters are a negative number; a line end after it does not count. -/
def isNegativeNumber (cs : List Char) : Bool :=
  let cs := if cs.getLast? = some '\n' then cs.dropLast else cs
  match cs with
  | '-' :: r =>
    match r.dropWhile isDecimalDigit with
    | [] => !r.isEmpty
    | '.' :: decimals => !decimals.isEmpty && decimals.all isDecimalDigit
    | _ => false
  | _ => false

namespace Grammar

/-- The option with exactly the given name. -/
def find? (g : Grammar) (name : List Char) : Option Effect := g.lookup (String.ofList name)

/-- The characters before the first equals sign, and what follows it if there is one. -/
def splitSign (cs : List Char) : List Char × Option Attached :=
  (cs.takeWhile (· != '='),
    match cs.dropWhile (· != '=') with
    | [] => none
    | _ :: r => some ⟨true, r⟩)

/-- The options that an argument may stand for when it is none of them exactly. -/
def candidates (g : Grammar) (cs : List Char) : List Word :=
  match cs with
  | '-' :: '-' :: _ =>
    let (name, attached) := splitSign cs
    g.filterMap fun o =>
      if startsWith o.1.toList name then some (.option o.1.toList o.2 attached) else none
  | _ =>
    g.filterMap fun o =>
      if o.1.toList = cs.take 2 then some (.option o.1.toList o.2 (some ⟨false, cs.drop 2⟩))
      else if startsWith o.1.toList cs then some (.option o.1.toList o.2 none)
      else none

/-- An argument that begins with a dash and names no option: a negative number and everything with
a space in it are plain. -/
def unnamed (cs : List Char) : Word :=
  if isNegativeNumber cs ∨ cs.contains ' ' then .plain (String.ofList cs) else .unknown

/-- What an argument is that begins with a dash and is longer than that. -/
def classifyDashed (g : Grammar) (cs : List Char) : Except Refusal Word :=
  let (name, attached) := splitSign cs
  match g.find? cs, attached, g.find? name with
  | some e, _, _ => .ok (.option cs e none)
  | none, some a, some e => .ok (.option name e (some a))
  | _, _, _ =>
    match g.candidates cs with
    | [] => .ok (unnamed cs)
    | [word] => .ok word
    | _ => .error .wrong

/-- What an argument is, before two dashes. -/
def classify (g : Grammar) (s : String) : Except Refusal Word :=
  match s.toList with
  | '-' :: c :: r => g.classifyDashed ('-' :: c :: r)
  | _ => .ok (.plain s)

/-- What each argument is, with the argument itself. -/
def words (g : Grammar) : List String → Except Refusal (List (String × Word))
  | [] => .ok []
  | s :: r =>
    if s = "--" then .ok ((s, .dashes) :: r.map fun t => (t, .plain t))
    else do
      let word ← g.classify s
      return (s, word) :: (← g.words r)

end Grammar

/-! ### Options written together -/

/-- What an argument with options says: effects without a value, and what comes last. -/
inductive Ending
  | complete
  /-- An option that is not there. -/
  | unknown
  | value (key : String) (text : String)
  /-- A value is to follow as a word of its own. -/
  | pending (key : String)
deriving DecidableEq, Repr, Inhabited

/-- The effects of the options that are written together. -/
structure Cluster where
  effects : List Effect
  ending : Ending
deriving DecidableEq, Repr, Inhabited

/-- The cluster with an effect before all others. -/
def Cluster.after (e : Effect) (c : Cluster) : Cluster := { c with effects := e :: c.effects }

/-- An option without an attached text. -/
def Cluster.bare : Effect → Cluster
  | .value key => ⟨[], .pending key⟩
  | e => ⟨[e], .complete⟩

/-- An option with an attached text.  After a short option without a value the text is read as
further short options. -/
def Grammar.cluster (g : Grammar) (short afterSign : Bool) (e : Effect) :
    List Char → Except Refusal Cluster
  | [] =>
    match e with
    | .value key => .ok ⟨[], .value key ""⟩
    | _ => .error .wrong
  | c :: r =>
    match e with
    | .value key => .ok ⟨[], .value key (String.ofList (c :: r))⟩
    | e =>
      if !short || afterSign || c == '-' then .error .wrong
      else
        match g.find? ['-', c] with
        | none => .ok ⟨[e], .unknown⟩
        | some f =>
          match r with
          | [] => .ok ((Cluster.bare f).after e)
          | '=' :: text => (g.cluster true true f text).map (·.after e)
          | r => (g.cluster true false f r).map (·.after e)

/-! ### Lists of arguments -/

/-- What options say. -/
structure Values where
  flags : List String := []
  /-- The values of options, the latest first. -/
  texts : List (String × String) := []
  /-- Whether there were words or options of no use. -/
  surplus : Bool := false
deriving DecidableEq, Repr, Inhabited

namespace Values

/-- The values after the effects of some options; asking for help ends it all. -/
def apply (v : Values) : List Effect → Except Refusal Values
  | [] => .ok v
  | .help :: _ => .error .help
  | .flag key :: r => { v with flags := key :: v.flags }.apply r
  | .value _ :: r => v.apply r

/-- The values with that of one option. -/
def withText (v : Values) (key text : String) : Values := { v with texts := (key, text) :: v.texts }

/-- The value of an option. -/
def text? (v : Values) (key : String) : Option String := v.texts.lookup key

end Values

/-- The cluster of an option with what is attached to it. -/
def Grammar.clusterOf (g : Grammar) (name : List Char) (e : Effect) :
    Option Attached → Except Refusal Cluster
  | none => .ok (Cluster.bare e)
  | some a => g.cluster (name[1]? != some '-') a.afterSign e a.text

/-- What the options of a list of words say, with the arguments that are left.  If `whole`, plain
words are passed over as surplus; otherwise reading ends at the first of them. -/
def Grammar.readWords (g : Grammar) (whole : Bool) :
    Values → List (String × Word) → Except Refusal (Values × List String)
  | v, [] => .ok (v, [])
  | v, (s, word) :: r =>
    match word with
    | .plain _ | .dashes =>
      if whole then g.readWords whole { v with surplus := true } r
      else .ok (v, s :: r.map (·.1))
    | .unknown => g.readWords whole { v with surplus := true } r
    | .option name e attached => do
      let cluster ← g.clusterOf name e attached
      match cluster.ending, r with
      | .pending key, (_, .plain text) :: r =>
        g.readWords whole ((← v.apply cluster.effects).withText key text) r
      | .pending _, _ => .error .wrong
      | .value key text, r =>
        g.readWords whole ((← v.apply cluster.effects).withText key text) r
      | .unknown, r => g.readWords whole { ← v.apply cluster.effects with surplus := true } r
      | .complete, r => g.readWords whole (← v.apply cluster.effects) r

end DbSchema.Cli
