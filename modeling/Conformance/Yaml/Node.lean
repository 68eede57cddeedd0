import Conformance.Yaml.Lexer

/-!
# Nodes of YAML documents

The tokens of a text form a tree of scalars, sequences and mappings. A node may carry a tag, and a name
by which aliases refer to it.
-/
namespace Conformance.Yaml

/-- A node of a document. A tag has its handle replaced by what the handle stands for. -/
inductive Node where
  | scalar (tag : Option String) (text : String) (style : Style)
  | seq (tag : Option String) (items : List Node)
  | map (tag : Option String) (pairs : List (Node × Node))
  /-- The node that the number stands for. -/
  | alias (number : Nat)
  deriving Repr, Inhabited

/-- The empty node, as it stands where nothing is written. -/
def Node.empty (tag : Option String) : Node := .scalar tag "" .plain

/-- The named nodes of a document. A name gets the number of names before it; when a name is given
again its number changes, and a number stands for the node that claimed it last. -/
structure Names where
  numbers : List (String × Nat) := []
  /-- Which named node, in the order of their beginnings, has claimed a number, the last claim first. -/
  claims : List (Nat × Nat) := []
  /-- How many named nodes have begun. -/
  begun : Nat := 0
  /-- The named nodes that are complete. -/
  nodes : List (Nat × Node) := []
  deriving Repr, Inhabited

namespace Names

/-- The names with a node begun under one. -/
def begin (n : Names) (name : String) : Names :=
  let number := n.numbers.length
  { n with
    numbers := (name, number) :: n.numbers.filter (·.1 ≠ name)
    claims := (number, n.begun) :: n.claims
    begun := n.begun + 1 }

/-- The node that a number stands for. -/
def node? (n : Names) (number : Nat) : Option Node :=
  (n.claims.lookup number).bind fun serial => n.nodes.lookup serial

end Names

/-- What a document is read from. -/
structure Reading where
  tokens : List Token
  /-- What the handles of tags stand for. -/
  handles : List (String × String) := []
  names : Names := {}
  /-- How many scalars, aliases, and ends of collections have been read. -/
  events : Nat := 0
  deriving Repr, Inhabited

/-- A step of reading a document. -/
abbrev Reader := StateT Reading Option

namespace Reader

/-- The next token, which stays. -/
def peek : Reader (Option Token) := do return (← get).tokens.head?

/-- Whether the next token is one of these. -/
def nextIs (ts : List Token) : Reader Bool := do return (← peek).any fun t => ts.contains t

/-- Drops the next token. -/
def drop : Reader Unit := modify fun s => { s with tokens := s.tokens.tail }

/-- Counts what has been read. -/
def count (n : Nat) : Reader Unit := modify fun s => { s with events := s.events + n }

/-- The handles that need no directive. -/
def usualHandles : List (String × String) := [("!", "!"), ("!!", "tag:yaml.org,2002:")]

/-- The tag that a handle and what follows it stand for. -/
def resolve (handle suffix : String) : Reader String := do
  if handle.isEmpty then return suffix
  match ((← get).handles ++ usualHandles).lookup handle with
  | some start => return start ++ suffix
  | none => failure

/-- The tag in front of a node. -/
def tag? : Reader (Option String) := do
  match ← peek with
  | some (.tag handle suffix) => drop; return some (← resolve handle suffix)
  | _ => return none

/-- The anchor in front of a node. -/
def anchor? : Reader (Option String) := do
  match ← peek with
  | some (.anchor name) => drop; return some name
  | _ => return none

/-- The anchor and the tag in front of a node, in either order. -/
def properties : Reader (Option String × Option String) := do
  match ← anchor? with
  | some name => return (some name, ← tag?)
  | none =>
    let tag ← tag?
    return (← anchor?, tag)

/-- A node, with its name kept if it has one. -/
def named (name : Option String) (node : Reader Node) : Reader Node := do
  match name with
  | none => node
  | some name =>
    let serial := (← get).names.begun
    modify fun s => { s with names := s.names.begin name }
    let node ← node
    modify fun s => { s with names := { s.names with nodes := (serial, node) :: s.names.nodes } }
    return node

/-- The empty node. -/
def emptyNode (tag : Option String) : Reader Node := do count 1; return .empty tag

/-- The node of an alias. -/
def aliasNode (name : String) : Reader Node := do
  count 1
  match (← get).names.numbers.lookup name with
  | some number => return .alias number
  | none => failure

/-- The node of a scalar. The tag that is a lone mark says nothing. -/
def scalarNode (tag : Option String) (text : String) (style : Style) : Reader Node := do
  count 1
  return .scalar (tag.filter (· ≠ "!")) text style

mutual

/-- The node at the next tokens. Collections by indentation may stand there if `block`, and a sequence no
further right than the mapping around it if `indentless`. -/
def node (fuel : Nat) (block indentless : Bool) : Reader Node :=
  match fuel with
  | 0 => failure
  | fuel + 1 => do
    match ← peek with
    | some (.alias name) => drop; aliasNode name
    | _ =>
      let (name, tag) ← properties
      let next ← peek
      if indentless && next = some .blockEntry then
        named name (do count 2; return .seq tag (← indentlessItems fuel))
      else
        match next with
        | some (.scalar text style) => drop; named name (scalarNode tag text style)
        | some .flowSequenceStart =>
          drop; named name (do count 2; return .seq tag (← flowItems fuel true))
        | some .flowMappingStart =>
          drop; named name (do count 2; return .map tag (← flowPairs fuel true))
        | some .blockSequenceStart =>
          if block then drop; named name (do count 2; return .seq tag (← blockItems fuel))
          else bare name tag
        | some .blockMappingStart =>
          if block then drop; named name (do count 2; return .map tag (← blockPairs fuel))
          else bare name tag
        | _ => bare name tag

/-- The node where nothing follows an anchor or a tag. -/
def bare (name tag : Option String) : Reader Node :=
  if name.isSome || tag.isSome then named name (emptyNode tag) else failure

/-- The node at the next tokens, or the empty node in front of one of `ends`. -/
def nodeOrEmpty (fuel : Nat) (block indentless : Bool) (ends : List Token) : Reader Node :=
  match fuel with
  | 0 => failure
  | fuel + 1 => do
    if ← nextIs ends then emptyNode none else node fuel block indentless

/-- The items of a sequence by indentation. -/
def blockItems (fuel : Nat) : Reader (List Node) :=
  match fuel with
  | 0 => failure
  | fuel + 1 => do
    match ← peek with
    | some .blockEntry =>
      drop
      let item ← nodeOrEmpty fuel true false [.blockEntry, .blockEnd]
      return item :: (← blockItems fuel)
    | some .blockEnd => drop; return []
    | _ => failure

/-- The items of a sequence no further right than the mapping around it. -/
def indentlessItems (fuel : Nat) : Reader (List Node) :=
  match fuel with
  | 0 => failure
  | fuel + 1 => do
    match ← peek with
    | some .blockEntry =>
      drop
      let item ← nodeOrEmpty fuel true false [.blockEntry, .key, .value, .blockEnd]
      return item :: (← indentlessItems fuel)
    | _ => return []

/-- The pairs of a mapping by indentation. -/
def blockPairs (fuel : Nat) : Reader (List (Node × Node)) :=
  match fuel with
  | 0 => failure
  | fuel + 1 => do
    match ← peek with
    | some .key =>
      drop
      let key ← nodeOrEmpty fuel true true [.key, .value, .blockEnd]
      let value ← valueOrEmpty fuel true [.key, .value, .blockEnd]
      return (key, value) :: (← blockPairs fuel)
    | some .blockEnd => drop; return []
    | _ => failure

/-- The value of a pair behind its token, or the empty node if that is not there. -/
def valueOrEmpty (fuel : Nat) (block : Bool) (ends : List Token) : Reader Node :=
  match fuel with
  | 0 => failure
  | fuel + 1 => do
    match ← peek with
    | some .value => drop; nodeOrEmpty fuel block block ends
    | _ => emptyNode none

/-- The items of a sequence between brackets. A pair without braces is a mapping of its own; where its
key is empty, the next token is dropped. -/
def flowItems (fuel : Nat) (first : Bool) : Reader (List Node) :=
  match fuel with
  | 0 => failure
  | fuel + 1 => do
    match ← peek with
    | some .flowSequenceEnd => drop; return []
    | next =>
      if !first then
        if next = some .flowEntry then drop else failure
      match ← peek with
      | some .flowSequenceEnd => drop; return []
      | some .key =>
        drop
        count 2
        let key ←
          if ← nextIs [.value, .flowEntry, .flowSequenceEnd] then drop; emptyNode none
          else node fuel false false
        let value ← valueOrEmpty fuel false [.flowEntry, .flowSequenceEnd]
        return .map none [(key, value)] :: (← flowItems fuel false)
      | _ =>
        let item ← node fuel false false
        return item :: (← flowItems fuel false)

/-- The pairs of a mapping between braces. -/
def flowPairs (fuel : Nat) (first : Bool) : Reader (List (Node × Node)) :=
  match fuel with
  | 0 => failure
  | fuel + 1 => do
    match ← peek with
    | some .flowMappingEnd => drop; return []
    | next =>
      if !first then
        if next = some .flowEntry then drop else failure
      match ← peek with
      | some .flowMappingEnd => drop; return []
      | some .key =>
        drop
        let key ← nodeOrEmpty fuel false false [.value, .flowEntry, .flowMappingEnd]
        let value ← valueOrEmpty fuel false [.flowEntry, .flowMappingEnd]
        return (key, value) :: (← flowPairs fuel false)
      | _ =>
        let key ← node fuel false false
        let value ← emptyNode none
        return (key, value) :: (← flowPairs fuel false)

end

/-- Reads the directives in front of a document: at most one of the version, which has to be 1.1 or 1.2,
and none for one handle twice. -/
def directives (fuel : Nat) (versioned : Bool) : Reader Bool :=
  match fuel with
  | 0 => failure
  | fuel + 1 => do
    match ← peek with
    | some (.version major minor) =>
      if versioned || major ≠ 1 || (minor ≠ 1 && minor ≠ 2) then failure
      drop
      directives fuel true
    | some (.tagHandle handle start) =>
      if ((← get).handles.lookup handle).isSome then failure
      drop
      modify fun s => { s with handles := (handle, start) :: s.handles }
      directives fuel versioned
    | _ => return versioned

/-- Drops the marks behind a document. -/
def dropEnds (fuel : Nat) : Reader Unit :=
  match fuel with
  | 0 => failure
  | fuel + 1 => do
    if (← peek) = some .documentEnd then drop; dropEnds fuel else return ()

/-- The only document of a text; nothing if there is none. -/
def document (fuel : Nat) : Reader (Option Node) := do
  match ← peek with
  | none => return none
  | some _ =>
    let versioned ← directives fuel false
    let explicit := (← peek) = some .documentStart
    if explicit then drop
    else if versioned || !(← get).handles.isEmpty then failure
    let bare := explicit && (match ← peek with
      | none | some .documentStart | some .documentEnd | some (.version ..)
      | some (.tagHandle ..) => true
      | _ => false)
    let root ← if bare then emptyNode none else node fuel true false
    dropEnds fuel
    if (← peek).isNone then return some root else failure

end Reader

/-- A document: its root, if it has one, and its named nodes. -/
structure Document where
  root : Option Node
  names : Names
  /-- The number of its scalars, aliases, and ends of collections. -/
  events : Nat
  deriving Repr, Inhabited

/-- The only document of a text. -/
def Document.read? (text : String) : Option Document := do
  let tokens ← tokens? text
  let (root, s) ← (Reader.document (6 * tokens.length + 8)).run { tokens }
  return { root, names := s.names, events := if root.isSome then s.events else 1 }

end Conformance.Yaml
