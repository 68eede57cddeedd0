import Conformance.Json.Value
import Conformance.Yaml.Node
import Conformance.Yaml.Scalar

/-!
# Data in YAML documents

What a node means where any data may stand, and its counterpart in JSON. Aliases are followed a bounded
number of times, so that a small document cannot grow without end.
-/
namespace Conformance.Yaml

open Conformance.Text

/-- The value of a node. -/
inductive Data where
  | null
  | bool (b : Bool)
  | int (n : Int)
  | float (x : Binary64)
  | str (s : String)
  | seq (items : List Data)
  | map (pairs : List (Data × Data))
  /-- A value with a tag of the document's own. -/
  | tagged (tag : String) (value : Data)
  deriving Repr, Inhabited

namespace Data

mutual

/-- Whether two values are the same key. The order of a mapping's pairs does not count. -/
def same : Data → Data → Bool
  | .null, .null => true
  | .bool a, .bool b => a = b
  | .int a, .int b => a = b
  | .float a, .float b => a.sameNumber b
  | .str a, .str b => a = b
  | .seq a, .seq b => sameItems a b
  | .map a, .map b => a.length = b.length && samePairs a b
  | .tagged t a, .tagged u b => t = u && same a b
  | _, _ => false

/-- Whether two lists hold the same values in order. -/
def sameItems : List Data → List Data → Bool
  | [], [] => true
  | x :: xs, y :: ys => same x y && sameItems xs ys
  | _, _ => false

/-- Whether every pair is among the others. -/
def samePairs : List (Data × Data) → List (Data × Data) → Bool
  | [], _ => true
  | (k, v) :: r, others => others.any (fun p => same k p.1 && same v p.2) && samePairs r others

end

/-- The text of a float: `.inf` and `.nan` for what is not finite. -/
def floatText : Binary64 → String
  | .finite negative m q => Binary64.signedText false negative m q
  | .infinite false => ".inf"
  | .infinite true => "-.inf"
  | .nan => ".nan"

/-- The name that a key becomes in a JSON object. -/
def name? : Data → Option String
  | .bool b => some (toString b)
  | .int n => some (toString n)
  | .float (.finite negative m q) => some (Binary64.signedText true negative m q)
  | .str s => some s
  | _ => none

mutual

/-- The value in JSON, if every key can be a name there. -/
def toJson? : Data → Option Json
  | .null => some .null
  | .bool b => some (.bool b)
  | .int n => some (.ofInt n)
  | .float (.finite negative m q) => some (.number (Binary64.signedText true negative m q))
  | .float _ => some .null
  | .str s => some (.str s)
  | .seq items => (itemsToJson? items).map .arr
  | .map pairs => (pairsToJson? pairs).map .ofMembers
  | .tagged tag value => (toJson? value).map fun v => .obj [("!" ++ tag, v)]

/-- The values of a list in JSON. -/
def itemsToJson? : List Data → Option (List Json)
  | [] => some []
  | x :: r => do return (← toJson? x) :: (← itemsToJson? r)

/-- The pairs of a mapping as members of an object. -/
def pairsToJson? : List (Data × Data) → Option (List (String × Json))
  | [] => some []
  | (k, v) :: r => do return (← name? k, ← toJson? v) :: (← pairsToJson? r)

end

end Data

/-- The collections that may be open around a value. -/
def maxDepth : Nat := 128

/-- A step of decoding a document: it may fail, and counts the aliases followed. -/
abbrev Decoder := StateT Nat Option

namespace Document

/-- The node itself, or the one that an alias stands for. For every scalar, alias or end of a
collection a hundred aliases may be followed. -/
def follow (d : Document) (n : Node) : Decoder Node :=
  match n with
  | .alias number => do
    modify (· + 1)
    if 100 * d.events < (← get) then failure
    match d.names.node? number with
    | some target => return target
    | none => failure
  | n => return n

/-- The tags with a meaning for scalars. -/
def knownTag (name : String) : String := "tag:yaml.org,2002:" ++ name

/-- The name of a tag of the document's own. -/
def ownTag? (tag : Option String) : Option String :=
  match tag.map String.toList with
  | some ['!'] => some "!"
  | some ('!' :: name) => some (String.ofList name)
  | _ => none

/-- The value of an integer; one that is recognised has to be held. -/
def integerData (n : Int) : Option Data := if isHeld n then some (.int n) else none

/-- The value of a plain scalar. -/
def plainData (text : String) : Option Data :=
  let cs := text.toList
  if text.isEmpty || isNull text then some .null
  else
    match bool? text with
    | some b => some (.bool b)
    | none =>
      match (integer? cs).filter isRecognised with
      | some n => integerData n
      | none =>
        match if isPadded cs then none else float? cs with
        | some x => some (.float x)
        | none => some (.str text)

/-- The value of a scalar. A tag that names a kind of scalar has to fit its text; with any other tag but
the document's own a scalar is its text. -/
def scalarData (tag : Option String) (text : String) (style : Style) : Option Data :=
  match tag with
  | none => if style = .plain then plainData text else some (.str text)
  | some tag =>
    if tag = knownTag "bool" then (bool? text).map .bool
    else if tag = knownTag "int" then
      ((integer? text.toList).filter isRecognised).bind integerData
    else if tag = knownTag "float" then (float? text.toList).map .float
    else if tag = knownTag "null" then if isNull text then some .null else none
    else some (.str text)

mutual

/-- The value of a node inside at most `depth` collections. The tag of the node has been used already
if `tagUsed`. -/
def data (d : Document) (fuel depth : Nat) (tagUsed : Bool) (n : Node) : Decoder Data :=
  match fuel with
  | 0 => failure
  | fuel + 1 =>
    let withTag (tag : Option String) (plain : Decoder Data) : Decoder Data :=
      match if tagUsed then none else ownTag? tag with
      | some name => do return .tagged name (← data d fuel depth true n)
      | none => plain
    match n with
    | .alias _ => do data d fuel depth false (← d.follow n)
    | .scalar tag text style =>
      withTag tag (StateT.lift (scalarData (if tagUsed then none else tag) text style))
    | .seq tag items =>
      withTag tag
        (match depth with
        | 0 => failure
        | depth + 1 => do return .seq (← itemsData d fuel depth items))
    | .map tag pairs =>
      withTag tag
        (match depth with
        | 0 => failure
        | depth + 1 => do return .map (← pairsData d fuel depth [] pairs))

/-- The values of the items of a sequence. -/
def itemsData (d : Document) (fuel depth : Nat) (items : List Node) : Decoder (List Data) :=
  match fuel with
  | 0 => failure
  | fuel + 1 =>
    match items with
    | [] => return []
    | n :: r => do return (← data d fuel depth false n) :: (← itemsData d fuel depth r)

/-- The pairs of a mapping behind those before; no key may come twice. -/
def pairsData (d : Document) (fuel depth : Nat) (done : List (Data × Data))
    (pairs : List (Node × Node)) : Decoder (List (Data × Data)) :=
  match fuel with
  | 0 => failure
  | fuel + 1 =>
    match pairs with
    | [] => return done.reverse
    | (k, v) :: r => do
      let key ← data d fuel depth false k
      if done.any (·.1.same key) then failure
      let value ← data d fuel depth false v
      pairsData d fuel depth ((key, value) :: done) r

end

/-- The value of a node inside at most `depth` collections. Along one way down there are at most as many
steps as items in each of the collections on it. -/
def dataOf (d : Document) (depth : Nat) (n : Node) : Decoder Data :=
  data d ((d.events + 4) * (depth + 1)) depth false n

/-- The text of a scalar. -/
def textOf (d : Document) (n : Node) : Decoder String := do
  match ← d.follow n with
  | .scalar _ text _ => return text
  | _ => failure

/-- The text of a scalar that is written plainly, or literally with the given tag. -/
def bareText (d : Document) (tagName : String) (n : Node) : Decoder String := do
  match ← d.follow n with
  | .scalar tag text style =>
    if style = .plain || (style = .literal && tag = some (knownTag tagName)) then return text
    else failure
  | _ => failure

/-- The truth value of a node. -/
def boolOf (d : Document) (n : Node) : Decoder Bool := do
  StateT.lift (bool? (← d.bareText "bool" n))

/-- The natural number below `bound` of a node. -/
def natBelow (d : Document) (bound : Nat) (n : Node) : Decoder Nat := do
  let number ← StateT.lift (natural? (← d.bareText "int" n).toList)
  if number < bound then return number else failure

/-- Nothing for a null, and the value of any other node. -/
def optionOf {α : Type} (d : Document) (value : Node → Decoder α) (n : Node) :
    Decoder (Option α) := do
  let n ← d.follow n
  match n with
  | .scalar tag text style =>
    let isAbsent : Option Bool :=
      if tag = some (knownTag "null") && (style = .plain || style = .literal) then
        if isNull text then some true else none
      else some (style = .plain && tag.isNone && (text.isEmpty || isNull text))
    match isAbsent with
    | some true => return none
    | some false => return some (← value n)
    | none => failure
  | n => return some (← value n)

/-- Whether a node stands for an empty collection though it is a scalar. -/
def isBareNode : Node → Bool
  | .scalar _ text style => text.isEmpty && style = .plain
  | _ => false

/-- The items of a sequence. -/
def itemsOf (d : Document) (n : Node) : Decoder (List Node) := do
  match ← d.follow n with
  | .seq _ items => return items
  | n => if isBareNode n then return [] else failure

/-- The pairs of a mapping, their keys as texts. -/
def entriesOf (d : Document) (n : Node) : Decoder (List (String × Node)) := do
  match ← d.follow n with
  | .map _ pairs => pairs.mapM fun (k, v) => do return (← d.textOf k, v)
  | n => if isBareNode n then return [] else failure

/-- What a node holds for each of the names: by name in a mapping, in which no name may come twice, and
in the order of the names in a sequence, which has to hold at least `least` of them and no more. -/
def fieldsOf (d : Document) (names : List String) (least : Nat) (n : Node) :
    Decoder (List (Option Node)) := do
  match ← d.follow n with
  | .seq _ items =>
    if items.length < least || names.length < items.length then failure
    return names.mapIdx fun i _ => items[i]?
  | n =>
    let entries ← d.entriesOf n
    names.mapM fun name => do
      match entries.filter (·.1 = name) with
      | [] => return none
      | [(_, v)] => return some v
      | _ => failure

end Document

end Conformance.Yaml
