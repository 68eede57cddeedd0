import Conformance.Regex.Node

/-!
# Reading patterns

A pattern text is read into a tree, or refused. Look-around and back references are refused, and so
is anything nested too deeply. The flags that can be set inside a pattern hold from where they are
set to the end of the group.
-/
namespace Conformance.Regex

open Text

/-- The settings that a pattern can change. -/
structure Flags where
  /-- Letters match in either case. -/
  caseless : Bool := false
  /-- `^` and `$` match at every line. -/
  multiLine : Bool := false
  /-- `.` matches a newline too. -/
  dotAll : Bool := false
  /-- Repetitions are lazy unless marked. -/
  swapGreed : Bool := false
  /-- Classes hold characters beyond ASCII. -/
  unicode : Bool := true
  /-- A carriage return is a newline too. -/
  crlf : Bool := false
  /-- Blanks and comments in the pattern do not count. -/
  ignoreBlanks : Bool := false
  deriving DecidableEq, Repr, Inhabited

/-- Where reading a pattern stands. -/
structure State where
  rest : List Char
  flags : Flags := {}
  /-- How many groups have been opened. -/
  groupCount : Nat := 0
  /-- The names of groups with their indices. -/
  names : List (String × Nat) := []
  deriving Inhabited

/-- Reads a piece of a pattern, or refuses it. -/
abbrev Reader := StateT State Option

/-- A piece of a pattern and how deep it is nested. -/
structure Piece where
  node : Node
  depth : Nat
  /-- Whether the piece only sets flags. -/
  isFlags : Bool := false
  deriving Inhabited

/-- The greatest depth of nesting. -/
def maxNesting : Nat := 250

/-- The greatest weight of a pattern. -/
def maxWeight : Nat := 10 * Nat.pow 2 20

/-- The text behind blanks and comments; `inComment` tells whether a comment is open. -/
def skipBlanks (inComment : Bool) : List Char → List Char
  | [] => []
  | c :: r =>
    if inComment then skipBlanks (c ≠ '\n') r
    else if isWhite c then skipBlanks false r
    else if c = '#' then skipBlanks true r
    else c :: r

namespace Reader

/-- Refuses the pattern. -/
def refuse {α : Type} : Reader α := fun _ => none

/-- Passes over blanks and comments where they do not count. -/
def blanks : Reader Unit := modify fun s =>
  if s.flags.ignoreBlanks then { s with rest := skipBlanks false s.rest } else s

/-- The next character, which is not taken. -/
def peek? : Reader (Option Char) := return (← get).rest.head?

/-- Takes the next character, which has to be there. -/
def next : Reader Char := do
  match (← get).rest with
  | c :: r => modify ({ · with rest := r }); return c
  | [] => refuse

/-- Takes the next character and the blanks behind it. -/
def nextThenBlanks : Reader Char := do
  let c ← next
  blanks
  return c

/-- Goes on with `found` behind what `split?` takes off the text, or with `other` if it takes nothing. -/
def takeOr {α β : Type} (split? : List Char → Option (β × List Char)) (found : β → Reader α)
    (other : Reader α) : Reader α := do
  match split? (← get).rest with
  | some (b, rest) => modify ({ · with rest := rest }); found b
  | none => other

/-- Takes `text` if it comes next. -/
def take (text : String) : Reader Bool := do
  match dropPrefix? text.toList (← get).rest with
  | some r => modify ({ · with rest := r }); return true
  | none => return false

/-- Takes the first of the texts that comes next, if one does. -/
def takeOne : List String → Reader Bool
  | [] => return false
  | text :: texts => do if ← take text then return true else takeOne texts

/-- Refuses the pattern if one of the texts comes next. -/
def refuseAt (marks : List String) : Reader Unit := do
  let rest := (← get).rest
  if marks.any fun mark => (dropPrefix? mark.toList rest).isSome then refuse

end Reader

open Reader

/-- The longest run of characters that satisfy `p`, taken with the blanks between them. -/
def takeRun (p : Char → Bool) : Nat → Reader (List Char)
  | 0 => return []
  | fuel + 1 => do
    match ← peek? with
    | some c =>
      if p c then
        let _ ← nextThenBlanks
        return c :: (← takeRun p fuel)
      else return []
    | none => return []

/-- The characters up to the brace that closes a name, with blanks where they count. -/
def takeBraced : Nat → Reader (List Char)
  | 0 => refuse
  | fuel + 1 => do
    let _ ← nextThenBlanks
    match ← peek? with
    | none => refuse
    | some '\x7d' => return []
    | some c => return c :: (← takeBraced fuel)

/-- Whether a character stands for itself only behind a backslash. -/
def isMeta (c : Char) : Bool :=
  "\\.+*?()|[]\x7b\x7d^$#&-~".toList.contains c

/-- Whether a backslash in front of the character may be written without need. -/
def isEscapable (c : Char) : Bool :=
  c.toNat < 0x80 && !c.isAlphanum && c ≠ '<' && c ≠ '>'

/-- What an escape or a single character of a pattern stands for. -/
inductive Primitive where
  /-- The character; a byte is a character given by two hexadecimal digits. -/
  | literal (c : Char) (isByte : Bool)
  | dot
  | look (l : Look)
  | set (s : CharSet)
  deriving Inhabited

/-- The character with the code point that hexadecimal digits write. -/
def charOfHex? (digits : List Char) : Option Char := do
  let n ← natIn? 16 digits
  if n < 0xD800 ∨ (0xDFFF < n ∧ n < 0x110000) then some (Char.ofNat n) else none

/-- The code point behind `\x`, `\u` or `\U`, which is the next character. -/
def hexEscape : Reader Primitive := do
  let kind ← nextThenBlanks
  match ← peek? with
  | none => refuse
  | some '\x7b' =>
    let digits ← takeBraced ((← get).rest.length + 1)
    let _ ← nextThenBlanks
    match charOfHex? digits with
    | some c => return .literal c false
    | none => refuse
  | some _ =>
    let count := if kind = 'x' then 2 else if kind = 'u' then 4 else 8
    let digits ← (List.replicate count ()).mapM fun _ => nextThenBlanks
    match charOfHex? digits with
    | some c => return .literal c (kind = 'x')
    | none => refuse

/-- The set with the characters that differ in case only, where case does not count. -/
def foldedIf (f : Flags) (s : CharSet) : CharSet :=
  if f.caseless then .folded (!f.unicode) s else s

/-- The complement of the set, if `negated`. Without Unicode there is none. -/
def negatedIf (f : Flags) (negated : Bool) (s : CharSet) : Reader CharSet :=
  if negated then (if f.unicode then return .compl s else refuse) else return s

/-- A property behind `\p` or `\P`, which is the next character. -/
def propertyEscape : Reader Primitive := do
  let negated := (← nextThenBlanks) = 'P'
  let f := (← get).flags
  let (flip, property) ← match ← peek? with
    | none => refuse
    | some '\x7b' => do
      let name ← takeBraced ((← get).rest.length + 1)
      let _ ← next
      let of? (left right : List Char) : Option Property :=
        Property.ofNameAndValue? (String.ofList left) (String.ofList right)
      match breakOn? ['!', '='] name with
      | some (left, right) => pure (true, of? left right)
      | none =>
        match (breakAt? (· = ':') name).or (breakAt? (· = '=') name) with
        | some (left, right) => pure (false, of? left right)
        | none => pure (false, Property.ofName? (String.ofList name))
    | some '\\' => refuse
    | some c => do
      let _ ← nextThenBlanks
      pure (false, Property.ofName? (String.singleton c))
  match property with
  | some p =>
    if f.unicode then return .set (← negatedIf f (negated != flip) (foldedIf f (.property p)))
    else refuse
  | none => refuse

/-- The class behind `\d`, `\s`, `\w` and their complements, which is the next character. -/
def classEscape : Reader Primitive := do
  let c ← next
  let f := (← get).flags
  let base := match c.toLower with
    | 'd' => if f.unicode then .property .digit else CharSet.asciiDigit
    | 's' => if f.unicode then .property .white else CharSet.asciiSpace
    | _ => if f.unicode then .property .word else CharSet.asciiWord
  return .set (← negatedIf f c.isUpper base)

/-- Whether the character may stand in the name of a word boundary. -/
def isBoundaryChar (c : Char) : Bool := c.isAlpha || c = '-'

/-- The word boundary whose name comes next, up to and with the closing brace. -/
def namedBoundary (ascii : Bool) : Reader Look := do
  let name ← takeRun isBoundaryChar ((← get).rest.length + 1)
  if (← peek?) ≠ some '\x7d' then refuse
  let _ ← next
  match String.ofList name with
  | "start" => return .wordStart ascii
  | "end" => return .wordEnd ascii
  | "start-half" => return .wordStartHalf ascii
  | "end-half" => return .wordEndHalf ascii
  | _ => refuse

/-- The special word boundary in braces that come next, if they hold one. -/
def wordBoundary (ascii : Bool) : Reader Look := do
  let before ← get
  if (← peek?) ≠ some '\x7b' then return .wordEdge ascii false
  let _ ← nextThenBlanks
  if (← peek?).any isBoundaryChar then namedBoundary ascii
  else
    set before
    return .wordEdge ascii false

/-- What an escape stands for; its backslash has been taken. -/
def escape : Reader Primitive := do
  let ascii := !(← get).flags.unicode
  match ← peek? with
  | none => refuse
  | some c =>
    if c.isDigit then refuse
    else if c = 'x' || c = 'u' || c = 'U' then hexEscape
    else if c = 'p' || c = 'P' then propertyEscape
    else if "dswDSW".toList.contains c then classEscape
    else do
      let _ ← next
      if isMeta c || isEscapable c then return .literal c false
      match c with
      | 'a' => return .literal '\x07' false
      | 'f' => return .literal '\x0c' false
      | 't' => return .literal '\t' false
      | 'n' => return .literal '\n' false
      | 'r' => return .literal '\r' false
      | 'v' => return .literal '\x0b' false
      | 'A' => return .look .start
      | 'z' => return .look .finish
      | 'b' => return .look (← wordBoundary ascii)
      | 'B' => return .look (.wordEdge ascii true)
      | '<' => return .look (.wordStart ascii)
      | '>' => return .look (.wordEnd ascii)
      | _ => refuse

/-- The classes of ASCII that have a name in bracketed classes. -/
def asciiClasses : List (String × CharSet) :=
  [("alnum", .ofRanges [('0', '9'), ('A', 'Z'), ('a', 'z')]),
    ("alpha", .ofRanges [('A', 'Z'), ('a', 'z')]),
    ("ascii", .range 0 0x7F),
    ("blank", .ofRanges [('\t', '\t'), (' ', ' ')]),
    ("cntrl", .ofRanges [('\x00', '\x1f'), ('\x7f', '\x7f')]),
    ("digit", .ofRanges [('0', '9')]),
    ("graph", .ofRanges [('!', '~')]),
    ("lower", .ofRanges [('a', 'z')]),
    ("print", .ofRanges [(' ', '~')]),
    ("punct", .ofRanges [('!', '/'), (':', '@'), ('[', '\x60'), ('\x7b', '~')]),
    ("space", CharSet.asciiSpace),
    ("upper", .ofRanges [('A', 'Z')]),
    ("word", CharSet.asciiWord),
    ("xdigit", .ofRanges [('0', '9'), ('A', 'F'), ('a', 'f')])]

/-- The class of ASCII that has the name, and whether a sign in front of the name negates it. -/
def namedClass? : List Char → Option (Bool × CharSet)
  | '^' :: name => (asciiClasses.lookup (String.ofList name)).map (true, ·)
  | name => (asciiClasses.lookup (String.ofList name)).map (false, ·)

/-- A named class of ASCII at the start of a text that begins with a bracket, and the text behind it. -/
def asciiClass? (cs : List Char) : Option ((Bool × CharSet) × List Char) := do
  let r ← dropPrefix? ['[', ':'] cs
  let (name, r) ← breakAt? (· = ':') r
  let r ← dropPrefix? [']'] r
  return (← namedClass? name, r)

/-- How two classes are combined. -/
inductive SetOp where
  | inter | diff | exclusive
  deriving DecidableEq, Repr, Inhabited

/-- The set that the operation makes. -/
def SetOp.apply : SetOp → CharSet → CharSet → CharSet
  | inter, a, b => .inter a b
  | diff, a, b => .diff a b
  | exclusive, a, b => .exclusive a b

/-- A class being read: its items so far, and the depth of the deepest of them. -/
structure Union where
  items : List CharSet := []
  depth : Nat := 0
  deriving Inhabited

namespace Union

/-- The class with one more item. -/
def push (u : Union) (s : CharSet) (depth : Nat) : Union := ⟨s :: u.items, Nat.max depth u.depth⟩

/-- The set of all items. -/
def set (u : Union) : CharSet :=
  match u.items.reverse with
  | [] => CharSet.nothing
  | s :: r => r.foldl .union s

/-- How deep the class is nested; more than one item make one more level. -/
def nesting (u : Union) : Nat := if u.items.length ≤ 1 then u.depth else u.depth + 1

end Union

/-- One item of a class, or one end of a range: an escape or a character. -/
def classPrimitive : Reader Primitive := do
  let c ← next
  if c = '\\' then escape else return .literal c false

/-- The code point of a primitive that is a single character. -/
def classLiteral (f : Flags) : Primitive → Reader Nat
  | .literal c _ => if f.unicode || c.toNat < 0x80 then return c.toNat else refuse
  | _ => refuse

/-- The next character and the one behind it that is no blank, where blanks do not count. -/
def peekSpace? : Reader (Option Char) := do
  let s ← get
  let r := s.rest.tail
  return (if s.flags.ignoreBlanks then skipBlanks false r else r).head?

/-- A range, a character or an escape inside a class. -/
def classItem : Reader CharSet := do
  let f := (← get).flags
  let first ← classPrimitive
  blanks
  match ← peek? with
  | none => refuse
  | some c =>
    let after ← peekSpace?
    if c ≠ '-' || after = some ']' || after = some '-' then
      match first with
      | .set s => return s
      | first => do
        let n ← classLiteral f first
        return .range n n
    let _ ← nextThenBlanks
    let last ← classPrimitive
    match first, last with
    | .literal a _, .literal b _ =>
      let lo ← classLiteral f (.literal a false)
      let hi ← classLiteral f (.literal b false)
      if lo ≤ hi then return .range lo hi else refuse
    | _, _ => refuse

/-- The leading hyphens of a class, each an item. -/
def leadingHyphens : Nat → Union → Reader Union
  | 0, u => return u
  | fuel + 1, u => do
    if (← peek?) = some '-' then
      let _ ← nextThenBlanks
      leadingHyphens fuel (u.push (.single '-') 0)
    else return u

/-- The operation that has the sign. -/
def SetOp.ofSign? : Char → Option SetOp
  | '&' => some inter
  | '-' => some diff
  | '~' => some exclusive
  | _ => none

/-- The operation whose sign, written twice, comes next, and the text behind it. -/
def setOp? : List Char → Option (SetOp × List Char)
  | c :: d :: r => if c = d then (SetOp.ofSign? c).map (·, r) else none
  | _ => none

/-- The operand of an operation that is still open. -/
structure Pending where
  op : SetOp
  left : CharSet
  depth : Nat

/-- The items combined with the operation that is still open. -/
def combined (f : Flags) (pending : Option Pending) (u : Union) : CharSet × Nat :=
  match pending with
  | none => (u.set, u.nesting)
  | some p =>
    (p.op.apply (foldedIf f p.left) (foldedIf f u.set), Nat.max p.depth u.nesting + 1)

/-- The opening bracket of a class with what may only stand behind it: whether the class is negated, and
the leading hyphens, or a closing bracket that stands for itself. -/
def classOpening : Reader (Bool × Union) := do
  let _ ← nextThenBlanks
  let negated : Bool := (← peek?) = some '^'
  if negated then
    let _ ← nextThenBlanks
  let u ← leadingHyphens ((← get).rest.length + 1) {}
  if u.items.isEmpty && (← peek?) = some ']' then
    let _ ← nextThenBlanks
    return (negated, u.push (.single ']') 0)
  return (negated, u)

mutual

/-- A class; its opening bracket comes next. Gives the set and the depth of nesting. -/
def bracketClass (fuel : Nat) : Reader (CharSet × Nat) :=
  match fuel with
  | 0 => refuse
  | fuel + 1 => do
    let (negated, u) ← classOpening
    let f := (← get).flags
    let (s, depth) ← classBody fuel none u
    return (← negatedIf f negated (foldedIf f s), depth + 1)

/-- The items of a class up to and with its closing bracket. -/
def classBody (fuel : Nat) (pending : Option Pending) (u : Union) : Reader (CharSet × Nat) :=
  match fuel with
  | 0 => refuse
  | fuel + 1 => do
    blanks
    let f := (← get).flags
    match ← peek? with
    | none => refuse
    | some ']' =>
      let _ ← next
      return combined f pending u
    | some '[' =>
      takeOr asciiClass?
        (fun (negated, named) => do
          let named ← negatedIf f negated (foldedIf f named)
          classBody fuel pending (u.push named 0))
        (do
          let (nested, depth) ← bracketClass fuel
          classBody fuel pending (u.push nested depth))
    | some _ =>
      takeOr setOp?
        (fun op =>
          let (left, depth) := combined f pending u
          classBody fuel (some ⟨op, left, depth⟩) {})
        (do
          let item ← classItem
          classBody fuel pending (u.push item 0))

end

/-- The pattern of one character. -/
def literalNode (f : Flags) (c : Char) : Node :=
  if f.caseless && (f.unicode || c.toNat < 0x80) then .set (.folded (!f.unicode) (.single c))
  else .set (.single c)

/-- The pattern of a primitive. -/
def primitiveNode (f : Flags) : Primitive → Reader Node
  | .literal c isByte =>
    if isByte && !f.unicode && 0x80 ≤ c.toNat then refuse else return literalNode f c
  | .look l => return .look l
  | .set s => return .set s
  | .dot =>
    if !f.unicode then refuse
    else if f.dotAll then return .set .all
    else if f.crlf then return .set (.compl (.union (.single '\n') (.single '\r')))
    else return .set (.compl (.single '\n'))

/-- A character, or an escape, outside classes. -/
def primitive : Reader Node := do
  let c ← next
  let f := (← get).flags
  match c with
  | '\\' => do primitiveNode f (← escape)
  | '.' => primitiveNode f .dot
  | '^' => return .look (if f.multiLine then .lineStart f.crlf else .start)
  | '$' => return .look (if f.multiLine then .lineEnd f.crlf else .finish)
  | c => primitiveNode f (.literal c false)

/-- The flag that a letter sets. -/
def Flags.set? (f : Flags) (letter : Char) (on : Bool) : Option Flags :=
  match letter with
  | 'i' => some { f with caseless := on }
  | 'm' => some { f with multiLine := on }
  | 's' => some { f with dotAll := on }
  | 'U' => some { f with swapGreed := on }
  | 'u' => some { f with unicode := on }
  | 'R' => some { f with crlf := on }
  | 'x' => some { f with ignoreBlanks := on }
  | _ => none

/-- The flags set by letters up to a colon or a parenthesis. Each letter may stand once, and one
hyphen, with a letter behind it, switches from setting to clearing. -/
def flagLetters (fuel : Nat) (seen : List Char) (f : Flags) : Reader Flags :=
  match fuel with
  | 0 => refuse
  | fuel + 1 => do
    match ← peek? with
    | none => refuse
    | some c =>
      if c = ':' || c = ')' then
        if seen.head? = some '-' then refuse else return f
      else if seen.contains c then refuse
      else
        let _ ← next
        if c = '-' then flagLetters fuel (c :: seen) f
        else
          match f.set? c (!seen.contains '-') with
          | some f => flagLetters fuel (c :: seen) f
          | none => refuse

/-- Whether the character may stand in the name of a group. -/
def isGroupNameChar (isFirst : Bool) (c : Char) : Bool :=
  c = '_' || if isFirst then isAlphabetic c
    else c = '.' || c = '[' || c = ']' || isAlphanumeric c

/-- The name of a group at the start of the text, and the text behind the closing angle bracket. -/
def groupName? (cs : List Char) : Option (String × List Char) :=
  match breakAt? (· = '>') cs with
  | some (c :: name, rest) =>
    if isGroupNameChar true c && name.all (isGroupNameChar false) then
      some (String.ofList (c :: name), rest)
    else none
  | _ => none

/-- The name of a group up to and with the closing angle bracket. -/
def groupName : Reader String := takeOr groupName? pure refuse

/-- Opens a group that remembers its match, under a name if there is one. -/
def openGroup (name : Option String) : Reader Nat := do
  let index := (← get).groupCount + 1
  match name with
  | none =>
    modify ({ · with groupCount := index })
    return index
  | some name =>
    if ((← get).names.lookup name).isSome then refuse
    modify fun s => { s with groupCount := index, names := s.names ++ [(name, index)] }
    return index

/-- A number in decimal, with blanks around it. -/
def decimal? : Reader (Option Nat) := do
  modify fun s => { s with rest := s.rest.dropWhile isWhite }
  let digits ← takeRun Char.isDigit ((← get).rest.length + 1)
  let _ ← takeRun isWhite ((← get).rest.length + 1)
  match digits with
  | [] => return none
  | digits =>
    match (nat? digits).filter (· < UInt32.size) with
    | some n => return some n
    | none => refuse

/-- The bounds of a counted repetition; its opening brace comes next. -/
def bounds : Reader (Nat × Option Nat) := do
  let _ ← nextThenBlanks
  let first ← decimal?
  match ← peek?, first with
  | some ',', some first =>
    let _ ← nextThenBlanks
    if (← peek?) = some '\x7d' then return (first, none)
    match ← decimal? with
    | some last => if first ≤ last then return (first, some last) else refuse
    | none => refuse
  | _, some first => return (first, some first)
  | _, none => refuse

/-- Whether a question mark comes next, which is taken. -/
def questionMark : Reader Bool := take "?"

/-- The repetition whose sign comes next, applied to `p`. -/
def repetition (p : Piece) : Reader Piece := do
  if p.isFlags then refuse
  let (min, max) ← match ← peek? with
    | some '?' => do let _ ← next; pure (0, some 1)
    | some '*' => do let _ ← next; pure (0, none)
    | some '+' => do let _ ← next; pure (1, none)
    | _ => do
      let b ← bounds
      if (← peek?) ≠ some '\x7d' then refuse
      let _ ← nextThenBlanks
      pure b
  let lazyMark ← questionMark
  let f := (← get).flags
  return { node := .repeat min max (lazyMark == f.swapGreed) p.node, depth := p.depth + 1 }

/-- Pieces, last one first, as one. -/
def joined (pieces : List Piece) : Piece :=
  match pieces with
  | [] => { node := .empty, depth := 0 }
  | [p] => { node := p.node, depth := p.depth }
  | last :: before =>
    { node := before.foldl (fun node p => .cat p.node node) last.node,
      depth := pieces.foldl (fun n p => Nat.max n p.depth) 0 + 1 }

mutual

/-- Alternatives up to the end of the group. -/
def alternatives (fuel : Nat) : Reader Piece :=
  match fuel with
  | 0 => refuse
  | fuel + 1 => do
    let first ← pieces fuel []
    if (← peek?) = some '|' then
      let _ ← next
      let rest ← moreAlternatives fuel
      return { node := .alt first.node rest.node, depth := Nat.max first.depth rest.depth + 1 }
    else return first

/-- The alternatives behind the first one; their depth is that of the deepest. -/
def moreAlternatives (fuel : Nat) : Reader Piece :=
  match fuel with
  | 0 => refuse
  | fuel + 1 => do
    let first ← pieces fuel []
    if (← peek?) = some '|' then
      let _ ← next
      let rest ← moreAlternatives fuel
      return { node := .alt first.node rest.node, depth := Nat.max first.depth rest.depth }
    else return first

/-- Pieces up to the next alternative or the end of the group; `before` holds those already read. -/
def pieces (fuel : Nat) (before : List Piece) : Reader Piece :=
  match fuel with
  | 0 => refuse
  | fuel + 1 => do
    blanks
    match ← peek? with
    | none => return joined before
    | some c =>
      if c = ')' || c = '|' then return joined before
      else if c = '(' then
        let p ← group fuel
        pieces fuel (p :: before)
      else if c = '[' then
        let (s, depth) ← bracketClass (2 * (← get).rest.length + 2)
        pieces fuel ({ node := .set s, depth } :: before)
      else if c = '?' || c = '*' || c = '+' || c = '\x7b' then
        match before with
        | [] => refuse
        | p :: before => do
          let p ← repetition p
          pieces fuel (p :: before)
      else
        let node ← primitive
        pieces fuel ({ node, depth := 0 } :: before)

/-- A group, or flags in parentheses; the opening parenthesis comes next. -/
def group (fuel : Nat) : Reader Piece :=
  match fuel with
  | 0 => refuse
  | fuel + 1 => do
    let _ ← nextThenBlanks
    let outer := (← get).flags
    -- Look-around is not supported, and flags without a letter are a repetition of nothing.
    refuseAt ["?=", "?!", "?<=", "?<!", "?)"]
    if ← takeOne ["?P<", "?<"] then
      let index ← openGroup (some (← groupName))
      groupBody fuel outer (some index)
    else if ← take "?" then
      let flags ← flagLetters ((← get).rest.length + 1) [] outer
      modify ({ · with flags := flags })
      if (← next) = ')' then
        return { node := .empty, depth := 0, isFlags := true }
      groupBody fuel outer none
    else
      let index ← openGroup none
      groupBody fuel outer (some index)

/-- The inside of a group up to and with its closing parenthesis, where the flags of the outside hold
again. -/
def groupBody (fuel : Nat) (outer : Flags) (index : Option Nat) : Reader Piece :=
  match fuel with
  | 0 => refuse
  | fuel + 1 => do
    let p ← alternatives fuel
    if (← peek?) ≠ some ')' then refuse
    let _ ← next
    modify ({ · with flags := outer })
    match index with
    | some index => return { node := .group index p.node, depth := p.depth + 1 }
    | none => return { node := p.node, depth := p.depth + 1 }

end

/-- A pattern ready to be matched: the tree, and the names of its groups. -/
structure Pattern where
  node : Node
  names : List (String × Nat)
  deriving Inhabited

/-- The pattern that a text writes. -/
def Pattern.read? (text : String) : Option Pattern := do
  let cs := text.toList
  let (p, s) ← (alternatives (5 * cs.length + 5)).run { rest := cs }
  if s.rest.isEmpty && p.depth ≤ maxNesting && p.node.weight ≤ maxWeight then
    some ⟨p.node, s.names⟩
  else none

end Conformance.Regex
