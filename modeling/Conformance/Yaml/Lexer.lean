import Conformance.Yaml.Text

/-!
# The tokens of a YAML text

Whether a text before a colon is a key shows only at the colon. So a place where a key may start is kept in
mind, and when the colon comes, the key's token is put there afterwards. A mapping or a sequence
by indentation opens with its first entry and closes where a line starts further left.
-/
namespace Conformance.Yaml

open Conformance.Text

/-- A place where a key may have started. -/
structure KeyStart where
  mark : Mark
  /-- The number of tokens before it. -/
  token : Nat
  /-- Whether what starts there can only be a key. -/
  required : Bool
  deriving Repr, Inhabited

/-- A text being split into tokens. -/
structure Lexer where
  cursor : Cursor
  tokens : Array Token := #[]
  /-- The column of the innermost collection by indentation, `-1` outside of all. -/
  indent : Int := -1
  /-- The columns of the collections around it. -/
  outer : List Int := []
  /-- For every open bracket, the innermost first, and for the text outside of all of them, where a
  key may have started. -/
  keys : List (Option KeyStart) := [none]
  /-- Whether a key may start here. -/
  keyAllowed : Bool := true
  deriving Repr, Inhabited

namespace Lexer

/-- Whether a bracket is open. -/
def inFlow (l : Lexer) : Bool := 1 < l.keys.length

/-- The column of the cursor. -/
def column (l : Lexer) : Nat := l.cursor.mark.column

/-- The lexer with a token added. -/
def push (l : Lexer) (t : Token) : Lexer := { l with tokens := l.tokens.push t }

/-- The lexer with a token put in front of the token at `n`. -/
def insert (l : Lexer) (n : Nat) (t : Token) : Lexer :=
  { l with tokens := (l.tokens.toList.take n ++ t :: l.tokens.toList.drop n).toArray }

/-- The lexer behind the next `n` characters. -/
def skip (l : Lexer) (n : Nat) : Lexer := { l with cursor := l.cursor.skip n }

/-- Forgets where a key may have started on the innermost level, if none had to. -/
def dropKey? (l : Lexer) : Option Lexer :=
  match l.keys with
  | some k :: r => if k.required then none else some { l with keys := none :: r }
  | _ => some l

/-- Keeps in mind that a key may start here. -/
def saveKey? (l : Lexer) : Option Lexer :=
  if l.keyAllowed then do
    let l ← l.dropKey?
    let start : KeyStart :=
      { mark := l.cursor.mark, token := l.tokens.size,
        required := !l.inFlow && l.indent = (l.column : Int) }
    return { l with keys := some start :: l.keys.tail }
  else some l

/-- Forgets the keys that may have started on an earlier line or more than 1024 characters back. -/
def dropStale? (l : Lexer) : Option Lexer := do
  let keys ← l.keys.mapM fun key =>
    match key with
    | none => some none
    | some k =>
      if k.mark.line < l.cursor.mark.line || k.mark.index + 1024 < l.cursor.mark.index then
        if k.required then none else some none
      else some (some k)
  return { l with keys }

/-- Opens a collection by indentation at a column further right than the innermost one. Its token comes
in front of the token at `n`, or last. -/
def openAt (l : Lexer) (column : Nat) (n : Option Nat) (t : Token) : Lexer :=
  if l.inFlow || (column : Int) ≤ l.indent then l
  else
    let l := { l with outer := l.indent :: l.outer, indent := column }
    match n with
    | some n => l.insert n t
    | none => l.push t

/-- Closes the collections by indentation that are further right than the column. -/
def closeTo (l : Lexer) (column : Int) : Lexer :=
  if l.inFlow then l
  else
    let (tokens, indent, outer) := go l.tokens l.indent l.outer
    { l with tokens, indent, outer }
where
  /-- The columns are closed one by one. -/
  go (tokens : Array Token) (indent : Int) : List Int → Array Token × Int × List Int
    | [] => (tokens, indent, [])
    | o :: outer =>
      if column < indent then go (tokens.push .blockEnd) o outer else (tokens, indent, o :: outer)

/-- The lexer in front of the next token: behind blanks, comments and line ends. A tab may not stand
where a key may start, except between brackets. -/
def skipLayout (fuel : Nat) (l : Lexer) : Lexer :=
  match fuel with
  | 0 => l
  | fuel + 1 =>
    let isGap (c : Char) : Bool := c = ' ' || ((l.inFlow || !l.keyAllowed) && c = '\t')
    let c := l.cursor.skipWhile isGap
    let c := if c.rest.head? = some '#' then c.skipWhile (fun d => !isBreak d) else c
    if c.rest.head?.any isBreak then
      skipLayout fuel { l with cursor := c.skipBreak, keyAllowed := l.keyAllowed || !l.inFlow }
    else { l with cursor := c }

/-! ## Directives, anchors and tags -/

/-- The number at a cursor, of at most nine digits. -/
def number? (c : Cursor) : Option (Nat × Cursor) := do
  let digits := c.rest.takeWhile Char.isDigit
  if 9 < digits.length then none
  return (← nat? digits, c.skip digits.length)

/-- Characters of a tag; the last three only between angle brackets. -/
def isTagChar (verbatim : Bool) (c : Char) : Bool :=
  isNameChar c || ";/?:@&=+$.%!~*()".toList.contains c || c = '\x27' ||
    (verbatim && (c = ',' || c = '[' || c = ']'))

/-- The value of an octet written as a percent sign and two digits, and the text behind it. -/
def octet? : List Char → Option (UInt8 × List Char)
  | '%' :: a :: b :: r => (natIn? 16 [a, b]).map fun n => (UInt8.ofNat n, r)
  | _ => none

/-- The octets written at the start of a text, at least one and at most `n`. -/
def octets (n : Nat) (cs : List Char) : List UInt8 :=
  match n with
  | 0 => []
  | n + 1 =>
    match octet? cs with
    | some (b, r) => b :: octets n r
    | none => []

/-- How many octets encode a character that starts with this one. -/
def encodedLength? (first : UInt8) : Option Nat :=
  if first < 0x80 then some 1
  else if first &&& 0xE0 = 0xC0 then some 2
  else if first &&& 0xF0 = 0xE0 then some 3
  else if first &&& 0xF8 = 0xF0 then some 4
  else none

/-- The characters of a tag at a cursor, with octets decoded, and the cursor behind them. -/
def tagText? (fuel : Nat) (verbatim : Bool) (c : Cursor) : Option (List Char × Cursor) :=
  match fuel with
  | 0 => none
  | fuel + 1 =>
    match c.rest with
    | '%' :: _ => do
      let (first, _) ← octet? c.rest
      let n ← encodedLength? first
      let s ← String.fromUTF8? ⟨(octets n c.rest).toArray⟩
      let (text, c) ← tagText? fuel verbatim (c.skip (3 * n))
      return (s.toList ++ text, c)
    | d :: _ =>
      if isTagChar verbatim d then
        (tagText? fuel verbatim (c.skip 1)).map fun (text, c) => (d :: text, c)
      else some ([], c)
    | [] => some ([], c)

/-- The characters of a tag at a cursor, and the cursor behind them. -/
def tagPart? (verbatim : Bool) (c : Cursor) : Option (String × Cursor) :=
  (tagText? (c.rest.length + 1) verbatim c).map fun (text, c) => (String.ofList text, c)

/-- The handle at a cursor, which starts and, unless it is a lone mark or the beginning of a tag, ends
with an exclamation mark; and the cursor behind it. -/
def handle? (c : Cursor) : Option (String × Cursor) :=
  match c.rest with
  | '!' :: _ =>
    let (name, c) := (c.skip 1).name
    if c.rest.head? = some '!' then some ("!" ++ name ++ "!", c.skip 1)
    else some ("!" ++ name, c)
  | _ => none

/-- The tag at a cursor as a handle and what follows it, and the cursor behind it. -/
def tag? (flow : Bool) (c : Cursor) : Option (Token × Cursor) := do
  let (token, c) ←
    if c.rest[1]? = some '<' then do
      let (text, c) ← tagPart? true (c.skip 2)
      if text.isEmpty || c.rest.head? ≠ some '>' then none
      else some (Token.tag "" text, c.skip 1)
    else do
      let (handle, c) ← handle? c
      if 1 < handle.length && handle.toList.getLast? = some '!' then do
        let (text, c) ← tagPart? false c
        if text.isEmpty then none else some (Token.tag handle text, c)
      else do
        let (text, c) ← tagPart? false c
        let text := String.ofList (handle.toList.drop 1) ++ text
        some (if text.isEmpty then Token.tag "" "!" else Token.tag "!" text, c)
  if (flow && c.rest.head? = some ',') || c.layoutAt 0 then return (token, c) else none

/-- The anchor or alias behind its indicator, and the cursor behind it. -/
def anchor? (c : Cursor) : Option (String × Cursor) :=
  let (name, c) := c.name
  let follows (d : Char) : Bool := isLayout d || "?:,]\x7d%@".toList.contains d || d = '\x60'
  if name.isEmpty || !(c.rest.head?.all follows) then none else some (name, c)

/-- The directive behind its percent sign, and the cursor behind its line. -/
def directive? (c : Cursor) : Option (Token × Cursor) := do
  let (name, c) := c.name
  if !c.layoutAt 0 then none
  let c := c.skipWhile isBlank
  let (token, c) ←
    if name = "YAML" then do
      let (major, c) ← number? c
      if c.rest.head? ≠ some '.' then none
      let (minor, c) ← number? (c.skip 1)
      some (Token.version major minor, c)
    else if name = "TAG" then do
      let (handle, c) ← handle? c
      if handle.toList.getLast? ≠ some '!' then none
      if !(c.rest.head?.any isBlank) then none
      let (start, c) ← tagPart? true (c.skipWhile isBlank)
      if start.isEmpty || !c.layoutAt 0 then none
      some (Token.tagHandle handle start, c)
    else none
  let c := c.skipRemark
  if c.layoutAt 0 then return (token, c.skipBreak) else none

/-! ## One token -/

/-- Adds a token that is no part of a document's content. -/
def boundary? (l : Lexer) : Option Lexer := do
  return { ← (l.closeTo (-1)).dropKey? with keyAllowed := false }

/-- Adds the token of an opening bracket. -/
def openBracket? (l : Lexer) (t : Token) : Option Lexer := do
  let l ← l.saveKey?
  return { (l.skip 1).push t with keys := none :: l.keys, keyAllowed := true }

/-- Adds the token of a closing bracket. -/
def closeBracket? (l : Lexer) (t : Token) : Option Lexer := do
  let l ← l.dropKey?
  let keys := if l.inFlow then l.keys.tail else l.keys
  return { (l.skip 1).push t with keys, keyAllowed := false }

/-- Adds the token of an entry by indentation. -/
def blockEntry? (l : Lexer) : Option Lexer := do
  if !l.inFlow && !l.keyAllowed then none
  let l ← (l.openAt l.column none .blockSequenceStart).dropKey?
  return { (l.skip 1).push .blockEntry with keyAllowed := true }

/-- Adds the token of a key that is marked as such. -/
def explicitKey? (l : Lexer) : Option Lexer := do
  if !l.inFlow && !l.keyAllowed then none
  let l ← (l.openAt l.column none .blockMappingStart).dropKey?
  return { (l.skip 1).push .key with keyAllowed := !l.inFlow }

/-- Adds the token of a value, and the token of its key where that started. -/
def value? (l : Lexer) : Option Lexer :=
  match l.keys with
  | some k :: keys =>
    let l := (l.insert k.token .key).openAt k.mark.column (some k.token) .blockMappingStart
    some { (l.skip 1).push .value with keys := none :: keys, keyAllowed := false }
  | _ => do
    if !l.inFlow && !l.keyAllowed then none
    let l := l.openAt l.column none .blockMappingStart
    return { (l.skip 1).push .value with keyAllowed := !l.inFlow }

/-- Adds the token of a block scalar. -/
def blockScalar? (l : Lexer) (style : Style) : Option Lexer := do
  let l ← l.dropKey?
  let (text, cursor) ← blockText? (style = .literal) l.indent (l.cursor.skip 1)
  return { l.push (.scalar (String.ofList text) style) with cursor, keyAllowed := true }

/-- Adds the token of a quoted scalar. -/
def quotedScalar? (l : Lexer) (single : Bool) : Option Lexer := do
  let l ← l.saveKey?
  let (text, cursor) ← quotedText? (l.cursor.rest.length + 1) single [] (l.cursor.skip 1)
  return { l.push (.scalar (String.ofList text) .quoted) with cursor, keyAllowed := false }

/-- Adds the token of a plain scalar. -/
def plainScalar? (l : Lexer) : Option Lexer := do
  let l ← l.saveKey?
  let (text, ended, cursor) ←
    plainText? (l.cursor.rest.length + 1) l.inFlow (l.indent + 1) {} [] l.cursor
  return { l.push (.scalar (String.ofList text) .plain) with cursor, keyAllowed := ended }

/-- Adds the token of an anchor or an alias. -/
def anchorToken? (l : Lexer) (token : String → Token) : Option Lexer := do
  let l ← l.saveKey?
  let (name, cursor) ← anchor? (l.cursor.skip 1)
  return { l.push (token name) with cursor, keyAllowed := false }

/-- Adds the token of a tag. -/
def tagToken? (l : Lexer) : Option Lexer := do
  let l ← l.saveKey?
  let (token, cursor) ← tag? l.inFlow l.cursor
  return { l.push token with cursor, keyAllowed := false }

/-- Whether a plain scalar starts with this character, with layout behind it or not. -/
def startsPlain (flow : Bool) (c : Char) (blankBehind layoutBehind : Bool) : Bool :=
  !(isLayout c || "-?:,[]\x7b\x7d#&*!|>\"%@".toList.contains c || c = '\x27' || c = '\x60') ||
    (c = '-' && !blankBehind) || (!flow && (c = '?' || c = ':') && !layoutBehind)

/-- Adds the token at the cursor, which is in front of a character. -/
def token? (l : Lexer) : Option Lexer :=
  let c := l.cursor
  let flow := l.inFlow
  let layoutBehind := c.layoutAt 1
  match c.rest with
  | [] => none
  | d :: r =>
    if d = '%' && c.mark.column = 0 then do
      let l ← l.boundary?
      let (token, cursor) ← directive? (c.skip 1)
      return { l.push token with cursor }
    else if c.atIndicator '-' then do return ((← l.boundary?).skip 3).push .documentStart
    else if c.atIndicator '.' then do return ((← l.boundary?).skip 3).push .documentEnd
    else if d = '[' then l.openBracket? .flowSequenceStart
    else if d = '{' then l.openBracket? .flowMappingStart
    else if d = ']' then l.closeBracket? .flowSequenceEnd
    else if d = '}' then l.closeBracket? .flowMappingEnd
    else if d = ',' then do
      return { ((← l.dropKey?).skip 1).push .flowEntry with keyAllowed := true }
    else if d = '-' && layoutBehind then l.blockEntry?
    else if d = '?' && (flow || layoutBehind) then l.explicitKey?
    else if d = ':' && (flow || layoutBehind) then l.value?
    else if d = '*' then l.anchorToken? .alias
    else if d = '&' then l.anchorToken? .anchor
    else if d = '!' then l.tagToken?
    else if d = '|' && !flow then l.blockScalar? .literal
    else if d = '>' && !flow then l.blockScalar? .folded
    else if d = '\x27' then l.quotedScalar? true
    else if d = '"' then l.quotedScalar? false
    else if startsPlain flow d (r.head?.any isBlank) layoutBehind then l.plainScalar?
    else none

/-- All tokens from the cursor on. -/
def run? (fuel : Nat) (l : Lexer) : Option (List Token) :=
  match fuel with
  | 0 => none
  | fuel + 1 => do
    let l ← (l.skipLayout (l.cursor.rest.length + 1)).dropStale?
    let l := l.closeTo l.column
    if l.cursor.rest.isEmpty then
      let l ← (l.closeTo (-1)).dropKey?
      return l.tokens.toList
    else run? fuel (← l.token?)

end Lexer

/-- The tokens of a text. A byte order mark in front takes one column. -/
def tokens? (text : String) : Option (List Token) :=
  let cs := text.toList
  if cs.all isAllowed then
    let start : Cursor := { rest := cs }
    let start := if cs.head? = some '\ufeff' then start.skip 1 else start
    Lexer.run? (cs.length + 2) { cursor := start }
  else none

end Conformance.Yaml
