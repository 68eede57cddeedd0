import Conformance.Text.Decimal
import Conformance.Yaml.Token

/-!
# The texts of YAML scalars

A scalar may go over several lines. What stands between two of its words is folded: a single line end
becomes a space, and of several the first is dropped. Block scalars keep their lines or fold them, and
say what becomes of the line ends behind them.
-/
namespace Conformance.Yaml

open Conformance.Text

/-- What stands between two words of a scalar. -/
structure Gap where
  /-- The blanks, as long as no line has ended. -/
  blanks : List Char := []
  /-- The first line end. -/
  first : List Char := []
  /-- The further line ends. -/
  further : List Char := []
  /-- Whether a line has ended. -/
  ended : Bool := false
  deriving Repr, Inhabited

namespace Gap

/-- The gap with a line end added. -/
def add (g : Gap) (b : Char) : Gap :=
  if g.ended then { g with further := g.further ++ [b] }
  else { g with blanks := [], first := [b], ended := true }

/-- What the gap contributes to the scalar. -/
def folded (g : Gap) : List Char :=
  if !g.ended then g.blanks
  else if g.first = ['\n'] then if g.further.isEmpty then [' '] else g.further
  else g.first ++ g.further

/-- The gap at a cursor, and the cursor behind it. A tab on a further line before the column `least`
would hide the indentation, and is refused. -/
def scan (least : Int) (g : Gap) (m : Mark) : List Char → Option (Gap × Cursor)
  | [] => some (g, ⟨m, []⟩)
  | '\r' :: '\n' :: r => scan least (g.add '\n') (m.newline 2) r
  | c :: r =>
    if isBlank c then
      if g.ended && c = '\t' && (m.column : Int) < least then none
      else scan least (if g.ended then g else { g with blanks := g.blanks ++ [c] }) (m.forward 1) r
    else if isBreak c then scan least (g.add (breakText c)) (m.newline 1) r
    else some (g, ⟨m, c :: r⟩)

end Gap

/-! ## Plain scalars -/

/-- Indicators that end a plain scalar between brackets. -/
def isFlowIndicator (c : Char) : Bool :=
  c = ',' || c = '[' || c = ']' || c = '{' || c = '}'

/-- The word of a plain scalar at the start of a text. A colon belongs to it unless layout follows;
between brackets, an indicator may not follow the colon. -/
def plainWord? (flow : Bool) : List Char → Option (List Char)
  | [] => some []
  | c :: r =>
    if isLayout c then some []
    else if flow && c = ':' && r.head?.any (fun d => isFlowIndicator d || d = '?') then none
    else if c = ':' && r.head?.all isLayout then some []
    else if flow && isFlowIndicator c then some []
    else (plainWord? flow r).map (c :: ·)

/-- The plain scalar at a cursor, whether lines have ended behind it, and the cursor behind all that.
`indent` is the least column of its further lines. -/
def plainText? (fuel : Nat) (flow : Bool) (indent : Int) (gap : Gap) (text : List Char)
    (c : Cursor) : Option (List Char × Bool × Cursor) :=
  match fuel with
  | 0 => none
  | fuel + 1 =>
    if c.atDocumentBoundary || c.rest.head? = some '#' then some (text, gap.ended, c)
    else
      match plainWord? flow c.rest with
      | none => none
      | some [] => some (text, gap.ended, c)
      | some word =>
        let text := text ++ gap.folded ++ word
        let c := c.skip word.length
        if c.rest.head?.any isLayout then
          match Gap.scan indent {} c.mark c.rest with
          | none => none
          | some (gap, c) =>
            if !flow && (c.mark.column : Int) < indent then some (text, gap.ended, c)
            else plainText? fuel flow indent gap text c
        else some (text, false, c)

/-! ## Quoted scalars -/

/-- The character of a code that hexadecimal digits give, and the text behind it. -/
def codeEscape? (n : Nat) (cs : List Char) : Option (Char × List Char) := do
  if (cs.take n).length ≠ n then none
  let code ← natIn? 16 (cs.take n)
  if h : code.isValidChar then return (Char.ofNatAux code h, cs.drop n) else none

/-- The character that an escape writes (the text starts behind its backslash), and the text behind
it. -/
def escape? : List Char → Option (Char × List Char)
  | '0' :: r => some ('\x00', r)
  | 'a' :: r => some ('\x07', r)
  | 'b' :: r => some ('\x08', r)
  | 't' :: r | '\t' :: r => some ('\t', r)
  | 'n' :: r => some ('\n', r)
  | 'v' :: r => some ('\x0b', r)
  | 'f' :: r => some ('\x0c', r)
  | 'r' :: r => some ('\r', r)
  | 'e' :: r => some ('\x1b', r)
  | ' ' :: r => some (' ', r)
  | '"' :: r => some ('"', r)
  | '/' :: r => some ('/', r)
  | '\\' :: r => some ('\\', r)
  | 'N' :: r => some ('\x85', r)
  | '_' :: r => some ('\xa0', r)
  | 'L' :: r => some ('\u2028', r)
  | 'P' :: r => some ('\u2029', r)
  | 'x' :: r => codeEscape? 2 r
  | 'u' :: r => codeEscape? 4 r
  | 'U' :: r => codeEscape? 8 r
  | _ => none

/-- The characters of a quoted scalar up to layout or its closing quote, whether an escaped line end
comes last, and the cursor behind them. -/
def quotedWord? (fuel : Nat) (single : Bool) (c : Cursor) :
    Option (List Char × Bool × Cursor) :=
  match fuel with
  | 0 => none
  | fuel + 1 =>
    let behind (d : Char) (n : Nat) : Option (List Char × Bool × Cursor) :=
      (quotedWord? fuel single (c.skip n)).map fun (text, escaped, c) => (d :: text, escaped, c)
    match single, c.rest with
    | _, [] => some ([], false, c)
    | true, '\x27' :: '\x27' :: _ => behind '\x27' 2
    | true, '\x27' :: _ => some ([], false, c)
    | false, '"' :: _ => some ([], false, c)
    | false, '\\' :: r =>
      if r.head?.any isBreak then some ([], true, (c.skip 1).skipBreak)
      else
        match escape? r with
        | none => none
        | some (d, rest) => behind d (r.length - rest.length + 1)
    | _, d :: _ => if isLayout d then some ([], false, c) else behind d 1

/-- The characters of a quoted scalar behind its opening quote, and the cursor behind its closing
one. -/
def quotedText? (fuel : Nat) (single : Bool) (text : List Char) (c : Cursor) :
    Option (List Char × Cursor) :=
  match fuel with
  | 0 => none
  | fuel + 1 =>
    if c.atDocumentBoundary || c.rest.isEmpty then none
    else
      match quotedWord? (c.rest.length + 1) single c with
      | none => none
      | some (word, ended, c) =>
        let text := text ++ word
        if c.rest.head? = some (if single then '\x27' else '"') then some (text, c.skip 1)
        else
          match Gap.scan (-1) { ended } c.mark c.rest with
          | none => none
          | some (gap, c) => quotedText? fuel single (text ++ gap.folded) c

/-! ## Block scalars -/

/-- What becomes of the line ends behind a block scalar. -/
inductive Chomping where
  /-- None is kept. -/
  | strip
  /-- The first is kept. -/
  | clip
  /-- All are kept. -/
  | keep
  deriving DecidableEq, Repr, Inhabited

/-- The sign that tells what becomes of the last line ends. -/
def chomping? : Char → Option Chomping
  | '+' => some .keep
  | '-' => some .strip
  | _ => none

/-- The depth of the indentation, a digit from one to nine. -/
def depth? (c : Char) : Option Nat := (digit? c).filter (· ≠ 0)

/-- The two signs behind the indicator of a block scalar, in either order, and the cursor behind
them. -/
def blockHeader? (c : Cursor) : Option (Chomping × Option Nat × Cursor) :=
  match c.rest with
  | a :: r =>
    let second := r.head?
    match chomping? a with
    | some chomping =>
      match second with
      | some b =>
        if b.isDigit then (depth? b).map fun n => (chomping, some n, c.skip 2)
        else some (chomping, none, c.skip 1)
      | none => some (chomping, none, c.skip 1)
    | none =>
      if a.isDigit then do
        let n ← depth? a
        match second.bind chomping? with
        | some chomping => return (chomping, some n, c.skip 2)
        | none => return (.clip, some n, c.skip 1)
      else some (.clip, none, c)
  | [] => some (.clip, none, c)

/-- The line ends in front of the next line of a block scalar, the greatest column reached before it, and
the cursor at the line. With `indent` zero the indentation is yet to be found. -/
def blockBreaks? (indent greatest : Nat) (breaks : List Char) (m : Mark) :
    List Char → Option (List Char × Nat × Cursor)
  | [] => some (breaks, Nat.max greatest m.column, ⟨m, []⟩)
  | '\r' :: '\n' :: r =>
    blockBreaks? indent (Nat.max greatest m.column) (breaks ++ ['\n']) (m.newline 2) r
  | c :: r =>
    let greatest := Nat.max greatest m.column
    let free := indent = 0 || m.column < indent
    if free && c = ' ' then blockBreaks? indent greatest breaks (m.forward 1) r
    else if free && c = '\t' then none
    else if isBreak c then
      blockBreaks? indent greatest (breaks ++ [breakText c]) (m.newline 1) r
    else some (breaks, greatest, ⟨m, c :: r⟩)

/-- The end of the line at a cursor as part of a scalar; none at the end of the text. -/
def breakHere (c : Cursor) : List Char := c.rest.head?.toList.map breakText

/-- The lines of a block scalar with the indentation `indent`: its text, the line end behind its last
line, the further line ends, and the cursor behind them. -/
def blockLines? (fuel : Nat) (literal : Bool) (indent : Nat) (blankBefore : Bool)
    (text last further : List Char) (c : Cursor) :
    Option (List Char × List Char × List Char × Cursor) :=
  match fuel with
  | 0 => none
  | fuel + 1 =>
    if c.mark.column ≠ indent || c.rest.isEmpty then some (text, last, further, c)
    else
      let blank := c.rest.head?.any isBlank
      let joint :=
        if !literal && last = ['\n'] && !blankBefore && !blank then
          if further.isEmpty then [' '] else []
        else last
      let line := c.rest.takeWhile (fun d => !isBreak d)
      let c := c.skip line.length
      let last := breakHere c
      let c := c.skipBreak
      match blockBreaks? indent 0 [] c.mark c.rest with
      | none => none
      | some (breaks, _, c) =>
        blockLines? fuel literal indent blank (text ++ joint ++ further ++ line) last breaks c

/-- The block scalar whose indicator the cursor is behind, and the cursor behind it. `outer` is the
indentation of what it belongs to, `-1` outside of everything. -/
def blockText? (literal : Bool) (outer : Int) (c : Cursor) : Option (List Char × Cursor) :=
  match blockHeader? c with
  | none => none
  | some (chomping, depth, c) =>
    let c := c.skipRemark
    if !c.layoutAt 0 then none
    else
      let c := c.skipBreak
      let known : Nat :=
        match depth with
        | some n => if 0 ≤ outer then outer.toNat + n else n
        | none => 0
      match blockBreaks? known 0 [] c.mark c.rest with
      | none => none
      | some (breaks, greatest, c) =>
        let indent :=
          if known = 0 then Nat.max (Nat.max greatest (outer + 1).toNat) 1 else known
        (blockLines? (c.rest.length + 1) literal indent false [] [] breaks c).map
          fun (text, last, further, c) =>
            match chomping with
            | .strip => (text, c)
            | .clip => (text ++ last, c)
            | .keep => (text ++ last ++ further, c)

end Conformance.Yaml
