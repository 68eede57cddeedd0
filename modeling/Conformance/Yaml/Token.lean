/-!
# Tokens of YAML

The characters that matter to YAML, and the tokens that a text consists of. Indentation shows as tokens of
its own, so that behind the lexer a text is a sequence like any other.
-/
namespace Conformance.Yaml

/-- Blanks within a line. -/
def isBlank (c : Char) : Bool := c = ' ' || c = '\t'

/-- Characters that end a line. -/
def isBreak (c : Char) : Bool :=
  c = '\n' || c = '\r' || c = '\x85' || c = '\u2028' || c = '\u2029'

/-- Blanks and characters that end a line. -/
def isLayout (c : Char) : Bool := isBlank c || isBreak c

/-- Characters of names: of anchors, of directives, of tag handles. -/
def isNameChar (c : Char) : Bool := c.isAlphanum || c = '_' || c = '-'

/-- Characters that may stand in a text at all. -/
def isAllowed (c : Char) : Bool :=
  let n := c.toNat
  c = '\t' || c = '\n' || c = '\r' || (0x20 ≤ n && n ≤ 0x7E) || n = 0x85 ||
    (0xA0 ≤ n && n ≤ 0xD7FF) || (0xE000 ≤ n && n ≤ 0xFFFD) || 0x10000 ≤ n

/-- What a line end stands for in a scalar: the line and paragraph separators for themselves, any other
for a line feed. -/
def breakText (c : Char) : Char := if c = '\u2028' || c = '\u2029' then c else '\n'

/-- How a scalar is written. -/
inductive Style where
  | plain
  | quoted
  | literal
  | folded
  deriving DecidableEq, Repr, Inhabited

/-- A token. -/
inductive Token where
  | version (major minor : Nat)
  | tagHandle (handle start : String)
  | documentStart
  | documentEnd
  | blockSequenceStart
  | blockMappingStart
  | blockEnd
  | flowSequenceStart
  | flowSequenceEnd
  | flowMappingStart
  | flowMappingEnd
  | blockEntry
  | flowEntry
  | key
  | value
  | alias (name : String)
  | anchor (name : String)
  | tag (handle suffix : String)
  | scalar (text : String) (style : Style)
  deriving DecidableEq, Repr, Inhabited

/-- A place in a text. -/
structure Mark where
  /-- The number of characters before it. -/
  index : Nat := 0
  line : Nat := 0
  column : Nat := 0
  deriving DecidableEq, Repr, Inhabited

namespace Mark

/-- The place `n` characters further on the same line. -/
def forward (m : Mark) (n : Nat) : Mark := { m with index := m.index + n, column := m.column + n }

/-- The place behind a line end of `n` characters. -/
def newline (m : Mark) (n : Nat) : Mark := ⟨m.index + n, m.line + 1, 0⟩

end Mark

/-- A place in a text, and the text from there on. -/
structure Cursor where
  mark : Mark := {}
  rest : List Char
  deriving Repr, Inhabited

namespace Cursor

/-- The cursor `n` characters further on the same line. -/
def skip (c : Cursor) (n : Nat) : Cursor := ⟨c.mark.forward n, c.rest.drop n⟩

/-- The cursor behind the run of characters that satisfy `p`, none of which ends a line. -/
def skipWhile (p : Char → Bool) (c : Cursor) : Cursor := c.skip (c.rest.takeWhile p).length

/-- The cursor behind the line end, if it stands at one. -/
def skipBreak (c : Cursor) : Cursor :=
  match c.rest with
  | '\r' :: '\n' :: r => ⟨c.mark.newline 2, r⟩
  | d :: r => if isBreak d then ⟨c.mark.newline 1, r⟩ else c
  | [] => c

/-- Whether the character `n` places on is layout, or the text ends before it. -/
def layoutAt (c : Cursor) (n : Nat) : Bool := (c.rest[n]?).all isLayout

/-- The cursor behind blanks and a comment. -/
def skipRemark (c : Cursor) : Cursor :=
  let c := c.skipWhile isBlank
  if c.rest.head? = some '#' then c.skipWhile (fun d => !isBreak d) else c

/-- The cursor behind a run of name characters, and the name. -/
def name (c : Cursor) : String × Cursor :=
  (String.ofList (c.rest.takeWhile isNameChar), c.skipWhile isNameChar)

/-- Whether the three characters stand at the start of a line, with layout behind them. -/
def atIndicator (c : Cursor) (d : Char) : Bool :=
  c.mark.column = 0 && c.rest.take 3 = [d, d, d] && c.layoutAt 3

/-- Whether a document starts or ends here by a line of its own. -/
def atDocumentBoundary (c : Cursor) : Bool := c.atIndicator '-' || c.atIndicator '.'

end Cursor

end Conformance.Yaml
