import Conformance.Text.Blank
import Conformance.Text.Span

/-!
# Tokens of a script

A token is a piece of script text with the position of its first character. Its kind can be read
off its text alone.
-/
namespace Conformance.Script

open Text

/-- A place in a text: line and column, both counted from one. -/
structure Position where
  line : Nat
  column : Nat
  deriving DecidableEq, Repr, Inhabited

namespace Position

/-- The place of the first character. -/
def start : Position := ⟨1, 1⟩

/-- The place right after a newline. -/
def nextLine (p : Position) : Position := ⟨p.line + 1, 1⟩

/-- The place after the text: each of CR LF, CR and LF begins a line, and every other character
takes a column. -/
def advance (p : Position) : List Char → Position
  | [] => p
  | '\r' :: '\n' :: r => p.nextLine.advance r
  | '\r' :: r => p.nextLine.advance r
  | '\n' :: r => p.nextLine.advance r
  | _ :: r => advance ⟨p.line, p.column + 1⟩ r

end Position

/-- What a token means to the interpreter. -/
inductive Kind where
  | newline
  | whitespace
  | expression
  | reference
  | commandMarker
  | comment
  | literal
  deriving DecidableEq, Repr, Inhabited

/-- The name under which listings show the kind. -/
def Kind.name : Kind → String
  | newline => "Newline"
  | whitespace => "Whitespace"
  | expression => "Expression"
  | reference => "Variable"
  | commandMarker => "CommandMarker"
  | comment => "Comment"
  | literal => "Literal"

/-- Opens a command line. -/
def marker : String := ">>>"

/-- Whether the character can begin the name of a `$` reference. -/
def isNameStart (c : Char) : Bool := c.isAlpha || c = '_'

/-- Whether the character can continue the name of a `$` reference. -/
def isNameRest (c : Char) : Bool := c.isAlphanum || c = '_'

/-- Whether the text ends with a newline character. -/
def endsLine (cs : List Char) : Bool :=
  match cs.getLast? with
  | some c => c = '\n' || c = '\r'
  | none => false

/-- Whether the text begins with an inline blank. -/
def startsBlank (cs : List Char) : Bool :=
  match cs with
  | c :: _ => isInlineBlank c
  | [] => false

/-- Whether the text begins with `$` and a character that can begin a name. -/
def startsReference : List Char → Bool
  | '$' :: c :: _ => isNameStart c
  | _ => false

/-- Whether the text is a complete comment: at least the two brackets, one at either end. -/
def isCommentText (cs : List Char) : Bool :=
  4 ≤ cs.length && (dropPrefix? ['#', '{'] cs).isSome && (dropSuffix? ['}', '#'] cs).isSome

/-- The kind of a token with this text. -/
def kindOf (cs : List Char) : Kind :=
  if cs = marker.toList then .commandMarker
  else if endsLine cs then (if startsBlank cs then .whitespace else .newline)
  else if startsBlank cs then .whitespace
  else if ((dropPrefix? ['$', '{'] cs).map (occurs ['}', '$'])).getD false then .expression
  else if startsReference cs then .reference
  else if isCommentText cs then .comment
  else .literal

/-- A piece of script text and the place where it starts. -/
structure Token where
  text : String
  place : Position
  deriving DecidableEq, Repr, Inhabited

namespace Token

/-- The kind, read off the text. -/
def kind (t : Token) : Kind := kindOf t.text.toList

/-- Whether the token ends its line. -/
def endsLine (t : Token) : Bool := Script.endsLine t.text.toList

/-- The source of an expression block and the result recorded behind it, if the token is a block. -/
def expressionParts? (t : Token) : Option (String × Option String) := do
  let body ← dropPrefix? ['$', '{'] t.text.toList
  let (source, rest) ← breakOn? ['}', '$'] body
  let recorded := (dropPrefix? ['~', '{'] rest).bind (dropSuffix? ['}', '~'])
  return (String.ofList source, recorded.map String.ofList)

end Token

end Conformance.Script
