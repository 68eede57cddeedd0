import Conformance.Expr.Eval
import Conformance.Json.Scan
import Conformance.Regex.Machine

/-!
# Matching captured output

The output of the last command is read once, from front to back. Every expectation first passes over
blanks and then takes what it expects; what is there instead of it is passed over too, so that later
expectations can still be met.
-/
namespace Conformance.Output

open Text Expr

/-- A time in words, such as `5 minutes ago`. -/
def relativeTimePattern : String :=
  "[0-9]+\\s+(?:second|minute|hour|day|week|month|year)[s]?\\s+" ++
    "(?:ago|old|remaining|in\\s+the\\s+future)"

/-- A date with a time of day, such as `2014-06-20T14:13:00`. -/
def isoTimePattern : String :=
  "[0-9]+[-][0-9]\x7b2\x7d[-][0-9]\x7b2\x7d[T][0-9]\x7b2\x7d[:][0-9]\x7b2\x7d[:][0-9]\x7b2\x7d"

/-- What a mismatch shows as expected where a JSON value was. -/
def jsonPlaceholder : String := "<json>"

/-- The result of one expectation. -/
inductive Outcome where
  /-- The expectation took `text`; named groups of a pattern give more. -/
  | matched (text : String) (groups : Captures)
  /-- Instead of what was expected, `actual` was passed over. -/
  | mismatch (expected actual : String)
  deriving DecidableEq, Repr, Inhabited

/-- Whether the expectation was met. -/
def Outcome.isMatch : Outcome → Bool
  | matched .. => true
  | mismatch .. => false

/-- The captured output of one client and how far it has been read. -/
structure State where
  buffer : String := ""
  /-- The number of bytes that have been read. -/
  cursor : Nat := 0
  /-- Whether an expectation has failed since the output was captured. -/
  hasFailed : Bool := false
  /-- The number of expectations that have failed in the whole run. -/
  failureCount : Nat := 0
  deriving DecidableEq, Repr, Inhabited

namespace State

/-- The state before any command. -/
def new : State := {}

/-- The state when `output` has been captured. The count of failures goes on. -/
def reset (s : State) (output : String) : State :=
  { s with buffer := output, cursor := 0, hasFailed := false }

/-- The characters not yet read. -/
def rest (s : State) : List Char := dropBytes s.cursor s.buffer.toList

/-- The text not yet read, if the reading stopped between two characters. -/
def residual? (s : State) : Option String :=
  if isBoundary s.cursor s.buffer.toList then some (String.ofList s.rest) else none

/-- The state when `taken`, at the front of the rest, has been read. -/
def take (s : State) (taken : List Char) : State :=
  { s with cursor := s.cursor + byteLength taken }

/-- The state when the blanks at the front have been read. -/
def skipBlanks (s : State) : State := s.take (s.rest.takeWhile isOutputBlank)

/-- The state with one more failure. -/
def countFailure (s : State) : State :=
  { s with hasFailed := true, failureCount := s.failureCount + 1 }

/-- The run of characters up to the next blank is passed over instead of what was expected. -/
def fail (s : State) (expected : String) : Outcome × State :=
  let actual := s.rest.takeWhile (!isOutputBlank ·)
  (.mismatch expected (String.ofList actual), (s.take actual).countFailure)

/-- Expects `text` as it is. -/
def matchLiteral (s : State) (text : String) : Outcome × State :=
  let s := s.skipBlanks
  if (dropPrefix? text.toList s.rest).isSome then (.matched text [], s.take text.toList)
  else s.fail text

/-- The pattern bound to the place where matching starts. -/
def anchored (pattern : String) : String := "\\A(?:" ++ pattern ++ ")"

/-- Expects a text that the program matches; `pattern` stands for it in a mismatch. The reading moves
on by the length of the match. -/
def matchProgram (s : State) (program : Regex.Program) (pattern : String) : Outcome × State :=
  match program.find? s.rest with
  | some found => (.matched (String.ofList found.text) found.groups, s.take found.text)
  | none => s.fail pattern

/-- Expects a text of the pattern. A pattern that cannot be read is a problem of the script, and the
blanks in front have been read then. -/
def matchRegex (s : State) (pattern : String) : Except Problem Outcome × State :=
  let s := s.skipBlanks
  match Regex.Program.read? (anchored pattern) with
  | some program => (s.matchProgram program pattern).map .ok id
  | none => (.error (.invalidPattern pattern "it is no regular expression"), s)

/-- Expects one JSON value. What is no JSON is passed over to its end. -/
def matchJson (s : State) : Outcome × State :=
  let s := s.skipBlanks
  match Json.behindValue? s.rest with
  | some behind =>
    let text := s.rest.take (s.rest.length - behind.length)
    (.matched (String.ofList text) [], s.take text)
  | none => (.mismatch jsonPlaceholder (String.ofList s.rest), (s.take s.rest).countFailure)

/-- Expects a text of a pattern that is known to be one. -/
def matchBuiltin (s : State) (pattern : String) : Outcome × State :=
  match s.matchRegex pattern with
  | (.ok outcome, s) => (outcome, s)
  | (.error _, s) => s.fail pattern

/-- Expects a time in words. -/
def matchRelativeTime (s : State) : Outcome × State := s.matchBuiltin relativeTimePattern

/-- Expects a date with a time of day. -/
def matchIsoTime (s : State) : Outcome × State := s.matchBuiltin isoTimePattern

/-- Expects what the expectation says. -/
def check (s : State) : Expectation → Except Problem Outcome × State
  | .literal text => (s.matchLiteral text).map .ok id
  | .regex pattern => s.matchRegex pattern
  | .json => s.matchJson.map .ok id
  | .relativeTime => s.matchRelativeTime.map .ok id
  | .isoTime => s.matchIsoTime.map .ok id

end State

end Conformance.Output
