import Conformance.Regex.CharSet

/-!
# Patterns

A pattern as a tree. Alternatives and repetitions have an order of preference: the left alternative
before the right one, more repetitions before fewer where the repetition is greedy.
-/
namespace Conformance.Regex

/-- A condition on the place between two characters. -/
inductive Look where
  /-- The start of the text. -/
  | start
  /-- The end of the text. -/
  | finish
  /-- The start of a line; with `crlf` a carriage return counts as a newline too. -/
  | lineStart (crlf : Bool)
  /-- The end of a line. -/
  | lineEnd (crlf : Bool)
  /-- Between a character of words and something else, or not. -/
  | wordEdge (ascii negated : Bool)
  /-- Before the first character of a word. -/
  | wordStart (ascii : Bool)
  /-- Behind the last character of a word. -/
  | wordEnd (ascii : Bool)
  /-- Not behind a character of words. -/
  | wordStartHalf (ascii : Bool)
  /-- Not before a character of words. -/
  | wordEndHalf (ascii : Bool)
  deriving DecidableEq, Repr, Inhabited

/-- A pattern. -/
inductive Node where
  | empty
  /-- One character of the set. -/
  | set (s : CharSet)
  | look (l : Look)
  /-- The text that `a` matches is remembered under the index. -/
  | group (index : Nat) (a : Node)
  | cat (a b : Node)
  | alt (a b : Node)
  /-- At least `min` and at most `max` repetitions. -/
  | repeat (min : Nat) (max : Option Nat) (greedy : Bool) (a : Node)
  deriving Inhabited

namespace Node

/-- Whether every match of the pattern is empty. -/
def onlyEmpty : Node → Bool
  | empty | look _ => true
  | set _ => false
  | group _ a => a.onlyEmpty
  | cat a b | alt a b => a.onlyEmpty && b.onlyEmpty
  | .repeat _ max _ a => max = some 0 || a.onlyEmpty

/-- Whether every match of the pattern has a character. -/
def neverEmpty : Node → Bool
  | empty | look _ => false
  | set _ => true
  | group _ a => a.neverEmpty
  | cat a b => a.neverEmpty || b.neverEmpty
  | alt a b => a.neverEmpty && b.neverEmpty
  | .repeat min _ _ a => 0 < min && a.neverEmpty

/-- A rough measure in bytes of the machine that matches the pattern. -/
def weight : Node → Nat
  | empty => 32
  | set s => 40 + 60 * s.rangeCount
  | look _ => 32
  | group _ a => a.weight + 64
  | cat a b => a.weight + b.weight
  | alt a b => a.weight + b.weight + 64
  | .repeat min max _ a =>
    if a.onlyEmpty then a.weight + 64
    else
      match max with
      | none => (Nat.max min 1) * a.weight + 64
      | some max => max * (a.weight + 40) + 64

end Node

end Conformance.Regex
