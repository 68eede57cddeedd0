import Conformance.Regex.Property
import Conformance.Text.CaseFamily

/-!
# Sets of characters

What one character of the text is tested for: ranges and properties, combined as sets. Folding a
set adds every character that differs from a member in case only.
-/
namespace Conformance.Regex

open Text

/-- A set of characters. -/
inductive CharSet where
  /-- The code points from `first` to `last`. -/
  | range (first last : Nat)
  /-- The characters that have the property. -/
  | property (p : Property)
  | union (a b : CharSet)
  | inter (a b : CharSet)
  | diff (a b : CharSet)
  /-- The characters in exactly one of the two sets. -/
  | exclusive (a b : CharSet)
  | compl (a : CharSet)
  /-- The set with all characters that differ from a member in case only, within ASCII or at all. -/
  | folded (ascii : Bool) (a : CharSet)
  deriving Inhabited

namespace CharSet

/-- The code points of ASCII that differ from `n` in case only, `n` among them. -/
def asciiCaseFamily (n : Nat) : List Nat :=
  if 0x41 ≤ n ∧ n ≤ 0x5A then [n, n + 32]
  else if 0x61 ≤ n ∧ n ≤ 0x7A then [n, n - 32]
  else [n]

/-- Whether the set holds the code point. -/
def contains : CharSet → Nat → Bool
  | range first last, n => first ≤ n && n ≤ last
  | property p, n => p.holds n
  | union a b, n => a.contains n || b.contains n
  | inter a b, n => a.contains n && b.contains n
  | diff a b, n => a.contains n && !b.contains n
  | exclusive a b, n => xor (a.contains n) (b.contains n)
  | compl a, n => !a.contains n
  | folded true a, n => (asciiCaseFamily n).any a.contains
  | folded false a, n => (caseFamily n).any a.contains

/-- The set without an element. -/
def nothing : CharSet := range 1 0

/-- The set of one character. -/
def single (c : Char) : CharSet := range c.toNat c.toNat

/-- The set of the characters in one of the ranges. -/
def ofRanges : List (Char × Char) → CharSet
  | [] => nothing
  | [(a, b)] => range a.toNat b.toNat
  | (a, b) :: r => union (range a.toNat b.toNat) (ofRanges r)

/-- All characters. -/
def all : CharSet := range 0 0x10FFFF

/-- The characters that words are made of. -/
def word : CharSet := property .word

/-- The characters of ASCII that words are made of. -/
def asciiWord : CharSet := ofRanges [('0', '9'), ('A', 'Z'), ('_', '_'), ('a', 'z')]

/-- The blanks of ASCII. -/
def asciiSpace : CharSet := ofRanges [('\t', '\r'), (' ', ' ')]

/-- The digits of ASCII. -/
def asciiDigit : CharSet := range 0x30 0x39

/-- Whether all members are characters of ASCII, as far as the form of the set tells. -/
def isAscii : CharSet → Bool
  | range first last => last < 0x80 || last < first
  | property _ => false
  | union a b => a.isAscii && b.isAscii
  | inter a b => a.isAscii || b.isAscii
  | diff a _ => a.isAscii
  | exclusive a b => a.isAscii && b.isAscii
  | compl _ => false
  | folded ascii a => ascii && a.isAscii

/-- A rough count of the ranges that make up the set. -/
def rangeCount : CharSet → Nat
  | range _ last => if last < 0x80 then 0 else 1
  | property p => p.rangeCount
  | union a b | inter a b | diff a b | exclusive a b => a.rangeCount + b.rangeCount
  | compl a => a.rangeCount + 1
  | folded _ a => 2 * a.rangeCount

end CharSet

end Conformance.Regex
