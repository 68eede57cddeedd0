import Conformance.Text.Blank
import Conformance.Text.Decimal
import Conformance.Text.Span

/-!
# Tables of code points

A table is written as text, so that a set of characters reads like the listing of a standard, and
is searched by halving.
-/
namespace Conformance.Text

/-- The value at the greatest key that is at most `n`, among the entries `lo` to `hi - 1` of a table
in ascending order of the keys. -/
def lastAtMost? {α : Type} (table : Array (Nat × α)) (n : Nat) : Nat → Nat → Nat → Option α
  | 0, _, _ => none
  | fuel + 1, lo, hi =>
    if hi ≤ lo then none
    else
      let mid := (lo + hi) / 2
      match table[mid]? with
      | none => none
      | some (key, value) =>
        if n < key then lastAtMost? table n fuel lo mid
        else (lastAtMost? table n fuel (mid + 1) hi).or (some value)

/-- A set of code points: ranges in ascending order, each by its first and last element. -/
structure Ranges where
  spans : Array (Nat × Nat)
  deriving Inhabited

namespace Ranges

/-- The set written as hexadecimal ranges with spaces between them, such as `30-39 5F`. -/
def ofString (text : String) : Ranges :=
  ⟨((runs (· = ' ') text.toList).filterMap span?).toArray⟩
where
  span? (word : List Char) : Option (Nat × Nat) :=
    match breakAt? (· = '-') word with
    | some (first, last) => return (← natIn? 16 first, ← natIn? 16 last)
    | none => (natIn? 16 word).map fun n => (n, n)

/-- Whether the set holds `n`. -/
def contains (r : Ranges) (n : Nat) : Bool :=
  (lastAtMost? r.spans n (r.spans.size + 1) 0 r.spans.size).any (n ≤ ·)

end Ranges

end Conformance.Text
