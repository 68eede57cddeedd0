import Conformance.Text.Binary64
import Conformance.Text.Decimal
import Conformance.Text.Span

/-!
# What plain scalars mean

A plain scalar is a null, a truth value, a number, or else its text. Digits behind a zero are text, and so
is a number too large for the binary format.
-/
namespace Conformance.Yaml

open Conformance.Text

/-- Whether the text writes the null. -/
def isNull (text : String) : Bool :=
  text = "null" || text = "Null" || text = "NULL" || text = "~"

/-- The truth value that the text writes. -/
def bool? (text : String) : Option Bool :=
  if text = "true" || text = "True" || text = "TRUE" then some true
  else if text = "false" || text = "False" || text = "FALSE" then some false
  else none

/-- Whether the text is digits behind a zero, with or without a sign. -/
def isPadded (cs : List Char) : Bool :=
  let cs := match cs with
    | '-' :: r | '+' :: r => r
    | cs => cs
  match cs with
  | '0' :: d :: r => (d :: r).all Char.isDigit
  | _ => false

/-- The number that digits behind the sign of their base write. -/
def based? : List Char → Option Nat
  | '0' :: 'x' :: r => natIn? 16 r
  | '0' :: 'o' :: r => natIn? 8 r
  | '0' :: 'b' :: r => natIn? 2 r
  | _ => none

/-- The natural number that the text writes, with an optional plus sign. -/
def natural? (cs : List Char) : Option Nat :=
  let digits := match cs with
    | '+' :: r => r
    | cs => cs
  (based? digits).or (if isPadded cs then none else nat? digits)

/-- The number with a minus sign that the text writes, without the sign. -/
def negated? (cs : List Char) : Option Nat :=
  match cs with
  | '-' :: digits => (based? digits).or (if isPadded cs then none else nat? digits)
  | _ => none

/-- The integer that the text writes. -/
def integer? (cs : List Char) : Option Int :=
  match natural? cs with
  | some n => some n
  | none => (negated? cs).map fun n => -(n : Int)

/-- The integers that a document can hold: those of 64 bits, with or without a sign. -/
def isHeld (n : Int) : Bool := -(Int.pow 2 63) ≤ n && n < Int.pow 2 64

/-- The integers that are recognised as such: those of 128 bits, with or without a sign. -/
def isRecognised (n : Int) : Bool := -(Int.pow 2 127) ≤ n && n < Int.pow 2 128

/-- The exponent of a decimal, which is there to its end. -/
def exponent? : List Char → Option Int
  | [] => some 0
  | 'e' :: r | 'E' :: r => intIn? 10 r
  | _ => none

/-- The decimal that a text without a sign writes: digits around an optional point, and an optional
exponent. -/
def decimal? (negative : Bool) (cs : List Char) : Option Binary64 := do
  let whole := cs.takeWhile Char.isDigit
  let r := cs.dropWhile Char.isDigit
  let (fraction, r) := match r with
    | '.' :: r => (r.takeWhile Char.isDigit, r.dropWhile Char.isDigit)
    | r => ([], r)
  let digits ← nat? (whole ++ fraction)
  return .ofDecimal negative digits ((← exponent? r) - fraction.length)

/-- The number with a fraction that the text writes. -/
def float? (cs : List Char) : Option Binary64 :=
  let (sign, body) := match cs with
    | '-' :: r => (some true, r)
    | '+' :: r => (some false, r)
    | cs => (none, cs)
  let word := String.ofList body
  if word = ".inf" || word = ".Inf" || word = ".INF" then some (.infinite (sign = some true))
  else if sign.isNone && (word = ".nan" || word = ".NaN" || word = ".NAN") then some .nan
  else
    match decimal? (sign = some true) body with
    | some (.finite negative m q) => some (.finite negative m q)
    | _ => none

end Conformance.Yaml
