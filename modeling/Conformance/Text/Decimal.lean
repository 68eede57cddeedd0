/-!
# Whole numbers in decimal

Reading digits, and the fixed ranges that numbers of the program have: 64-bit words with and
without sign, and 16-bit port numbers.
-/
namespace Conformance.Text

/-- The value of a decimal digit. -/
def digit? (c : Char) : Option Nat :=
  if '0' ≤ c ∧ c ≤ '9' then some (c.toNat - '0'.toNat) else none

/-- The value of a digit in a base up to sixteen, in either letter case. -/
def digitIn? (base : Nat) (c : Char) : Option Nat :=
  let n :=
    if '0' ≤ c ∧ c ≤ '9' then some (c.toNat - '0'.toNat)
    else if 'a' ≤ c ∧ c ≤ 'f' then some (c.toNat - 'a'.toNat + 10)
    else if 'A' ≤ c ∧ c ≤ 'F' then some (c.toNat - 'A'.toNat + 10)
    else none
  n.filter (· < base)

/-- The number whose digits in `base` follow those of `acc`. -/
def natFrom? (base : Nat) (acc : Nat) : List Char → Option Nat
  | [] => some acc
  | c :: r => (digitIn? base c).bind fun d => natFrom? base (acc * base + d) r

/-- The number written by a non-empty run of digits in `base`. -/
def natIn? (base : Nat) : List Char → Option Nat
  | [] => none
  | cs => natFrom? base 0 cs

/-- The number written by a non-empty run of decimal digits. -/
def nat? (cs : List Char) : Option Nat := natIn? 10 cs

/-- The number written by digits in `base`, with an optional sign in front. -/
def intIn? (base : Nat) : List Char → Option Int
  | '-' :: r => (natIn? base r).map fun n => -(n : Int)
  | '+' :: r => (natIn? base r).map fun n => (n : Int)
  | cs => (natIn? base cs).map fun n => (n : Int)

/-- The 64-bit integer equal to `n`, if there is one. -/
def int64? (n : Int) : Option Int64 :=
  if -(Int.pow 2 63) ≤ n ∧ n < Int.pow 2 63 then some (Int64.ofInt n) else none

/-- The 64-bit integer that a text writes: an optional sign and digits. -/
def readInt64? (cs : List Char) : Option Int64 := (intIn? 10 cs).bind int64?

/-- The number below `bound` that a text writes in `base`: an optional plus sign and digits. -/
def readBelow? (base bound : Nat) : List Char → Option Nat
  | '+' :: r => (natIn? base r).filter (· < bound)
  | cs => (natIn? base cs).filter (· < bound)

/-- The largest port number and one more. -/
def portBound : Nat := UInt16.size

/-- One more than the largest 64-bit word. -/
def wordBound : Nat := UInt64.size

end Conformance.Text
