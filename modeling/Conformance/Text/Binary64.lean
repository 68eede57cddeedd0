/-!
# Binary floating point

Numbers of the 64-bit binary format: the one nearest to a decimal, and the shortest decimal that
reads back as a given one. All arithmetic is on whole numbers, so nothing is rounded twice.
-/
namespace Conformance.Text

/-- A number of the format. A finite one is `m * 2 ^ q` with `m < 2 ^ 53`, and with
`2 ^ 52 ≤ m` unless `q` is the least exponent. -/
inductive Binary64 where
  | finite (negative : Bool) (m : Nat) (q : Int)
  | infinite (negative : Bool)
  | nan
  deriving DecidableEq, Repr, Inhabited

namespace Binary64

/-- The least exponent of a finite number. -/
def minExponent : Int := -1074

/-- The greatest exponent of a finite number. -/
def maxExponent : Int := 971

/-- The quotient rounded to the nearest whole number, a half to the even one. -/
def roundDiv (num den : Nat) : Nat :=
  let quotient := num / den
  let twice := 2 * (num % den)
  if twice < den then quotient
  else if den < twice then quotient + 1
  else quotient + quotient % 2

/-- The quotient of `num * 2 ^ (-q)` and `den` as a numerator and a denominator. -/
def scaled (num den : Nat) (q : Int) : Nat × Nat :=
  (num * Nat.pow 2 (-q).toNat, den * Nat.pow 2 q.toNat)

/-- The number nearest to the quotient of two whole numbers that are not zero. -/
def ofRatio (negative : Bool) (num den : Nat) : Binary64 :=
  let guess : Int := (num.log2 : Int) - den.log2 - 52
  let (a, b) := scaled num den guess
  let q := max (if a / b < Nat.pow 2 52 then guess - 1 else guess) minExponent
  let (a, b) := scaled num den q
  let m := roundDiv a b
  let (m, q) := if m = Nat.pow 2 53 then (Nat.pow 2 52, q + 1) else (m, q)
  if maxExponent < q then infinite negative else finite negative m q

/-- The number nearest to `digits * 10 ^ exponent`. What is far outside the range of the format need
not be computed. -/
def ofDecimal (negative : Bool) (digits : Nat) (exponent : Int) : Binary64 :=
  let magnitude : Int := (Nat.toDigits 10 digits).length + exponent
  if digits = 0 || magnitude < -330 then finite negative 0 minExponent
  else if 330 < magnitude then infinite negative
  else ofRatio negative (digits * Nat.pow 10 exponent.toNat) (Nat.pow 10 (-exponent).toNat)

/-- The multiple of `10 ^ k` nearest to `m * 2 ^ q` if it reads back as this number, divided by
`10 ^ k`. Numbers that read back lie within half the distance to the neighbours, which below a power of
two is half as large; the ends belong to an even `m`. -/
def onGrid? (m : Nat) (q k : Int) : Option Nat :=
  let unit := Nat.pow 2 (q - 2).toNat * Nat.pow 10 (-k).toNat
  let step := Nat.pow 10 k.toNat * Nat.pow 2 (2 - q).toNat
  let exact := 4 * m * unit
  let least := (if m = Nat.pow 2 52 && minExponent < q then 4 * m - 1 else 4 * m - 2) * unit
  let greatest := (4 * m + 2) * unit
  let readsBack (d : Nat) : Bool :=
    if m % 2 = 0 then least ≤ d * step && d * step ≤ greatest
    else least < d * step && d * step < greatest
  let below := exact / step
  let nearest := roundDiv exact step
  let other := if nearest = below then below + 1 else below
  [nearest, other].find? readsBack

/-- The coarsest grid of powers of ten, from `10 ^ k` down, on which a number reads back as
`m * 2 ^ q`, and that number on the grid. -/
def coarsest (m : Nat) (q : Int) : Nat → Int → Nat × Int
  | 0, k => (0, k)
  | n + 1, k =>
    match onGrid? m q k with
    | some d => (d, k)
    | none => coarsest m q n (k - 1)

/-- The shortest decimal, as digits and an exponent of ten, that reads back as `m * 2 ^ q`. -/
def shortest (m : Nat) (q : Int) : Nat × Int := coarsest m q 660 310

/-- How many zeros there are. -/
def zeros (n : Nat) : List Char := List.replicate n '0'

/-- The text of a finite number: positional from `1e-5` up to below `1e16`, else with an exponent,
whose plus sign is written if `plus`. -/
def finiteText (plus : Bool) (m : Nat) (q : Int) : List Char :=
  if m = 0 then ['0', '.', '0']
  else
    let (d, k) := shortest m q
    let digits := Nat.toDigits 10 d
    let whole : Int := digits.length + k
    if 0 ≤ k && whole ≤ 16 then digits ++ zeros k.toNat ++ ['.', '0']
    else if 0 < whole && whole ≤ 16 then
      digits.take whole.toNat ++ '.' :: digits.drop whole.toNat
    else if -5 < whole && whole ≤ 0 then '0' :: '.' :: zeros (-whole).toNat ++ digits
    else
      let mantissa := match digits with
        | [d] => [d]
        | d :: r => d :: '.' :: r
        | [] => []
      let exponent := whole - 1
      let sign := if exponent < 0 then ['-'] else if plus then ['+'] else []
      mantissa ++ 'e' :: sign ++ Nat.toDigits 10 exponent.natAbs

/-- The text of a finite number with its sign. -/
def signedText (plus negative : Bool) (m : Nat) (q : Int) : String :=
  String.ofList ((if negative then ['-'] else []) ++ finiteText plus m q)

/-- Whether two numbers are the same as keys: the two zeros are, and a NaN is the same as itself. -/
def sameNumber : Binary64 → Binary64 → Bool
  | finite a m q, finite b n r => (m = 0 && n = 0) || (a = b && m = n && q = r)
  | infinite a, infinite b => a = b
  | nan, nan => true
  | _, _ => false

end Binary64

end Conformance.Text
