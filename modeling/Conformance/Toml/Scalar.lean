import Conformance.Text.Binary64
import Conformance.Text.Span
import Conformance.Toml.Item

/-!
# Plain values of TOML documents

Strings in their four spellings, numbers, and moments in time. Each function takes the value from the
start of a text and gives the text behind it.
-/
namespace Conformance.Toml

open Text

/-- Blanks within a line. -/
def isBlank (c : Char) : Bool := c = ' ' || c = '\t'

/-- The text from its first character that is not a blank. -/
def skipBlanks (cs : List Char) : List Char := cs.dropWhile isBlank

/-- Characters that a comment may hold: all but the control characters, of which the tab is allowed. -/
def isPlain (c : Char) : Bool := c = '\t' || (0x20 ≤ c.toNat && c ≠ '\x7f')

/-- The text behind a newline. -/
def newline? : List Char → Option (List Char)
  | '\n' :: r => some r
  | '\r' :: '\n' :: r => some r
  | _ => none

/-- The character that `n` hexadecimal digits give, and the text behind them. -/
def scalarEscape? (n : Nat) (cs : List Char) : Option (Char × List Char) := do
  let digits := cs.take n
  if digits.length ≠ n then none
  let code ← natIn? 16 digits
  if h : code.isValidChar then return (Char.ofNatAux code h, cs.drop n) else none

/-- The character that an escape writes (the text starts behind its backslash), and the text behind
it. -/
def escape? : List Char → Option (Char × List Char)
  | 'b' :: r => some ('\x08', r)
  | 't' :: r => some ('\t', r)
  | 'n' :: r => some ('\n', r)
  | 'f' :: r => some ('\x0c', r)
  | 'r' :: r => some ('\r', r)
  | '"' :: r => some ('"', r)
  | '\\' :: r => some ('\\', r)
  | 'u' :: r => scalarEscape? 4 r
  | 'U' :: r => scalarEscape? 8 r
  | _ => none

/-- The text behind the blanks and newlines that a backslash at the end of a line removes, if a newline
is there. -/
def continuation? (cs : List Char) : Option (List Char) :=
  (newline? (skipBlanks cs)).map blankLines
where
  /-- The text from its first character that is no blank and no newline. -/
  blankLines : List Char → List Char
    | '\r' :: '\n' :: r => blankLines r
    | c :: r => if isBlank c || c = '\n' then blankLines r else c :: r
    | [] => []

/-- The characters of a string between double quotes, behind its opening one. -/
def basicBody? (fuel : Nat) (cs : List Char) : Option (List Char × List Char) :=
  match fuel with
  | 0 => none
  | fuel + 1 =>
    match cs with
    | '"' :: r => some ([], r)
    | '\\' :: r => do
      let (c, r) ← escape? r
      let (s, rest) ← basicBody? fuel r
      return (c :: s, rest)
    | c :: r =>
      if isPlain c then (basicBody? fuel r).map fun (s, rest) => (c :: s, rest) else none
    | [] => none

/-- The characters of a string between single quotes, behind its opening one. -/
def literalBody? : List Char → Option (List Char × List Char)
  | '\x27' :: r => some ([], r)
  | c :: r => if isPlain c then (literalBody? r).map fun (s, rest) => (c :: s, rest) else none
  | [] => none

/-- The text behind the end of a string of several lines, which is three of its quotes, with up to two
more of them in front that belong to the string. -/
def closing? (quote : Char) (cs : List Char) : Option (List Char × List Char) :=
  let run := (cs.takeWhile (· = quote)).length
  if run < 3 then none
  else
    let inner := Nat.min (run - 3) 2
    some (List.replicate inner quote, cs.drop (inner + 3))

/-- The characters of a string of several lines. A line feed stands for any newline; `escapes` tells
whether a backslash opens an escape. -/
def linesBody? (quote : Char) (escapes : Bool) (fuel : Nat) (cs : List Char) :
    Option (List Char × List Char) :=
  match fuel with
  | 0 => none
  | fuel + 1 =>
    match closing? quote cs with
    | some done => some done
    | none =>
      match newline? cs with
      | some r => (linesBody? quote escapes fuel r).map fun (s, rest) => ('\n' :: s, rest)
      | none =>
        match cs with
        | [] => none
        | c :: r =>
          if escapes && c = '\\' then
            match continuation? r with
            | some r => linesBody? quote escapes fuel r
            | none => do
              let (c, r) ← escape? r
              let (s, rest) ← linesBody? quote escapes fuel r
              return (c :: s, rest)
          else if isPlain c then
            (linesBody? quote escapes fuel r).map fun (s, rest) => (c :: s, rest)
          else none

/-- A string of several lines behind its opening quotes; a newline directly behind them does not
count. -/
def lines? (quote : Char) (escapes : Bool) (cs : List Char) : Option (List Char × List Char) :=
  let body := (newline? cs).getD cs
  linesBody? quote escapes (body.length + 1) body

/-- The string on one line at the start of a text. -/
def lineString? : List Char → Option (List Char × List Char)
  | '"' :: r => basicBody? (r.length + 1) r
  | '\x27' :: r => literalBody? r
  | _ => none

/-- The string at the start of a text. -/
def string? : List Char → Option (List Char × List Char)
  | '"' :: '"' :: '"' :: r => lines? '"' true r
  | '\x27' :: '\x27' :: '\x27' :: r => lines? '\x27' false r
  | cs => lineString? cs

/-- Digits in a base, where single underscores may stand between two of them. -/
def digits? (base : Nat) : List Char → Option (List Char × List Char)
  | [] => none
  | c :: r =>
    match digitIn? base c with
    | none => none
    | some _ =>
      match r with
      | '_' :: r => (digits? base r).map fun (ds, rest) => (c :: ds, rest)
      | d :: r' =>
        match digitIn? base d with
        | some _ => (digits? base (d :: r')).map fun (ds, rest) => (c :: ds, rest)
        | none => some ([c], d :: r')
      | [] => some ([c], [])

/-- The whole part of a decimal number: a zero alone, or digits that start with another one. -/
def whole? : List Char → Option (List Char × List Char)
  | '0' :: r => some (['0'], r)
  | cs => digits? 10 cs

/-- Whether a number is negative, and the text behind its sign. -/
def sign : List Char → Bool × List Char
  | '-' :: r => (true, r)
  | '+' :: r => (false, r)
  | cs => (false, cs)

/-- The number that digits in a base give, without a sign. -/
def unsigned? (base : Nat) (cs : List Char) : Option (Int × List Char) := do
  let (ds, rest) ← digits? base cs
  return (((← natIn? base ds) : Nat), rest)

/-- The decimal number with an optional sign at the start of a text. -/
def signed? (cs : List Char) : Option (Int × List Char) := do
  let (negative, r) := sign cs
  let (ds, rest) ← whole? r
  let n : Int ← (natIn? 10 ds).map Int.ofNat
  return (if negative then -n else n, rest)

/-- The integer at the start of a text. -/
def integer? (cs : List Char) : Option (Item × List Char) := do
  let (n, rest) ← match cs with
    | '0' :: 'x' :: r => unsigned? 16 r
    | '0' :: 'o' :: r => unsigned? 8 r
    | '0' :: 'b' :: r => unsigned? 2 r
    | cs => signed? cs
  return (.int (← int64? n), rest)

/-- The exponent of a number with its sign, if it has one. -/
def exponent? : List Char → Option (Option Int × List Char)
  | c :: r =>
    if c = 'e' || c = 'E' then do
      let (negative, r) := sign r
      let (ds, rest) ← digits? 10 r
      let n : Int ← (natIn? 10 ds).map Int.ofNat
      return (some (if negative then -n else n), rest)
    else some (none, c :: r)
  | [] => some (none, [])

/-- The decimal number with a fraction or an exponent at the start of a text. One too large for the
format is refused. -/
def decimal? (cs : List Char) : Option (Item × List Char) := do
  let (negative, r) := sign cs
  let (whole, r) ← whole? r
  let (fraction, r) ← match r with
    | '.' :: r => digits? 10 r
    | r => some ([], r)
  let (exponent, rest) ← exponent? r
  if fraction.isEmpty && exponent.isNone then none
  let n ← natIn? 10 (whole ++ fraction)
  match Binary64.ofDecimal negative n (exponent.getD 0 - fraction.length) with
  | .infinite false => none
  | _ => return (.float, rest)

/-- The float at the start of a text. -/
def float? (cs : List Char) : Option (Item × List Char) :=
  match decimal? cs with
  | some found => some found
  | none =>
    match (sign cs).2 with
    | 'i' :: 'n' :: 'f' :: r => some (.float, r)
    | 'n' :: 'a' :: 'n' :: r => some (.float, r)
    | _ => none

/-- The number of `n` decimal digits between two bounds, and the text behind it. -/
def field? (n least greatest : Nat) (cs : List Char) : Option (Nat × List Char) := do
  if (cs.take n).length ≠ n then none
  let value ← natIn? 10 (cs.take n)
  if least ≤ value && value ≤ greatest then return (value, cs.drop n) else none

/-- The days of a month. -/
def daysIn (year month : Nat) : Nat :=
  if month = 2 then
    if year % 4 = 0 && (year % 100 ≠ 0 || year % 400 = 0) then 29 else 28
  else if month = 4 || month = 6 || month = 9 || month = 11 then 30
  else 31

/-- The text behind a date. -/
def date? (cs : List Char) : Option (List Char) := do
  let (year, r) ← field? 4 0 9999 cs
  let (month, r) ← field? 2 1 12 (← dropPrefix? ['-'] r)
  let (_, r) ← field? 2 1 (daysIn year month) (← dropPrefix? ['-'] r)
  return r

/-- The text behind a time of day. -/
def time? (cs : List Char) : Option (List Char) := do
  let (_, r) ← field? 2 0 23 cs
  let (_, r) ← field? 2 0 59 (← dropPrefix? [':'] r)
  let (_, r) ← field? 2 0 60 (← dropPrefix? [':'] r)
  match r with
  | '.' :: f =>
    match f.takeWhile Char.isDigit with
    | [] => none
    | _ => return f.dropWhile Char.isDigit
  | r => return r

/-- The text behind an offset from universal time, if there is one. -/
def offset? : List Char → Option (List Char)
  | 'Z' :: r | 'z' :: r => some r
  | '+' :: r | '-' :: r => do
    let (_, r) ← field? 2 0 23 r
    let (_, r) ← field? 2 0 59 (← dropPrefix? [':'] r)
    return r
  | cs => some cs

/-- The moment at the start of a text: a time of day, or a date with or without one. -/
def moment? (cs : List Char) : Option (Item × List Char) :=
  match date? cs with
  | some r =>
    let withTime : Option (List Char) :=
      match r with
      | c :: t => if c = 'T' || c = 't' || c = ' ' then time? t else none
      | [] => none
    match withTime with
    | none => some (.moment, r)
    | some r => (offset? r).map fun rest => (.moment, rest)
  | none => (time? cs).map fun rest => (.moment, rest)

/-- The number or moment at the start of a text. -/
def number? (cs : List Char) : Option (Item × List Char) :=
  match moment? cs with
  | some found => some found
  | none =>
    match float? cs with
    | some found => some found
    | none => integer? cs

end Conformance.Toml
