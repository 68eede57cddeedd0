import Conformance.Json.Value

/-!
# Reading JSON

A text is read into a value, or refused. Numbers keep their digits; only the exponent is brought
into one form, a small `e` and an explicit sign. Arrays and objects may be nested to a fixed depth.
-/
namespace Conformance.Json

open Text

/-- Separates the tokens of a JSON text. -/
def isSpace (c : Char) : Bool := c = ' ' || c = '\t' || c = '\n' || c = '\r'

/-- The text from its first character that is not a space. -/
def skipSpace (cs : List Char) : List Char := cs.dropWhile isSpace

/-- The arrays and objects that may be open around a value. -/
def maxDepth : Nat := 127

/-- The value of four hexadecimal digits, and the text behind them. -/
def hex4? : List Char → Option (Nat × List Char)
  | a :: b :: c :: d :: r => (natIn? 16 [a, b, c, d]).map fun n => (n, r)
  | _ => none

/-- Whether the code unit is the first of a surrogate pair. -/
def isHighSurrogate (n : Nat) : Bool := 0xD800 ≤ n && n < 0xDC00

/-- Whether the code unit is the second of a surrogate pair. -/
def isLowSurrogate (n : Nat) : Bool := 0xDC00 ≤ n && n < 0xE000

/-- The character that an escape writes (the text starts behind its backslash), and the text behind
it. A surrogate counts only as half of a pair. -/
def escape? : List Char → Option (Char × List Char)
  | '"' :: r => some ('"', r)
  | '\\' :: r => some ('\\', r)
  | '/' :: r => some ('/', r)
  | 'b' :: r => some ('\x08', r)
  | 'f' :: r => some ('\x0c', r)
  | 'n' :: r => some ('\n', r)
  | 'r' :: r => some ('\r', r)
  | 't' :: r => some ('\t', r)
  | 'u' :: r =>
    match hex4? r with
    | none => none
    | some (n, r) =>
      if isLowSurrogate n then none
      else if isHighSurrogate n then
        match r with
        | '\\' :: 'u' :: r =>
          match hex4? r with
          | none => none
          | some (m, r) =>
            if isLowSurrogate m then
              some (Char.ofNat ((n - 0xD800) * 0x400 + (m - 0xDC00) + 0x10000), r)
            else none
        | _ => none
      else some (Char.ofNat n, r)
  | _ => none

theorem length_hex4?_lt {cs r : List Char} {n : Nat} (h : hex4? cs = some (n, r)) :
    r.length < cs.length := by
  unfold hex4? at h
  split at h
  · obtain ⟨m, -, he⟩ := Option.map_eq_some_iff.1 h
    simp only [Prod.mk.injEq] at he
    simp [← he.2]
    omega
  · simp at h

theorem length_escape?_lt {cs r : List Char} {c : Char} (h : escape? cs = some (c, r)) :
    r.length < cs.length := by
  unfold escape? at h
  split at h <;> try (simp only [Option.some.injEq, Prod.mk.injEq] at h; simp [← h.2]; done)
  · rename_i r₀
    split at h
    · simp at h
    · rename_i n r₁ h₁
      have h₁ := length_hex4?_lt h₁
      split at h
      · simp at h
      · split at h
        · split at h
          · rename_i r₂ _
            split at h
            · simp at h
            · rename_i m r₃ h₃
              have h₃ := length_hex4?_lt h₃
              split at h
              · simp only [Option.some.injEq, Prod.mk.injEq] at h
                obtain ⟨-, rfl⟩ := h
                simp only [List.length_cons] at h₁ ⊢
                omega
              · simp at h
          · simp at h
        · simp only [Option.some.injEq, Prod.mk.injEq] at h
          obtain ⟨-, rfl⟩ := h
          simp only [List.length_cons]
          omega
  · simp at h

/-- The characters of a string whose opening quote has been read, and the text behind its closing
quote. Control characters have to be escaped. -/
def stringBody? (cs : List Char) : Option (List Char × List Char) :=
  match cs with
  | [] => none
  | '"' :: r => some ([], r)
  | '\\' :: r =>
    match _h : escape? r with
    | none => none
    | some (c, r') => (stringBody? r').map fun (s, rest) => (c :: s, rest)
  | c :: r =>
    if c.toNat < 0x20 then none
    else (stringBody? r).map fun (s, rest) => (c :: s, rest)
termination_by cs.length
decreasing_by
  · have := length_escape?_lt _h
    simp only [List.length_cons]
    omega
  · simp

/-- The digits at the start of a text, at least one, and the text behind them. -/
def digits? (cs : List Char) : Option (List Char × List Char) :=
  match cs.takeWhile Char.isDigit with
  | [] => none
  | ds => some (ds, cs.dropWhile Char.isDigit)

/-- The whole part of a number: a zero alone, or digits that start with another one. -/
def whole? : List Char → Option (List Char × List Char)
  | '0' :: r =>
    match r with
    | c :: _ => if c.isDigit then none else some (['0'], r)
    | [] => some (['0'], [])
  | cs => digits? cs

/-- The fraction of a number with its point, or nothing. -/
def fraction? : List Char → Option (List Char × List Char)
  | '.' :: r => (digits? r).map fun (ds, rest) => ('.' :: ds, rest)
  | cs => some ([], cs)

/-- The exponent of a number, brought to a small `e` and an explicit sign, or nothing. -/
def exponent? : List Char → Option (List Char × List Char)
  | c :: r =>
    if c = 'e' || c = 'E' then
      match r with
      | '+' :: r => (digits? r).map fun (ds, rest) => ('e' :: '+' :: ds, rest)
      | '-' :: r => (digits? r).map fun (ds, rest) => ('e' :: '-' :: ds, rest)
      | r => (digits? r).map fun (ds, rest) => ('e' :: '+' :: ds, rest)
    else some ([], c :: r)
  | [] => some ([], [])

/-- The number at the start of a text, and the text behind it. -/
def number? (cs : List Char) : Option (List Char × List Char) := do
  let (sign, cs) := match cs with
    | '-' :: r => (['-'], r)
    | cs => ([], cs)
  let (whole, cs) ← whole? cs
  let (fraction, cs) ← fraction? cs
  let (exponent, cs) ← exponent? cs
  return (sign ++ whole ++ fraction ++ exponent, cs)

mutual

/-- The value at the start of a text, inside at most `depth` further arrays and objects, and the
text behind it. -/
def value? (fuel depth : Nat) (cs : List Char) : Option (Json × List Char) :=
  match fuel with
  | 0 => none
  | fuel + 1 =>
    match skipSpace cs with
    | 'n' :: 'u' :: 'l' :: 'l' :: r => some (.null, r)
    | 't' :: 'r' :: 'u' :: 'e' :: r => some (.bool true, r)
    | 'f' :: 'a' :: 'l' :: 's' :: 'e' :: r => some (.bool false, r)
    | '"' :: r => (stringBody? r).map fun (s, rest) => (.str (String.ofList s), rest)
    | '[' :: r =>
      match depth with
      | 0 => none
      | depth + 1 =>
        match skipSpace r with
        | ']' :: r => some (.arr [], r)
        | r => (items? fuel depth r).map fun (items, rest) => (.arr items, rest)
    | '{' :: r =>
      match depth with
      | 0 => none
      | depth + 1 =>
        match skipSpace r with
        | '}' :: r => some (.obj [], r)
        | r => (members? fuel depth r).map fun (members, rest) => (ofMembers members, rest)
    | cs => (number? cs).map fun (text, rest) => (.number (String.ofList text), rest)

/-- The items of an array up to its closing bracket, at least one. -/
def items? (fuel depth : Nat) (cs : List Char) : Option (List Json × List Char) :=
  match fuel with
  | 0 => none
  | fuel + 1 =>
    match value? fuel depth cs with
    | none => none
    | some (v, r) =>
      match skipSpace r with
      | ',' :: r => (items? fuel depth r).map fun (vs, rest) => (v :: vs, rest)
      | ']' :: r => some ([v], r)
      | _ => none

/-- The members of an object up to its closing brace, at least one, in the order of the text. -/
def members? (fuel depth : Nat) (cs : List Char) : Option (List (String × Json) × List Char) :=
  match fuel with
  | 0 => none
  | fuel + 1 =>
    match skipSpace cs with
    | '"' :: r =>
      match stringBody? r with
      | none => none
      | some (name, r) =>
        match skipSpace r with
        | ':' :: r =>
          match value? fuel depth r with
          | none => none
          | some (v, r) =>
            match skipSpace r with
            | ',' :: r =>
              (members? fuel depth r).map fun (ms, rest) => ((String.ofList name, v) :: ms, rest)
            | '}' :: r => some ([(String.ofList name, v)], r)
            | _ => none
        | _ => none
    | _ => none

end

/-- Steps enough to read any text of this length: every second step consumes a character. -/
def fuelFor (cs : List Char) : Nat := 2 * cs.length + 2

/-- The value that the whole text writes, with at most `depth` arrays and objects around a value. -/
def readWithin? (depth : Nat) (cs : List Char) : Option Json :=
  match value? (fuelFor cs) depth cs with
  | some (v, rest) => if (skipSpace rest).isEmpty then some v else none
  | none => none

/-- The value that the whole text writes. -/
def read? (text : String) : Option Json := readWithin? maxDepth text.toList

end Conformance.Json
