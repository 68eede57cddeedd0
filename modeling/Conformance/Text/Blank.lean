/-!
# Blank characters

Three notions of a blank character and what is done with them: the blanks that separate the tokens
of a script line, the blanks that separate the words of captured output, and the property
`White_Space` of the Unicode standard, which trims commands and splits them into words.
-/
namespace Conformance.Text

/-- Separates the tokens of a script line: space, tab, form feed, vertical tab. -/
def isInlineBlank (c : Char) : Bool :=
  c = ' ' || c = '\t' || c = '\x0c' || c = '\x0b'

/-- Separates the words of captured output: the inline blanks and the two newline characters. -/
def isOutputBlank (c : Char) : Bool :=
  isInlineBlank c || c = '\r' || c = '\n'

/-- The Unicode property `White_Space`. -/
def isWhite (c : Char) : Bool :=
  let n := c.toNat
  (9 ≤ n && n ≤ 13) || n = 0x20 || n = 0x85 || n = 0xA0 || n = 0x1680 ||
    (0x2000 ≤ n && n ≤ 0x200A) || n = 0x2028 || n = 0x2029 || n = 0x202F || n = 0x205F ||
    n = 0x3000

/-- The text without the white characters at its start. -/
def trimLeft (cs : List Char) : List Char := cs.dropWhile isWhite

/-- The text without the white characters at its end. -/
def trimRight (cs : List Char) : List Char := (cs.reverse.dropWhile isWhite).reverse

/-- The text without the white characters at either end. -/
def trim (cs : List Char) : List Char := trimRight (trimLeft cs)

/-- The maximal runs of characters outside `sep`, from left to right. -/
def runs (sep : Char → Bool) : List Char → List (List Char)
  | [] => []
  | c :: r =>
    if sep c then runs sep r
    else match r with
      | [] => [[c]]
      | d :: _ =>
        if sep d then [c] :: runs sep r
        else match runs sep r with
          | [] => [[c]]
          | w :: ws => (c :: w) :: ws

/-- The maximal runs of characters that are not white. -/
def words (cs : List Char) : List (List Char) := runs isWhite cs

end Conformance.Text

namespace String

/-- The string without the white characters at either end. -/
def trimWhite (s : String) : String := ofList (Conformance.Text.trim s.toList)

/-- The maximal runs of characters of the string that are not white. -/
def whiteWords (s : String) : List String := (Conformance.Text.words s.toList).map ofList

end String
