import Conformance.Text.Letter

/-!
# Text in listings

A listing shows a text between double quotes, on one line. Quotes, backslashes and the common
control characters are written as short escapes; every other character that leaves no mark of its
own is written by its code point.
-/
namespace Conformance.Text

/-- The escape that gives the code point of `c` in hexadecimal. -/
def codePoint (c : Char) : List Char :=
  ['\\', 'u', '\x7b'] ++ Nat.toDigits 16 c.toNat ++ ['\x7d']

/-- The characters that show `c` in a listing. -/
def listed (c : Char) : List Char :=
  if c = '\x00' then ['\\', '0']
  else if c = '\t' then ['\\', 't']
  else if c = '\r' then ['\\', 'r']
  else if c = '\n' then ['\\', 'n']
  else if c = '"' then ['\\', '"']
  else if c = '\\' then ['\\', '\\']
  else if isGraphemeExtend c || !isPrintable c then codePoint c
  else [c]

/-- The text as it stands in a listing. -/
def listing (s : String) : String :=
  String.ofList ('"' :: s.toList.flatMap listed ++ ['"'])

end Conformance.Text
