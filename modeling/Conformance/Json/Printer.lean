import Conformance.Json.Value

/-!
# Writing JSON

The compact form has no spaces. The indented form puts every item and member on a line of its own,
two spaces deeper than what holds it; empty arrays and objects stay on one line.
-/
namespace Conformance.Json

/-- A hexadecimal digit in lower case. -/
def hexDigit (n : Nat) : Char := if n < 10 then Char.ofNat (48 + n) else Char.ofNat (87 + n)

/-- The characters that write `c` inside a string. -/
def escaped (c : Char) : List Char :=
  if c = '"' then ['\\', '"']
  else if c = '\\' then ['\\', '\\']
  else if c = '\x08' then ['\\', 'b']
  else if c = '\t' then ['\\', 't']
  else if c = '\n' then ['\\', 'n']
  else if c = '\x0c' then ['\\', 'f']
  else if c = '\r' then ['\\', 'r']
  else if c.toNat < 0x20 then
    ['\\', 'u', '0', '0', hexDigit (c.toNat / 16), hexDigit (c.toNat % 16)]
  else [c]

/-- A string in quotes. -/
def quoted (s : String) : String :=
  String.ofList ('"' :: s.toList.flatMap escaped ++ ['"'])

mutual

/-- The compact form of a value. -/
def compact : Json → String
  | .null => "null"
  | .bool true => "true"
  | .bool false => "false"
  | .number text => text
  | .str s => quoted s
  | .arr items => "[" ++ compactItems items ++ "]"
  | .obj members => "\x7b" ++ compactMembers members ++ "\x7d"

/-- The compact forms of values, with commas between them. -/
def compactItems : List Json → String
  | [] => ""
  | [v] => compact v
  | v :: w :: r => compact v ++ "," ++ compactItems (w :: r)

/-- The compact forms of members, with commas between them. -/
def compactMembers : List (String × Json) → String
  | [] => ""
  | [(k, v)] => quoted k ++ ":" ++ compact v
  | (k, v) :: m :: r => quoted k ++ ":" ++ compact v ++ "," ++ compactMembers (m :: r)

end

/-- The white space in front of a line `depth` levels deep. -/
def indentation (depth : Nat) : String := String.ofList (List.replicate (2 * depth) ' ')

mutual

/-- The indented form of a value that stands `depth` levels deep. -/
def indentedAt (depth : Nat) : Json → String
  | .arr [] => "[]"
  | .arr (v :: r) =>
    "[\n" ++ indentedItems (depth + 1) (v :: r) ++ "\n" ++ indentation depth ++ "]"
  | .obj [] => "\x7b\x7d"
  | .obj (m :: r) =>
    "\x7b\n" ++ indentedMembers (depth + 1) (m :: r) ++ "\n" ++ indentation depth ++ "\x7d"
  | .null => "null"
  | .bool true => "true"
  | .bool false => "false"
  | .number text => text
  | .str s => quoted s

/-- The lines of the items of an array. -/
def indentedItems (depth : Nat) : List Json → String
  | [] => ""
  | [v] => indentation depth ++ indentedAt depth v
  | v :: w :: r => indentation depth ++ indentedAt depth v ++ ",\n" ++ indentedItems depth (w :: r)

/-- The lines of the members of an object. -/
def indentedMembers (depth : Nat) : List (String × Json) → String
  | [] => ""
  | [(k, v)] => indentation depth ++ quoted k ++ ": " ++ indentedAt depth v
  | (k, v) :: m :: r =>
    indentation depth ++ quoted k ++ ": " ++ indentedAt depth v ++ ",\n" ++
      indentedMembers depth (m :: r)

end

/-- The indented form of a value. -/
def indented (v : Json) : String := indentedAt 0 v

end Conformance.Json
