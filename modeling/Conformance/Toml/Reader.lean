import Conformance.Toml.Scalar

/-!
# Reading TOML

A document is a sequence of lines: headers open tables, and the other lines give keys their values in the
table opened last.
-/
namespace Conformance.Toml

open Text

/-- The arrays and inline tables around a value, and the parts of a key, are fewer than this. -/
def depthBound : Nat := 80

/-- Whether the character may stand in a key without quotes. -/
def isBare (c : Char) : Bool :=
  c.isAlphanum || c = '_' || c = '-'

/-- One part of a key, and the text behind it. -/
def keyPart? (cs : List Char) : Option (String × List Char) :=
  match cs with
  | '"' :: _ | '\x27' :: _ => (lineString? cs).map fun (s, rest) => (String.ofList s, rest)
  | cs =>
    match cs.takeWhile isBare with
    | [] => none
    | name => some (String.ofList name, cs.dropWhile isBare)

/-- The parts of a key, and the text behind the blanks behind it. -/
def keyParts? (fuel : Nat) (cs : List Char) : Option (List String × List Char) :=
  match fuel with
  | 0 => none
  | fuel + 1 => do
    let (part, r) ← keyPart? (skipBlanks cs)
    match skipBlanks r with
    | '.' :: r => do
      let (parts, rest) ← keyParts? fuel r
      return (part :: parts, rest)
    | r => return ([part], r)

/-- A key as the path to a table and a name in it. -/
def key? (cs : List Char) : Option ((List String × String) × List Char) := do
  let (parts, rest) ← keyParts? (depthBound - 1) cs
  return ((parts.dropLast, ← parts.getLast?), rest)

/-- The text behind a comment up to its newline, or the same text if no comment is there. -/
def skipComment : List Char → List Char
  | '#' :: r => r.dropWhile isPlain
  | cs => cs

/-- The text behind the end of a line, which may hold a comment. -/
def lineEnd? (cs : List Char) : Option (List Char) :=
  match skipComment (skipBlanks cs) with
  | [] => some []
  | cs => newline? cs

/-- The text behind blanks, newlines and comments. -/
def skipLayout (fuel : Nat) (cs : List Char) : List Char :=
  match fuel with
  | 0 => cs
  | fuel + 1 =>
    match skipComment (skipBlanks cs) with
    | [] => []
    | r =>
      match newline? r with
      | some r => skipLayout fuel r
      | none => r

mutual

/-- The value at the start of a text inside fewer than `depth` further arrays and inline tables, and the
text behind it. -/
def value? (fuel depth : Nat) (cs : List Char) : Option (Item × List Char) :=
  match fuel with
  | 0 => none
  | fuel + 1 =>
    match cs with
    | '"' :: _ | '\x27' :: _ => (string? cs).map fun (s, rest) => (.str (String.ofList s), rest)
    | '[' :: r =>
      if depth ≤ 1 then none
      else (items? fuel (depth - 1) r).map fun (items, rest) => (.array items, rest)
    | '{' :: r =>
      if depth ≤ 1 then none
      else
        match skipBlanks r with
        | '}' :: rest => some (.table .inline [], rest)
        | r => (pairs? fuel (depth - 1) [] r).map fun (entries, rest) => (.table .inline entries, rest)
    | 't' :: 'r' :: 'u' :: 'e' :: r => some (.bool true, r)
    | 'f' :: 'a' :: 'l' :: 's' :: 'e' :: r => some (.bool false, r)
    | 'i' :: 'n' :: 'f' :: r | 'n' :: 'a' :: 'n' :: r => some (.float, r)
    | cs => number? cs

/-- The items of an array behind its opening bracket or a comma. -/
def items? (fuel depth : Nat) (cs : List Char) : Option (List Item × List Char) :=
  match fuel with
  | 0 => none
  | fuel + 1 =>
    match skipLayout cs.length cs with
    | ']' :: r => some ([], r)
    | cs => do
      let (item, r) ← value? fuel depth cs
      match skipLayout r.length r with
      | ',' :: r => do
        let (items, rest) ← items? fuel depth r
        return (item :: items, rest)
      | ']' :: r => return ([item], r)
      | _ => none

/-- The entries of an inline table up to its closing brace, added to those before. -/
def pairs? (fuel depth : Nat) (entries : Entries) (cs : List Char) :
    Option (Entries × List Char) :=
  match fuel with
  | 0 => none
  | fuel + 1 => do
    let ((path, name), r) ← key? cs
    let r ← dropPrefix? ['='] r
    let (item, r) ← value? fuel depth (skipBlanks r)
    let entries ← Entries.addValue path name item .inline entries
    match skipBlanks r with
    | ',' :: r => pairs? fuel depth entries r
    | '}' :: r => return (entries, r)
    | _ => none

end

/-- The table that lines are added to. -/
inductive Opened where
  /-- The document itself, before the first header. -/
  | top
  /-- The table of a header. -/
  | single (path : List String) (name : String)
  /-- One of the tables that share a header. -/
  | several (path : List String) (name : String)
  deriving Repr, Inhabited

/-- A document being read. -/
structure Document where
  /-- What has been read, without the open table. -/
  closed : Entries := []
  /-- The entries of the open table. -/
  current : Entries := []
  opened : Opened := .top
  deriving Repr, Inhabited

namespace Document

/-- All entries, with the open table in its place. -/
def entries? (d : Document) : Option Entries :=
  match d.opened with
  | .top => some d.current
  | .single path name => Entries.closeTable path name d.current d.closed
  | .several path name => Entries.appendTable path name d.current d.closed

/-- The document behind a header. -/
def header? (d : Document) (path : List String) (name : String) : Option Document := do
  let entries ← d.entries?
  let (current, closed) ← Entries.openTable path name entries
  return { closed, current, opened := .single path name }

/-- The document behind a header between double brackets. -/
def headerOfSeveral? (d : Document) (path : List String) (name : String) : Option Document := do
  return { closed := ← d.entries?, current := [], opened := .several path name }

/-- The document behind a key and its value. -/
def pair? (d : Document) (path : List String) (name : String) (item : Item) : Option Document := do
  return { d with current := ← Entries.addValue path name item .header d.current }

end Document

/-- The document behind the line at the start of a text, and the text behind that line. -/
def line? (d : Document) (cs : List Char) : Option (Document × List Char) :=
  match skipBlanks cs with
  | [] => some (d, [])
  | '#' :: r => (lineEnd? ('#' :: r)).map fun rest => (d, rest)
  | '[' :: '[' :: r => do
    let ((path, name), r) ← key? r
    let r ← dropPrefix? [']', ']'] r
    return (← d.headerOfSeveral? path name, ← lineEnd? r)
  | '[' :: r => do
    let ((path, name), r) ← key? r
    let r ← dropPrefix? [']'] r
    return (← d.header? path name, ← lineEnd? r)
  | cs =>
    match newline? cs with
    | some r => some (d, r)
    | none => do
      let ((path, name), r) ← key? cs
      let r ← dropPrefix? ['='] r
      let (item, r) ← value? (2 * r.length + 2) depthBound (skipBlanks r)
      return (← d.pair? path name item, ← lineEnd? r)

/-- The document behind all lines of a text. -/
def linesOf? (fuel : Nat) (d : Document) (cs : List Char) : Option Document :=
  match fuel with
  | 0 => none
  | fuel + 1 =>
    match cs with
    | [] => some d
    | cs => do
      let (d, rest) ← line? d cs
      linesOf? fuel d rest

/-- The entries of the document that a text writes. A byte order mark in front does not count. -/
def read? (text : String) : Option Entries := do
  let cs := match text.toList with
    | '\ufeff' :: r => r
    | cs => cs
  (← linesOf? (cs.length + 1) {} cs).entries?

end Conformance.Toml
