import Conformance.Text.Span

/-!
# Paths

A path is a text of names with slashes between them. What can be said about a path without looking at
any file is said here; the text is kept as it was written.
-/
namespace Conformance.Files

open Text

namespace Path

/-- Whether the path starts at the root. -/
def isAbsolute (path : String) : Bool := path.toList.head? = some '/'

/-- `path` followed by `more`; an absolute `more` stands for itself. -/
def join (path more : String) : String :=
  if isAbsolute more then more
  else if path = "" || path.toList.getLast? = some '/' then path ++ more
  else path ++ "/" ++ more

/-- The names of the path, without empty ones. -/
def names (path : String) : List String :=
  (go [] path.toList).filter (· ≠ "")
where
  go (held : List Char) : List Char → List String
    | [] => [String.ofList held.reverse]
    | '/' :: r => String.ofList held.reverse :: go [] r
    | c :: r => go (c :: held) r

/-- The names of the path without those that mean the directory they stand in, except in front of a
relative path. -/
def components (path : String) : List String :=
  match names path with
  | [] => []
  | n :: r =>
    if n = "." && isAbsolute path then r.filter (· ≠ ".") else n :: r.filter (· ≠ ".")

/-- The last name of the path, if it is the name of a file or a directory. -/
def fileName? (path : String) : Option String :=
  match (components path).getLast? with
  | some n => if n = ".." || n = "." then none else some n
  | none => none

/-- The path without its last name. -/
def parent? (path : String) : Option String :=
  let kept := (components path).dropLast
  let start := if isAbsolute path then "/" else ""
  if (components path).isEmpty then none else some (start ++ "/".intercalate kept)

/-- What follows the last dot of the file's name, if a name precedes the dot. -/
def extension? (path : String) : Option String := do
  let name ← fileName? path
  let (before, after) ← breakAtLast? (· = '.') name.toList
  if before.isEmpty then none else some (String.ofList after)

/-- The names that lead from the root to what the absolute path denotes, when no name on the way is a
link: `.` and `..` are carried out. -/
def resolved (path : String) : List String :=
  (names path).foldl step []
where
  step (done : List String) (name : String) : List String :=
    if name = "." then done else if name = ".." then done.dropLast else done ++ [name]

end Path

end Conformance.Files
