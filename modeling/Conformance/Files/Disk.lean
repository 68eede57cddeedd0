import Conformance.Files.Path

/-!
# Files and directories

A disk is a tree of directories with files as leaves, and the directory that relative paths start
from. Operations on it give the changed disk or the reason why they cannot be done.
-/
namespace Conformance.Files

/-- What a file holds. -/
inductive Content where
  | text (s : String)
  /-- Bytes that are not UTF-8. -/
  | bytes (b : List UInt8)
  deriving DecidableEq, Repr, Inhabited

/-- The content with these bytes. -/
def Content.ofBytes (b : List UInt8) : Content :=
  match String.fromUTF8? ⟨b.toArray⟩ with
  | some s => text s
  | none => bytes b

/-- A file or a directory. -/
inductive Entry where
  | file (content : Content) (executable : Bool)
  | dir (entries : List (String × Entry))
  deriving Repr, Inhabited

/-- Why a file operation cannot be done. -/
inductive FileError where
  | notFound
  | notDirectory
  | isDirectory
  | present
  | notText
  | notExecutable
  | badFormat
  deriving DecidableEq, Repr, Inhabited

/-- The text of the reason. -/
def FileError.message : FileError → String
  | notFound => "No such file or directory (os error 2)"
  | notDirectory => "Not a directory (os error 20)"
  | isDirectory => "Is a directory (os error 21)"
  | present => "File exists (os error 17)"
  | notText => "stream did not contain valid UTF-8"
  | notExecutable => "Permission denied (os error 13)"
  | badFormat => "Exec format error (os error 8)"

namespace Entry

/-- Whether the entry is a directory. -/
def isDir : Entry → Bool
  | dir _ => true
  | file .. => false

/-- The entry that the names lead to. -/
def at? (e : Entry) : List String → Option Entry
  | [] => some e
  | name :: rest =>
    match e with
    | dir entries =>
      match entries.lookup name with
      | some child => child.at? rest
      | none => none
    | file .. => none

/-- The entries with the one called `name` set, or removed. -/
def setChild (name : String) (child : Option Entry) : List (String × Entry) → List (String × Entry)
  | [] => child.toList.map fun c => (name, c)
  | (n, e) :: r =>
    if n = name then
      match child with
      | some c => (n, c) :: r
      | none => setChild name none r
    else (n, e) :: setChild name child r

/-- The entry with the one that the names lead to set, or removed. Names that lead nowhere become
directories. -/
def setAt (e : Entry) (names : List String) (child : Option Entry) : Entry :=
  match names with
  | [] => child.getD e
  | name :: rest =>
    match e with
    | file .. => e
    | dir entries =>
      match rest with
      | [] => dir (setChild name child entries)
      | _ =>
        let inner := (entries.lookup name).getD (dir [])
        dir (setChild name (some (inner.setAt rest child)) entries)

end Entry

/-- A tree of files, and the absolute path of the directory that relative paths start from. -/
structure Disk where
  root : Entry
  here : String
  deriving Repr, Inhabited

namespace Disk

/-- The names of a path to follow, where a slash at the end asks for a directory. -/
def steps (path : String) : List String :=
  Path.names path ++ if path.toList.getLast? = some '/' then ["."] else []

/-- Follows names from the directory `done`. All but the last have to lead to directories. -/
def follow (root : Entry) (done : List String) : List String → Except FileError (List String)
  | [] => .ok done
  | name :: rest =>
    match root.at? done with
    | none => .error .notFound
    | some (.file ..) => .error .notDirectory
    | some (.dir _) =>
      follow root
        (if name = "." then done else if name = ".." then done.dropLast else done ++ [name]) rest

/-- Where the path leads, if all names but the last are directories. -/
def locate (d : Disk) (path : String) : Except FileError (List String) :=
  if path = "" then .error .notFound else follow d.root [] (steps (Path.join d.here path))

/-- What the path leads to. -/
def entry (d : Disk) (path : String) : Except FileError Entry :=
  match d.locate path with
  | .error e => .error e
  | .ok names =>
    match d.root.at? names with
    | some e => .ok e
    | none => .error .notFound

/-- Whether the path leads to a file. -/
def isFile (d : Disk) (path : String) : Bool :=
  match d.entry path with
  | .ok (.file ..) => true
  | _ => false

/-- Whether the path leads to a directory. -/
def isDir (d : Disk) (path : String) : Bool :=
  match d.entry path with
  | .ok (.dir _) => true
  | _ => false

/-- Whether the path leads anywhere. -/
def exists? (d : Disk) (path : String) : Bool := (d.entry path).isOk

/-- Whether the path leads to a file that can be executed. -/
def isProgram (d : Disk) (path : String) : Bool :=
  match d.entry path with
  | .ok (.file _ executable) => executable
  | _ => false

/-- The first program of this name in the directories. -/
def findProgram? (d : Disk) (dirs : List String) (name : String) : Option String :=
  (dirs.map fun dir => Path.join dir name).find? d.isProgram

/-- The text of a file. -/
def readText (d : Disk) (path : String) : Except FileError String :=
  match d.entry path with
  | .error e => .error e
  | .ok (.dir _) => .error .isDirectory
  | .ok (.file (.text s) _) => .ok s
  | .ok (.file (.bytes _) _) => .error .notText

/-- The names in a directory. -/
def list (d : Disk) (path : String) : Except FileError (List String) :=
  match d.entry path with
  | .error e => .error e
  | .ok (.dir entries) => .ok (entries.map (·.1))
  | .ok (.file ..) => .error .notDirectory

/-- The disk with the directories of the path created where they are missing. -/
def createDirs (d : Disk) (path : String) : Except FileError Disk :=
  if path = "" then .ok d else go d [] (Path.names (Path.join d.here path))
where
  go (d : Disk) (done : List String) : List String → Except FileError Disk
    | [] => .ok d
    | name :: rest =>
      let next :=
        if name = "." then done else if name = ".." then done.dropLast else done ++ [name]
      match d.root.at? next with
      | some (.dir _) => go d next rest
      | some (.file ..) => .error (if rest.isEmpty then .present else .notDirectory)
      | none => go { d with root := d.root.setAt next (some (.dir [])) } next rest

/-- The disk with the file written. Its directory has to be there. -/
def write (d : Disk) (path : String) (content : Content) (executable : Bool) :
    Except FileError Disk :=
  match d.locate path with
  | .error e => .error e
  | .ok names =>
    match d.root.at? names with
    | some (.dir _) => .error .isDirectory
    | some (.file _ x) => .ok { d with root := d.root.setAt names (some (.file content x)) }
    | none =>
      if d.root.at? names.dropLast |>.any (·.isDir) then
        .ok { d with root := d.root.setAt names (some (.file content executable)) }
      else .error .notFound

/-- The disk with a text written to the file. -/
def writeText (d : Disk) (path text : String) : Except FileError Disk :=
  d.write path (.text text) false

/-- The disk without the directory and all that is in it. -/
def removeDir (d : Disk) (path : String) : Except FileError Disk :=
  match d.locate path with
  | .error e => .error e
  | .ok names =>
    match d.root.at? names with
    | some (.dir _) => .ok { d with root := d.root.setAt names none }
    | some (.file ..) => .error .notDirectory
    | none => .error .notFound

/-- The disk without the file. -/
def removeFile (d : Disk) (path : String) : Except FileError Disk :=
  match d.locate path with
  | .error e => .error e
  | .ok names =>
    match d.root.at? names with
    | some (.dir _) => .error .isDirectory
    | some (.file ..) => .ok { d with root := d.root.setAt names none }
    | none => .error .notFound

end Disk

mutual

/-- All files below the entry, by their paths relative to it. -/
def Entry.files (above : String) : Entry → List (String × Content)
  | .file content _ => [(above, content)]
  | .dir entries => filesOf above entries

/-- All files of the entries of a directory. -/
def filesOf (above : String) : List (String × Entry) → List (String × Content)
  | [] => []
  | (name, e) :: r =>
    Entry.files (if above = "" then name else above ++ "/" ++ name) e ++ filesOf above r

end

end Conformance.Files
