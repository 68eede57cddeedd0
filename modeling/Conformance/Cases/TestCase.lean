import Conformance.Cases.Environment
import Conformance.Script.Suite

/-!
# Tests and where they are found

A test is a directory with an environment file. Several tests may stand side by side in one directory;
names that begin with an underscore or a dot, and a marker file, keep a test out of such a search.
-/
namespace Conformance.Cases

open Files

/-- A test with its environment. -/
structure TestCase where
  name : String
  dir : String
  environment : Environment
  deriving Repr, Inhabited

namespace TestCase

/-- The test in a directory. It is named by its environment, or else like its directory. -/
def load (disk : Disk) (dir : String) : Except Fault TestCase := do
  let environment ← Environment.load disk dir
  let name := environment.name.getD ((Path.fileName? dir).getD "test")
  return { name, dir, environment }

end TestCase

/-- The marker of a test that is not ready to be found. -/
def draftMarker : String := "wip"

/-- Whether the directory holds a test. -/
def isTest (disk : Disk) (dir : String) : Bool := disk.isFile (Path.join dir environmentFile)

/-- Whether the name keeps a directory out of the search. -/
def isHidden (name : String) : Bool :=
  name.toList.head? = some '_' || name.toList.head? = some '.'

/-- Whether the name below `dir` is that of a test to be found. -/
def isFound (disk : Disk) (dir name : String) : Bool :=
  let path := Path.join dir name
  !isHidden name && isTest disk path && !disk.exists? (Path.join path draftMarker)

/-- The tests at a path: the one that the path is, or those side by side in it, in the order of their
names. -/
def discoverAt (disk : Disk) (path : String) : Except Fault (List String) :=
  if isTest disk path then .ok [path]
  else if !disk.isDir path then
    .error (.config s!"'{path}' is neither a test nor a directory of tests")
  else
    match disk.list path with
    | .error e => .error (.fileRead path e.message)
    | .ok names =>
      .ok ((Script.sortedNames (names.filter (isFound disk path))).map (Path.join path))

/-- The tests at the paths. -/
def discover (disk : Disk) : List String → Except Fault (List String)
  | [] => .ok []
  | path :: rest => do
    let here ← discoverAt disk path
    return here ++ (← discover disk rest)

end Conformance.Cases
