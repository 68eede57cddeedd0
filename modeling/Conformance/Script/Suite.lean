import Conformance.Files.Disk
import Conformance.Script.Run

/-!
# Running script files

The scripts of a directory are the files of one extension, and run in the order of their names.
-/
namespace Conformance.Script

open Files

/-- The names in order, from least to greatest. -/
def sortedNames (names : List String) : List String := names.mergeSort fun a b => a ≤ b

/-- The script files of a directory, in the order of their names. -/
def scriptFiles (disk : Disk) (dir extension : String) : Except Fault (List String) :=
  match disk.list dir with
  | .error e => .error (.fileRead dir e.message)
  | .ok names =>
    .ok (((sortedNames names).map (Path.join dir)).filter fun path =>
      disk.isFile path && Path.extension? path = some extension)

variable {σ : Type}

/-- Runs the script in a file. It is read when its turn comes: `disk` gives the files at that time, which
scripts before may have had changed. -/
def runFile (link : Link σ) (disk : σ → Disk) (path : String) : Action σ Unit := do
  match (disk (← get).link).readText path with
  | .error e => throw (.fileRead path e.message)
  | .ok src => runScript link path src

/-- Runs script files in order. -/
def runFiles (link : Link σ) (disk : σ → Disk) : List String → Action σ Unit
  | [] => pure ()
  | path :: rest => do
    runFile link disk path
    runFiles link disk rest

/-- Runs the scripts that are in a directory at first, and gives back their paths. -/
def runDir (link : Link σ) (disk : σ → Disk) (dir extension : String) : Action σ (List String) := do
  match scriptFiles (disk (← get).link) dir extension with
  | .error f => throw f
  | .ok paths =>
    runFiles link disk paths
    return paths

end Conformance.Script
