import Conformance.Fault
import Conformance.Files.Disk
import Conformance.Json.Reader

/-!
# Files that a service starts from

A service reads its genesis configuration and a list of checkpoints from its data directory. The
genesis is that of a base file with the owner keys of its delegates moved to another address prefix.
-/
namespace Conformance.Service

open Files Text

/-- The name of the derived genesis file. -/
def genesisFile : String := "genesis.json"

/-- The name of the file of checkpoints. -/
def checkpointsFile : String := "checkpoints.json"

/-- One checkpoint far beyond any block, so that none is ever enforced. -/
def bypassCheckpoints : String :=
  "[[999999999, \"9999999999999999999999999999999999999999\"]]\n"

/-- The owner key under the new prefix, if it begins with a known one; the first known one counts. -/
def rewriteOwner? (newPrefix : String) (known : List String) (owner : String) : Option String :=
  known.findSome? fun k =>
    (dropPrefix? k.toList owner.toList).map fun rest => newPrefix ++ String.ofList rest

/-- A delegate with its owner key rewritten, and whether it was. -/
def rewriteDelegate (newPrefix : String) (known : List String) (delegate : Json) : Json × Bool :=
  match delegate with
  | .obj members =>
    match members.lookup "owner" with
    | some (.str owner) =>
      match rewriteOwner? newPrefix known owner with
      | some owner => (.obj (Json.insertMember "owner" (.str owner) members), true)
      | none => (delegate, false)
    | _ => (delegate, false)
  | _ => (delegate, false)

/-- A genesis with the owner keys of its delegates rewritten, and how many were. -/
def rewritePrefixes (newPrefix : String) (known : List String) (genesis : Json) : Json × Nat :=
  match genesis with
  | .obj members =>
    match members.lookup "delegates" with
    | some (.arr delegates) =>
      let done := delegates.map (rewriteDelegate newPrefix known)
      (.obj (Json.insertMember "delegates" (.arr (done.map (·.1))) members),
        (done.filter (·.2)).length)
    | _ => (genesis, 0)
  | _ => (genesis, 0)

/-- A file operation as part of a run. -/
def fileFault {α : Type} : Except FileError α → Except Fault α
  | .ok a => .ok a
  | .error e => .error (.io e.message)

/-- Derives the genesis file in the data directory, and gives its path. -/
def writeGenesis (disk : Disk) (base dataDir newPrefix : String) (known : List String) :
    Except Fault (String × Disk) :=
  match disk.readText base with
  | .error e => .error (.fileRead base e.message)
  | .ok text =>
    match Json.read? text with
    | none => .error (.json s!"'{base}' holds no JSON value")
    | some genesis => do
      let path := Path.join dataDir genesisFile
      let disk ← fileFault
        (disk.writeText path (rewritePrefixes newPrefix known genesis).1.indented)
      return (path, disk)

/-- Writes the file of checkpoints in the data directory, and gives its path. -/
def writeCheckpoints (disk : Disk) (dataDir : String) : Except Fault (String × Disk) := do
  let path := Path.join dataDir checkpointsFile
  let disk ← fileFault (disk.writeText path bypassCheckpoints)
  return (path, disk)

end Conformance.Service
