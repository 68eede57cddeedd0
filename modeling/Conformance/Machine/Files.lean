import Conformance.Json.Reader
import Conformance.Machine.Outside

/-!
# Files for the machine

The files of a machine are handed in as one JSON object from paths to texts. Files whose names end in
`.sh` can be executed.
-/
namespace Conformance.Machine

open Files Service

/-- The disk with a file, and with the directories above it. -/
def withFile (disk : Disk) (path text : String) : Disk :=
  let disk := match Path.parent? path with
    | some dir => (disk.createDirs dir).toOption.getD disk
    | none => disk
  (disk.write path (.text text) (Path.extension? path == some "sh")).toOption.getD disk

/-- The disk with these files, whose paths start from its root. -/
def diskOf (files : List (String × String)) : Disk :=
  files.foldl (fun disk (path, text) => withFile disk path text) ⟨.dir [], "/"⟩

/-- The files that a JSON object gives. -/
def filesOf? (text : String) : Option (List (String × String)) :=
  match Json.read? text with
  | some (.obj members) => members.mapM fun (path, v) => v.str?.map fun text => (path, text)
  | _ => none

/-- A machine with these files and the usual programs, before anything happens on it. -/
def worldOf (files : List (String × String)) : World Machine :=
  { disk := furnished (diskOf files), outside := {} }

end Conformance.Machine
