import Conformance.Service.Genesis
import Conformance.Service.Launch
import Conformance.Service.World

/-!
# Handles of service processes

A handle owns at most one process: it prepares the data directory, launches the service, records the number
of the process in a file as long as it is owned, and stops it again. Stopping may be done at any time and
any number of times.
-/
namespace Conformance.Service

open Files

/-- The milliseconds between two looks at a process. -/
def pollInterval : Nat := 250

/-- The file in the data directory that takes what the service puts out. -/
def stdoutFile : String := "stdout.txt"

/-- The file in the data directory that takes what the service complains about. -/
def stderrFile : String := "stderr.txt"

/-- A service to be launched, and the process that runs it. -/
structure Handle where
  spec : LaunchSpec
  /-- The number of the owned process. -/
  child : Option Nat := none
  /-- The number of the process that was started last, which may have been stopped since. -/
  pid : Option Nat := none
  deriving DecidableEq, Repr, Inhabited

namespace Handle

variable {σ : Type} (o : Outside σ)

/-- Whether the owned process has not ended yet. -/
def isRunning (h : Handle) (w : World σ) : Bool :=
  h.child.any fun pid => (o.status pid w.outside).isNone

/-- What is said when the service ends before it was ready. -/
def exitFault (h : Handle) (status : ExitStatus) : Fault :=
  .processStart (String.join [s!"'{h.spec.name}' exited before answering RPC ({status.text}), see ",
    Path.join h.spec.dataDir stderrFile])

/-- The file that records the number of the owned process removed, if it is there. -/
def dropPidFile (h : Handle) : Effect σ Unit := modify fun w =>
  match w.disk.removeFile h.spec.pidFile with
  | .ok disk => { w with disk }
  | .error _ => w

/-- Prepares the data directory: the genesis of its own if there is one to derive it from, checkpoints,
and empty files for what the service puts out. Gives the path of the genesis. -/
def prepare (spec : LaunchSpec) : Effect σ (Option String) := do
  Effect.onDisk (·.createDirs spec.dataDir)
  let genesis ← match spec.genesis with
    | some base =>
      let path ← Effect.withDisk fun disk =>
        writeGenesis disk base spec.dataDir spec.addressPrefix spec.knownPrefixes
      pure (some path)
    | none => pure none
  let _ ← Effect.withDisk fun disk => writeCheckpoints disk spec.dataDir
  Effect.onDisk (·.writeText (Path.join spec.dataDir stdoutFile) "")
  Effect.onDisk (·.writeText (Path.join spec.dataDir stderrFile) "")
  return genesis

/-- Launches the service and gives the number of its process. -/
def launch (spec : LaunchSpec) (genesis : Option String) : Effect σ Nat := do
  let w ← get
  let launch : Launch :=
    { executable := spec.executable, args := spec.args genesis, directory := spec.dataDir,
      stdout := Path.join spec.dataDir stdoutFile, stderr := Path.join spec.dataDir stderrFile }
  match o.launch w.nextProcess launch w.disk w.outside with
  | .error e => throw (.processStart s!"{spec.name} ({spec.executable}): {e.message}")
  | .ok outside =>
    set { w with outside, nextProcess := w.nextProcess + 1 }
    return w.nextProcess

/-- Records the number of a process in a file. A process that cannot be recorded is ended. -/
def recordPid (spec : LaunchSpec) (pid : Nat) : Effect σ Unit := do
  try
    match Path.parent? spec.pidFile with
    | some dir => Effect.onDisk (·.createDirs dir)
    | none => pure ()
    Effect.onDisk (·.writeText spec.pidFile (toString pid ++ "\n"))
  catch f =>
    Effect.outside (o.kill pid)
    throw f

/-- Prepares the data directory and launches the service. -/
def start (h : Handle) : Effect σ Handle := do
  if h.child.isSome then throw (.alreadyStarted h.spec.name)
  let genesis ← prepare h.spec
  let pid ← launch o h.spec genesis
  recordPid o h.spec pid
  return { h with child := some pid, pid := some pid }

/-- Waits until the process has ended or so many looks, with `interval` between them, have been
taken. Gives whether it has ended. -/
def awaitExit (pid interval : Nat) : Nat → Effect σ Bool
  | 0 => return (o.status pid (← get).outside).isSome
  | n + 1 => do
    if (o.status pid (← get).outside).isSome then return true
    Effect.pass o interval
    awaitExit pid interval n

/-- Waits at most `grace` milliseconds until the process has ended. -/
def awaitExitFor (pid grace : Nat) : Effect σ Bool :=
  let interval := Nat.min pollInterval grace
  awaitExit o pid interval ((grace + interval - 1) / Nat.max interval 1)

/-- Stops the service: it is asked to end, and after its grace it is ended. -/
def stop (h : Handle) : Effect σ Handle := do
  match h.child with
  | none =>
    h.dropPidFile
    return h
  | some pid =>
    if (o.status pid (← get).outside).isNone then
      Effect.outside (o.terminate pid)
      if !(← awaitExitFor o pid h.spec.stopGrace) then
        Effect.outside (o.kill pid)
        let _ ← awaitExitFor o pid h.spec.stopGrace
    h.dropPidFile
    return { h with child := none }

/-- Ends the owned process at once, and removes the file that records it. -/
def release (h : Handle) : Effect σ Unit := do
  match h.child with
  | some pid =>
    Effect.outside (o.kill pid)
    h.dropPidFile
  | none => pure ()

end Handle

end Conformance.Service
