import Conformance.Fault
import Conformance.Files.Disk
import Conformance.Service.Call

/-!
# What a run deals with

A run touches files, lets time pass, launches programs and sends requests. Files and the clock are kept
here; how programs behave and what comes of requests is left open, and may depend on anything that has
happened before.
-/
namespace Conformance.Service

open Files

/-- How a process ended. -/
inductive ExitStatus where
  | exited (code : Nat)
  | killed (signal : Nat)
  deriving DecidableEq, Repr, Inhabited

/-- The names of the signals. -/
def signalNames : List (Nat × String) :=
  [(1, "SIGHUP"), (2, "SIGINT"), (3, "SIGQUIT"), (4, "SIGILL"), (5, "SIGTRAP"), (6, "SIGABRT"),
    (7, "SIGBUS"), (8, "SIGFPE"), (9, "SIGKILL"), (10, "SIGUSR1"), (11, "SIGSEGV"),
    (12, "SIGUSR2"), (13, "SIGPIPE"), (14, "SIGALRM"), (15, "SIGTERM"), (16, "SIGSTKFLT"),
    (24, "SIGXCPU"), (25, "SIGXFSZ"), (26, "SIGVTALRM"), (27, "SIGPROF"), (29, "SIGIO"),
    (30, "SIGPWR"), (31, "SIGSYS")]

/-- The text of the way a process ended. -/
def ExitStatus.text : ExitStatus → String
  | exited code => s!"exit status: {code}"
  | killed signal =>
    match signalNames.lookup signal with
    | some name => s!"signal: {signal} ({name})"
    | none => s!"signal: {signal}"

/-- A program to be launched. -/
structure Launch where
  /-- The program: a path, which is followed from `directory` if it is relative. -/
  executable : String
  args : List String
  /-- The directory that the program starts in. -/
  directory : String
  /-- The files that take what the program puts out. -/
  stdout : String
  stderr : String
  deriving DecidableEq, Repr, Inhabited

/-- How programs behave and what comes of requests. `σ` is all that this depends on. -/
structure Outside (σ : Type) where
  /-- Launches a program as a process of the given number, or tells why that cannot be done. -/
  launch : Nat → Launch → Disk → σ → Except FileError σ
  /-- Lets milliseconds pass, in which processes may change files. -/
  pass : Nat → Disk → σ → Disk × σ
  /-- How the process of this number ended, if it has. -/
  status : Nat → σ → Option ExitStatus
  /-- Asks a process to end. -/
  terminate : Nat → σ → σ
  /-- Ends a process. -/
  kill : Nat → σ → σ
  /-- Why no requests can be sent at all, if that is so. -/
  unableToSend : σ → Option String := fun _ => none
  /-- Sends a request; the reply takes the given number of milliseconds. -/
  exchange : Endpoint → Request → σ → Exchange × Nat × σ
  /-- The ports that somebody listens on, as far as that can be told. -/
  listening : σ → Option (List UInt16)
  /-- The directories that programs are looked for in. -/
  searchPath : List String

/-- The state of all that a run deals with. -/
structure World (σ : Type) where
  disk : Disk
  /-- The time in milliseconds. -/
  now : Nat := 0
  /-- The number of the next process. -/
  nextProcess : Nat := 1000
  outside : σ

/-- What is done to the world, which may fail on the way. -/
abbrev Effect (σ : Type) := EStateM Fault (World σ)

namespace Effect

variable {σ : Type}

/-- Does something to the files. -/
def onDisk (f : Disk → Except FileError Disk) : Effect σ Unit := do
  let w ← get
  match f w.disk with
  | .ok disk => set { w with disk }
  | .error e => throw (.io e.message)

/-- Does something to the files, with a result. -/
def withDisk {α : Type} (f : Disk → Except Fault (α × Disk)) : Effect σ α := do
  let w ← get
  match f w.disk with
  | .ok (a, disk) => set { w with disk }; return a
  | .error f => throw f

/-- Lets milliseconds pass. -/
def pass (o : Outside σ) (ms : Nat) : Effect σ Unit := modify fun w =>
  let (disk, outside) := o.pass ms w.disk w.outside
  { w with disk, outside, now := w.now + ms }

/-- Changes the state of what lies outside. -/
def outside (f : σ → σ) : Effect σ Unit := modify fun w => { w with outside := f w.outside }

end Effect

end Conformance.Service
