import Conformance.Runs.Report
import Conformance.Runs.Setup
import Conformance.Script.Suite

/-!
# One run

A run sets up its clients, carries out the scripts of the test in the order of their names and stops every
service again, however it ended. Setup and scripts have to be over within the limit for one run; the
services then get a while more to stop.
-/
namespace Conformance.Runs

open Files Service

/-- The name of the file that takes the transcript of a run. -/
def transcriptFile : String := "transcript.txt"

/-- The seconds that a run may take longer than its limit, so that services can stop. -/
def teardownSeconds : Nat := 30

/-- A task ends with a report, or it is lost and nobody hears of it again. Either way it has put something
out while it ran. -/
inductive Ending where
  | reported (report : RunReport) (echoed : String)
  | lost (echoed : String)
  deriving DecidableEq, Repr, Inhabited

/-- The report of an ending. -/
def Ending.report? : Ending → Option RunReport
  | reported report _ => some report
  | lost _ => none

namespace Plan

variable {σ : Type} (o : Outside σ)

/-- Sets up the run and carries out its scripts. Gives how many there were. -/
def perform (p : Plan) : Script.Action (Bench σ) Nat := do
  p.setup o
  let scripts ← Script.runDir (Bench.link o) (·.world.disk) p.case.dir p.settings.runner.scriptExtension
  return scripts.length

/-- The bench that the run starts with. -/
def bench (p : Plan) (ports : Ports.Allocator) (w : World σ) : Bench σ :=
  { world := w
    ports
    limit := w.now + p.settings.timeouts.run.toNat * 1000
    patience := p.settings.timeouts.request.toNat * 1000 }

/-- How the run ended, from the number of scripts or the fault that ended them. -/
def outcome (p : Plan) (calledOff : Bool) (scripts : Except Fault Nat)
    (failures : List Output.Failure) : Outcome :=
  if calledOff then .timedOut
  else
    match scripts with
    | .ok 0 =>
      .aborted (.config
        s!"no .{p.settings.runner.scriptExtension} scripts in '{p.case.dir}'")
    | .ok _ => if failures.isEmpty then .passed else .failed failures
    | .error f => if f.isCancelled then .timedOut else .aborted f

/-- Setup and scripts carried out from the start: what came of them, and the session behind them. -/
def performed (p : Plan) (ports : Ports.Allocator) (w : World σ) :
    Except Fault Nat × Script.Session (Bench σ) :=
  match p.perform o { link := p.bench ports w } with
  | .ok n s => (.ok n, s)
  | .error f s => (.error f, s)

/-- Saves the transcript, and gives its path if that could be done. -/
def saveTranscript (p : Plan) (transcript : String) (disk : Disk) : Option String × Disk :=
  let path := Path.join p.testDir transcriptFile
  match disk.createDirs p.testDir with
  | .error _ => (none, disk)
  | .ok disk =>
    match disk.writeText path transcript with
    | .error _ => (none, disk)
    | .ok disk => (some path, disk)

end Plan

/-- The handles in the order of the names of their clients. -/
def byName (handles : List (String × Handle)) : List Handle :=
  (handles.mergeSort fun a b => a.1 ≤ b.1).map (·.2)

variable {σ : Type} (o : Outside σ)

/-- Stops every service. -/
def stopAll (w : World σ) : List Handle → World σ
  | [] => w
  | h :: rest =>
    match h.stop o w with
    | .ok _ w => stopAll w rest
    | .error _ w => stopAll w rest

/-- Ends every service at once. -/
def releaseAll (w : World σ) : List Handle → World σ
  | [] => w
  | h :: rest =>
    match h.release o w with
    | .ok _ w => releaseAll w rest
    | .error _ w => releaseAll w rest

/-- Stops services until `time`; those that have not stopped by then are ended at once. The one that is
being stopped then is not owned by its handle any more, so the file that records it is left behind. -/
def stopUntil (time : Nat) (w : World σ) : List Handle → World σ
  | [] => w
  | h :: rest =>
    let stopped := stopAll o w [h]
    if stopped.now ≤ time then stopUntil time stopped rest
    else
      let outside := match h.child with
        | some pid => o.terminate pid w.outside
        | none => w.outside
      let (disk, outside) := o.pass (time - w.now) w.disk outside
      let outside := match h.child with
        | some pid => o.kill pid outside
        | none => outside
      releaseAll o { w with disk, outside, now := time } rest

namespace Plan

/-- The report on a run that started at time `start`, from what came of its scripts. The services are
stopped and the transcript is saved. -/
def concluded (p : Plan) (start : Nat) (done : Except Fault Nat × Script.Session (Bench σ)) :
    RunReport × World σ :=
  let s := done.2
  let w := stopAll o s.link.world (byName s.link.handles)
  let (saved, disk) := p.saveTranscript s.transcript w.disk
  ({ name := p.case.name
     outcome := p.outcome s.link.calledOff done.1 s.failures
     elapsed := w.now - start
     transcript := s.transcript
     saved }, { w with disk })

/-- The world that a run leaves in which the program broke down: its services are ended at once. -/
def abandoned (s : Script.Session (Bench σ)) : World σ :=
  releaseAll o s.link.world (byName s.link.handles)

/-- Carries out the run. Nothing is reported when the program breaks down. -/
def runCase (p : Plan) (ports : Ports.Allocator) (w : World σ) : Option RunReport × World σ :=
  let done := p.performed o ports w
  if done.2.crashed then (none, abandoned o done.2) else (p.concluded o w.now done).map some id

/-- The seconds after which a run is given up, even if services have not stopped. They have to be a
64-bit number. -/
def giveUpSeconds? (p : Plan) : Option Nat :=
  let seconds := p.settings.timeouts.run.toNat + teardownSeconds
  if seconds < UInt64.size then some seconds else none

/-- Carries out the run as a task of its own, which is given up when stopping services takes too long.
Nothing comes of a task whose time cannot be told, nor of one in which the program breaks down. -/
def runTask (p : Plan) (ports : Ports.Allocator) (w : World σ) : Ending × World σ :=
  match p.giveUpSeconds? with
  | none => (.lost "", w)
  | some seconds =>
    let performed := p.performed o ports w
    let s := performed.2
    if s.crashed then (.lost s.transcript, abandoned o s)
    else
      let (report, concluded) := p.concluded o w.now performed
      let last := w.now + seconds * 1000
      if concluded.now ≤ last then (.reported report s.transcript, concluded)
      else
        (.reported { name := p.case.name, outcome := .timedOut, elapsed := seconds * 1000 } s.transcript,
          stopUntil o last s.link.world (byName s.link.handles))

end Plan

end Conformance.Runs
