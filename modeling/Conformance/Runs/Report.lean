import Conformance.Fault
import Conformance.Output.Report

/-!
# Reports on runs

What is said about a run when it ends, and about all runs together.
-/
namespace Conformance.Runs

open Output

/-- How a run ended. -/
inductive Outcome where
  | passed
  /-- The scripts ran to their end, with these mismatches. -/
  | failed (failures : List Failure)
  /-- A fault ended the run. -/
  | aborted (fault : Fault)
  | timedOut
  deriving DecidableEq, Repr, Inhabited

/-- Whether nothing went wrong. -/
def Outcome.isPass : Outcome → Bool
  | passed => true
  | _ => false

/-- A run that has ended. -/
structure RunReport where
  name : String
  outcome : Outcome
  /-- How long the run took, in milliseconds. -/
  elapsed : Nat := 0
  transcript : String := ""
  /-- Where the transcript was saved, if it could be. -/
  saved : Option String := none
  deriving DecidableEq, Repr, Inhabited

/-- A time of milliseconds in seconds with one decimal, in parentheses. -/
def secondsText (ms : Nat) : String :=
  let tenths := (ms + 50) / 100
  s!"({tenths / 10}.{tenths % 10}s)"

namespace RunReport

/-- The line that is shown when the run ends. `time` writes how long it took. -/
def line (time : Nat → String) (r : RunReport) : String :=
  match r.outcome with
  | .passed => s!"✓ {r.name} {time r.elapsed}\n"
  | .failed failures => s!"✗ {r.name} {time r.elapsed}: {summary failures}\n"
  | .aborted f => s!"✗ {r.name} {time r.elapsed}: {f.message}\n"
  | .timedOut => s!"⏱ {r.name} timed out\n"

/-- What is shown when the run ends: its line, and before that its transcript if it is asked for. -/
def shown (time : Nat → String) (withTranscript : Bool) (r : RunReport) : String :=
  (if withTranscript && r.transcript ≠ "" then s!"\n--- {r.name} ---\n{r.transcript}" else "") ++
    r.line time

end RunReport

/-- The messages of what is behind a fault, from the nearest on. -/
def causes : Fault → List String
  | .command _ _ source => source.message :: causes source
  | .io m | .json m | .yaml m => [m]
  | _ => []

/-- What is shown about a run when all have ended. Nothing is said about one that passed or took too
long. -/
def RunReport.details (r : RunReport) : String :=
  match r.outcome with
  | .passed | .timedOut => ""
  | .failed failures =>
    let path := match r.saved with
      | some path => s!"  Transcript: {path}\n"
      | none => ""
    s!"\nMismatches in {r.name}\n{render failures}{path}"
  | .aborted f =>
    String.join (s!"\nAborted {r.name}\n  {f.message}\n" ::
      (causes f).map fun m => s!"  caused by: {m}\n")

/-- Whether every run passed. -/
def allPassed (reports : List RunReport) : Bool := reports.all (·.outcome.isPass)

/-- What is shown when all runs have ended. -/
def summaryText (reports : List RunReport) : String :=
  let passed := reports.countP (·.outcome.isPass)
  let failed := reports.length - passed
  let mark := if failed = 0 then "✓" else "✗"
  String.join (reports.map (·.details)) ++ s!"\n{mark} {passed} passed, {failed} failed\n"

end Conformance.Runs
