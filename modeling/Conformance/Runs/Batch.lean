import Conformance.Runs.Run
import Conformance.Runs.Slots

/-!
# Running tests together

Each test is run as a task of its own, at most so many at a time as the settings say. The slot of a task
says which part of the range of ports its services may use, so that tests that run at the same time do
not meet. What happens in a run is worked out when it starts; the run ends, as far as the other tasks can
see, when its time is over.
-/
namespace Conformance.Runs

open Service Cases Config

/-- A task that has started: which one it is, when its run is over, and what comes of it. -/
structure Running where
  task : Nat
  finish : Nat
  ending : Ending
  deriving Repr, Inhabited

/-- The state of the tasks. -/
structure Batch (σ : Type) where
  world : World σ
  slots : Slots
  waiting : List (Nat × TestCase)
  running : List Running := []
  /-- What came of the tasks that are over, in the order in which they ended. -/
  ended : List Ending := []

/-- How many tests run at once. -/
def jobsFor (s : Settings) (tests : Nat) : Nat := Nat.max 1 (Nat.min s.runner.jobs (Nat.max tests 1))

/-- The one of the running tasks whose run is over first, and the others. -/
def firstOver : List Running → Option (Running × List Running)
  | [] => none
  | r :: rest =>
    match firstOver rest with
    | none => some (r, [])
    | some (q, others) => if q.finish < r.finish then some (q, r :: others) else some (r, rest)

namespace Batch

variable {σ : Type} (o : Outside σ)

/-- The state before any test is run. -/
def start (s : Settings) (cases : List TestCase) (world : World σ) : Batch σ :=
  { world
    slots := .start (jobsFor s cases.length) cases.length
    waiting := (List.range cases.length).zip cases }

/-- What comes of a test in this slot. -/
def runIn (s : Settings) (jobs : Nat) (case : TestCase) (slot : Nat) (w : World σ) :
    Ending × World σ :=
  match Ports.Allocator.slice s.ports slot jobs with
  | .error f => (.reported { name := case.name, outcome := .aborted f } "", w)
  | .ok ports => Plan.runTask o ⟨s, case⟩ ports w

/-- The first waiting task is admitted, takes its slot and starts. -/
def launchNext (s : Settings) (jobs task : Nat) (case : TestCase) (rest : List (Nat × TestCase))
    (b : Batch σ) : Batch σ :=
  let slots := (b.slots.step task).step task
  let (ending, w) := runIn o s jobs case ((slots.held? task).getD 0) b.world
  { b with
    world := { w with now := b.world.now }
    slots
    waiting := rest
    running := b.running ++ [⟨task, w.now, ending⟩] }

/-- A running task ends: it puts its slot back and leaves, or breaks off if it is lost. -/
def finish (r : Running) (others : List Running) (b : Batch σ) : Batch σ :=
  { b with
    world := { b.world with now := Nat.max b.world.now r.finish }
    slots := match r.ending with
      | .reported .. => (b.slots.step r.task).step r.task
      | .lost _ => b.slots.breakOff r.task
    running := others
    ended := b.ended ++ [r.ending] }

/-- Goes on for at most `n` steps: a task is admitted if there is a permit for it, or else the run that
is over first ends. -/
def advance (s : Settings) (jobs : Nat) : Nat → Batch σ → Batch σ
  | 0, b => b
  | n + 1, b =>
    match b.waiting with
    | (task, case) :: rest =>
      if b.slots.permits = 0 then
        match firstOver b.running with
        | some (r, others) => advance s jobs n (b.finish r others)
        | none => b
      else advance s jobs n (b.launchNext o s jobs task case rest)
    | [] =>
      match firstOver b.running with
      | some (r, others) => advance s jobs n (b.finish r others)
      | none => b

/-- All tasks run to their end. Each of them is admitted once and ends once. -/
def run (s : Settings) (cases : List TestCase) (world : World σ) : Batch σ :=
  advance o s (jobsFor s cases.length) (2 * cases.length) (start s cases world)

end Batch

/-- The reports among the endings, in the order of the names of the tests. -/
def reportsOf (endings : List Ending) : List RunReport :=
  (endings.filterMap (·.report?)).mergeSort fun a b => a.name ≤ b.name

/-- What is shown while tests run. When they run one at a time, transcripts are shown as they grow; when
several run at once, with the report of each. -/
def shownText (time : Nat → String) (verbose : Bool) (jobs : Nat) (endings : List Ending) : String :=
  let echo := verbose && jobs == 1
  String.join (endings.map fun
    | .reported report echoed => (if echo then echoed else "") ++ report.shown time (verbose && !echo)
    | .lost echoed => if echo then echoed else "")

end Conformance.Runs
