/-!
# Who may run

At most so many tasks run at once as there are permits. Each running task holds a slot of its own, a
number below the number of permits; slots that nobody holds lie on a stack. A task waits until it is
admitted with a permit, takes the slot on top, puts it back when its run is over, and leaves with its
permit given back. A task may also break off while it holds a slot: the permit comes back and the slot
does not.
-/
namespace Conformance.Runs

/-- How far a task has come. -/
inductive Stage where
  | waiting
  /-- With a permit. -/
  | admitted
  /-- With a permit and a slot. -/
  | holding (slot : Nat)
  /-- With a permit, behind its run. -/
  | leaving
  | gone
  deriving DecidableEq, Repr, Inhabited

/-- The permits and slots that nobody has, and how far each task has come. -/
structure Slots where
  permits : Nat
  free : List Nat
  stages : List Stage
  deriving DecidableEq, Repr, Inhabited

namespace Slots

/-- So many tasks before any of them is admitted. -/
def start (jobs tasks : Nat) : Slots := ⟨jobs, List.range jobs, List.replicate tasks .waiting⟩

/-- The slot that the next task takes: the one on top, or the first of all when the stack is empty. -/
def top (s : Slots) : Nat := s.free.headD 0

/-- The task `i` takes its next step, if it can. -/
def step? (s : Slots) (i : Nat) : Option Slots :=
  match s.stages[i]? with
  | some .waiting =>
    if s.permits = 0 then none
    else some { s with permits := s.permits - 1, stages := s.stages.set i .admitted }
  | some .admitted => some { s with free := s.free.tail, stages := s.stages.set i (.holding s.top) }
  | some (.holding slot) => some { s with free := slot :: s.free, stages := s.stages.set i .leaving }
  | some .leaving => some { s with permits := s.permits + 1, stages := s.stages.set i .gone }
  | _ => none

/-- The task `i` breaks off while it holds a slot. -/
def breakOff? (s : Slots) (i : Nat) : Option Slots :=
  match s.stages[i]? with
  | some (.holding _) => some { s with permits := s.permits + 1, stages := s.stages.set i .gone }
  | _ => none

/-- The slot that the task `i` holds. -/
def held? (s : Slots) (i : Nat) : Option Nat :=
  match s.stages[i]? with
  | some (.holding slot) => some slot
  | _ => none

/-- The task `i` takes its next step; nothing changes if it cannot. -/
def step (s : Slots) (i : Nat) : Slots := (s.step? i).getD s

/-- The task `i` breaks off; nothing changes if it holds no slot. -/
def breakOff (s : Slots) (i : Nat) : Slots := (s.breakOff? i).getD s

end Slots

end Conformance.Runs
