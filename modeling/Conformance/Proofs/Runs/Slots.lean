import Conformance.Runs.Slots

/-!
# The way of a task

A task that is admitted takes a slot with its permit. It gives the permit back when it ends, whether it puts the slot
back or breaks off.
-/
namespace Conformance.Runs.Slots

variable {s : Slots} {i slot : Nat}

/-- A stage that is put in place is found there. -/
private theorem getElem?_set_of_some {stages : List Stage} {stage : Stage} (h : stages[i]? = some stage)
    (next : Stage) : (stages.set i next)[i]? = some next := by
  obtain ⟨hi, -⟩ := List.getElem?_eq_some_iff.1 h
  exact List.getElem?_set_self hi

theorem step_of_waiting (h : s.stages[i]? = some .waiting) (hp : s.permits ≠ 0) :
    s.step i = { s with permits := s.permits - 1, stages := s.stages.set i .admitted } := by
  simp only [step, step?, h, if_neg hp, Option.getD_some]

theorem step_of_admitted (h : s.stages[i]? = some .admitted) :
    s.step i = { s with free := s.free.tail, stages := s.stages.set i (.holding s.top) } := by
  simp only [step, step?, h, Option.getD_some]

theorem step_of_holding (h : s.stages[i]? = some (.holding slot)) :
    s.step i = { s with free := slot :: s.free, stages := s.stages.set i .leaving } := by
  simp only [step, step?, h, Option.getD_some]

theorem step_of_leaving (h : s.stages[i]? = some .leaving) :
    s.step i = { s with permits := s.permits + 1, stages := s.stages.set i .gone } := by
  simp only [step, step?, h, Option.getD_some]

/-- A task that waits takes a permit and the slot on top. -/
theorem step_step_of_waiting (h : s.stages[i]? = some .waiting) (hp : s.permits ≠ 0) :
    (s.step i).step i = ⟨s.permits - 1, s.free.tail, s.stages.set i (.holding s.top)⟩ := by
  rw [step_of_waiting h hp, step_of_admitted (getElem?_set_of_some h _)]
  simp only [List.set_set, top]

/-- A task that holds a slot puts it back and gives its permit back. -/
theorem step_step_of_holding (h : s.stages[i]? = some (.holding slot)) :
    (s.step i).step i = ⟨s.permits + 1, slot :: s.free, s.stages.set i .gone⟩ := by
  rw [step_of_holding h, step_of_leaving (getElem?_set_of_some h _)]
  simp only [List.set_set]

/-- A task that breaks off gives only its permit back. -/
theorem breakOff_of_holding (h : s.stages[i]? = some (.holding slot)) :
    s.breakOff i = ⟨s.permits + 1, s.free, s.stages.set i .gone⟩ := by
  simp only [breakOff, breakOff?, h, Option.getD_some]

end Conformance.Runs.Slots
