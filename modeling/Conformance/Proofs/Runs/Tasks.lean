import Conformance.Runs.Batch

/-!
# The tasks of a batch

However the tasks of a batch are interleaved and however each of them ends, every case is the case of exactly one
task: one that waits, one that runs, or one that has ended. So the reports and the tasks that were lost make up the
cases.
-/
namespace Conformance.Runs

open Cases

namespace Ending

/-- What can come of a task for this case: a report under its name, or none. -/
def IsFor (c : TestCase) (e : Ending) : Prop := ∀ report, e.report? = some report → report.name = c.name

/-- Nothing was reported. -/
def Lost (e : Ending) : Prop := e.report? = none

instance (e : Ending) : Decidable e.Lost := inferInstanceAs (Decidable (_ = _))

/-- It was reported that the run passed. -/
def Passed (e : Ending) : Prop := ∃ report, e.report? = some report ∧ report.outcome = .passed

theorem isFor_lost (echoed : String) (c : TestCase) : (lost echoed).IsFor c := by
  intro report h
  contradiction

theorem not_lost_of_passed {e : Ending} (h : e.Passed) : ¬e.Lost := by
  obtain ⟨report, hreport, -⟩ := h
  intro hlost
  cases hlost.symm.trans hreport

end Ending

/-- The cases whose tasks wait and run, and those whose tasks have ended, with what came of them. -/
structure Tasks where
  waiting : List TestCase
  running : List TestCase
  ended : List (TestCase × Ending)

namespace Tasks

/-- Any task that waits may start, and any task that runs may end, in any way. -/
inductive Step : Tasks → Tasks → Prop
  | launch (front back : List TestCase) (c : TestCase) (running : List TestCase)
      (ended : List (TestCase × Ending)) :
      Step ⟨front ++ c :: back, running, ended⟩ ⟨front ++ back, running ++ [c], ended⟩
  | finish (waiting front back : List TestCase) (c : TestCase) (ended : List (TestCase × Ending)) (e : Ending)
      (h : e.IsFor c) :
      Step ⟨waiting, front ++ c :: back, ended⟩ ⟨waiting, front ++ back, ended ++ [(c, e)]⟩

/-- What a batch of these cases can come to. -/
inductive Run (cases : List TestCase) : Tasks → Prop
  | start : Run cases ⟨cases, [], []⟩
  | step {t t' : Tasks} (h : Run cases t) (hstep : Step t t') : Run cases t'

/-- No task waits or runs. -/
def Over (t : Tasks) : Prop := t.waiting = [] ∧ t.running = []

/-- The cases of all tasks. -/
def cases (t : Tasks) : List TestCase := t.waiting ++ (t.running ++ t.ended.map (·.1))

/-- The endings so far, in the order in which the tasks ended. -/
def endings (t : Tasks) : List Ending := t.ended.map (·.2)

variable {t t' : Tasks} {cs : List TestCase}

/-- One element moved on in a list. -/
private theorem perm_moved {α : Type} (front back rest : List α) (a : α) :
    (front ++ back ++ a :: rest).Perm (front ++ a :: back ++ rest) := by
  have hmoved : (front ++ a :: back ++ rest).Perm (a :: (front ++ back ++ rest)) := by
    rw [List.append_assoc, List.append_assoc]
    exact List.perm_middle
  exact List.perm_middle.trans hmoved.symm

/-- A step moves one case on. -/
theorem Step.cases_perm (h : Step t t') : t'.cases.Perm t.cases := by
  cases h with
  | launch front back c running ended =>
    have hmoved := perm_moved front (back ++ running) (ended.map (·.1)) c
    simpa only [cases, List.append_assoc, List.cons_append, List.nil_append] using hmoved
  | finish waiting front back c ended e h =>
    have hmoved := perm_moved (waiting ++ front) (back ++ ended.map (·.1)) [] c
    simpa only [cases, List.append_assoc, List.cons_append, List.nil_append, List.append_nil, List.map_append,
      List.map_cons, List.map_nil] using hmoved

/-- Every case is the case of exactly one task. -/
theorem Run.cases_perm (h : Run cs t) : t.cases.Perm cs := by
  induction h with
  | start =>
    rw [cases, List.map_nil, List.append_nil, List.append_nil]
  | step _ hstep ih => exact hstep.cases_perm.trans ih

/-- What comes of a task is for the case of the task. -/
theorem Run.isFor (h : Run cs t) : ∀ p ∈ t.ended, p.2.IsFor p.1 := by
  induction h with
  | start =>
    intro p hp
    contradiction
  | step _ hstep ih =>
    cases hstep with
    | launch front back c running ended => exact ih
    | finish waiting front back c ended e he =>
      intro p hp
      rcases List.mem_append.1 hp with hp | hp
      · exact ih p hp
      · obtain rfl := List.mem_singleton.1 hp
        exact he

/-- When no task is left, the tasks that ended are those of the cases. -/
theorem Run.ended_perm (h : Run cs t) (hover : t.Over) : (t.ended.map (·.1)).Perm cs := by
  have hperm := h.cases_perm
  rw [cases, hover.1, hover.2] at hperm
  exact hperm

end Tasks

/-! ## Reports -/

theorem reportsOf_perm (endings : List Ending) : (reportsOf endings).Perm (endings.filterMap (·.report?)) :=
  List.mergeSort_perm _ _

theorem Outcome.isPass_iff {outcome : Outcome} : outcome.isPass = true ↔ outcome = .passed := by
  cases outcome <;> simp [isPass]

/-- All runs passed, as far as they were reported. -/
theorem allPassed_reportsOf_iff (endings : List Ending) :
    allPassed (reportsOf endings) = true ↔ ∀ e ∈ endings, e.Lost ∨ e.Passed := by
  rw [allPassed, List.all_eq_true]
  constructor
  · intro h e he
    cases hr : e.report? with
    | none => exact .inl hr
    | some r =>
      have hmem := (reportsOf_perm endings).mem_iff.2 (List.mem_filterMap.2 ⟨e, he, hr⟩)
      exact .inr ⟨r, hr, Outcome.isPass_iff.1 (h r hmem)⟩
  · intro h r hr
    obtain ⟨e, he, hre⟩ := List.mem_filterMap.1 ((reportsOf_perm endings).mem_iff.1 hr)
    rcases h e he with hlost | ⟨r', hr', hpassed⟩
    · cases hlost.symm.trans hre
    · obtain rfl : r' = r := Option.some.inj (hr'.symm.trans hre)
      exact Outcome.isPass_iff.2 hpassed

/-- There is a report for each task that was not lost. -/
theorem length_reportsOf (endings : List Ending) :
    (reportsOf endings).length + endings.countP (·.Lost) = endings.length := by
  rw [(reportsOf_perm endings).length_eq]
  change (endings.filterMap Ending.report?).length + _ = _
  induction endings with
  | nil => rfl
  | cons e endings ih =>
    cases hr : e.report? with
    | some r =>
      have hlost : ¬e.Lost := by simp [Ending.Lost, hr]
      rw [List.filterMap_cons_some hr, List.countP_cons_of_neg (by simpa using hlost), List.length_cons,
        List.length_cons]
      omega
    | none =>
      have hlost : e.Lost := hr
      rw [List.filterMap_cons_none hr, List.countP_cons_of_pos (by simpa using hlost), List.length_cons]
      omega

/-- The reports are those on the cases whose tasks were not lost. -/
theorem names_reportsOf {ended : List (TestCase × Ending)} (hfor : ∀ p ∈ ended, p.2.IsFor p.1) :
    ((reportsOf (ended.map (·.2))).map (·.name)).Perm ((ended.filter fun p => ¬p.2.Lost).map (·.1.name)) := by
  refine ((reportsOf_perm _).map _).trans ?_
  change (((ended.map (·.2)).filterMap Ending.report?).map (·.name)).Perm _
  induction ended with
  | nil => exact .refl _
  | cons p ended ih =>
    obtain ⟨hp, hfor⟩ := List.forall_mem_cons.1 hfor
    rw [List.map_cons]
    cases hr : p.2.report? with
    | some r =>
      have hlost : ¬p.2.Lost := by simp [Ending.Lost, hr]
      rw [List.filterMap_cons_some hr, List.filter_cons_of_pos (by simpa using hlost), List.map_cons, List.map_cons,
        hp r hr]
      exact (ih hfor).cons _
    | none =>
      have hlost : p.2.Lost := hr
      rw [List.filterMap_cons_none hr, List.filter_cons_of_neg (by simpa using hlost)]
      exact ih hfor

end Conformance.Runs
