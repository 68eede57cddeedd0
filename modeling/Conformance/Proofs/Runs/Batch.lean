import Conformance.Proofs.Runs.Slots
import Conformance.Proofs.Runs.Tasks

/-!
# A batch runs all its tasks

The steps of a batch are steps of its tasks, and there are enough of them: when a batch is over, no task waits or
runs. What a task ends with is what came of its case in some slot.
-/
namespace Conformance.Runs

open Cases Config Service

/-! ## One task -/

namespace Batch

variable {σ : Type} (o : Outside σ)

/-- Whatever comes of a test is reported under its name. -/
theorem isFor_runIn (s : Settings) (jobs : Nat) (case : TestCase) (slot : Nat) (w : World σ) :
    (runIn o s jobs case slot w).1.IsFor case := by
  intro report h
  unfold runIn Plan.runTask at h
  split at h
  · obtain rfl := Option.some.inj h
    rfl
  · split at h
    · contradiction
    · dsimp only at h
      split at h
      · contradiction
      · split at h
        · obtain rfl := Option.some.inj h
          rfl
        · obtain rfl := Option.some.inj h
          rfl

/-- A task is lost exactly if it has ports and either its time limit is no 64-bit number or the program breaks down
in its run. -/
theorem lost_runIn_iff (s : Settings) (jobs : Nat) (case : TestCase) (slot : Nat) (w : World σ) :
    (runIn o s jobs case slot w).1.Lost ↔ ∃ ports, Ports.Allocator.slice s.ports slot jobs = .ok ports ∧
      (UInt64.size ≤ s.timeouts.run.toNat + teardownSeconds ∨
        (Plan.performed o ⟨s, case⟩ ports w).2.crashed = true) := by
  unfold runIn
  cases hports : Ports.Allocator.slice s.ports slot jobs with
  | error f =>
    constructor
    · intro h
      contradiction
    · rintro ⟨ports, h, -⟩
      contradiction
  | ok ports =>
    simp only [Except.ok.injEq, exists_eq_left']
    unfold Plan.runTask Plan.giveUpSeconds?
    by_cases hlimit : s.timeouts.run.toNat + teardownSeconds < UInt64.size
    · simp only [if_pos hlimit, Nat.not_le.2 hlimit, false_or]
      by_cases hcrashed : (Plan.performed o ⟨s, case⟩ ports w).2.crashed = true
      · simp only [hcrashed, if_true, iff_true]
        rfl
      · simp only [hcrashed, Bool.false_eq_true, if_false, iff_false]
        split
        · simp [Ending.Lost, Ending.report?]
        · simp [Ending.Lost, Ending.report?]
    · simp only [if_neg hlimit, Nat.not_lt.1 hlimit, true_or, iff_true]
      rfl

end Batch

/-! ## Which run is over first -/

theorem firstOver_eq_none {running : List Running} (h : firstOver running = none) : running = [] := by
  cases running with
  | nil => rfl
  | cons r running =>
    unfold firstOver at h
    split at h
    · contradiction
    · split at h
      · contradiction
      · contradiction

/-- The run that is over first is taken out from among the others. -/
theorem firstOver_eq_some {running others : List Running} {r : Running}
    (h : firstOver running = some (r, others)) :
    ∃ front back, running = front ++ r :: back ∧ others = front ++ back := by
  induction running generalizing r others with
  | nil => contradiction
  | cons q running ih =>
    unfold firstOver at h
    cases hrest : firstOver running with
    | none =>
      simp only [hrest] at h
      cases h
      obtain rfl := firstOver_eq_none hrest
      exact ⟨[], [], rfl, rfl⟩
    | some found =>
      obtain ⟨p, rest⟩ := found
      simp only [hrest] at h
      split at h
      · cases h
        obtain ⟨front, back, hrunning, hothers⟩ := ih hrest
        exact ⟨q :: front, back, by rw [hrunning]; rfl, by rw [hothers]; rfl⟩
      · cases h
        exact ⟨[], running, rfl, rfl⟩

/-- What runs is the run that is over first and the others. -/
theorem perm_firstOver {running others : List Running} {r : Running}
    (h : firstOver running = some (r, others)) : running.Perm (r :: others) := by
  obtain ⟨front, back, rfl, rfl⟩ := firstOver_eq_some h
  exact List.perm_middle

/-! ## The tasks of a batch -/

namespace Batch

variable {σ : Type} (o : Outside σ) (s : Settings) (jobs : Nat)

/-- What can come of this case in some slot. -/
def ComesOf (case : TestCase) (e : Ending) : Prop :=
  ∃ (slot : Nat) (w : World σ), (runIn o s jobs case slot w).1 = e

/-- The batch has these tasks. Those that wait hold nothing, those that run hold a slot and a permit each, and all
other permits are free. -/
structure Has (b : Batch σ) (t : Tasks) : Prop where
  waiting : t.waiting = b.waiting.map (·.2)
  running : ∃ pairs : List (Running × TestCase), b.running = pairs.map (·.1) ∧ t.running = pairs.map (·.2) ∧
    ∀ p ∈ pairs, ComesOf o s jobs p.2 p.1.ending
  endings : t.endings = b.ended
  comes : ∀ p ∈ t.ended, ComesOf o s jobs p.1 p.2
  permits : b.slots.permits + b.running.length = jobs
  waits : ∀ p ∈ b.waiting, b.slots.stages[p.1]? = some .waiting
  holds : ∀ r ∈ b.running, ∃ slot, b.slots.stages[r.task]? = some (.holding slot)
  distinct : (b.waiting.map (·.1) ++ b.running.map (·.task)).Nodup

variable {o s jobs} {b : Batch σ} {t : Tasks}

theorem has_start (cases : List TestCase) (w : World σ) :
    Has o s (jobsFor s cases.length) (start s cases w) ⟨cases, [], []⟩ where
  waiting := by
    rw [start, List.map_snd_zip (Nat.le_of_eq List.length_range.symm)]
  running := ⟨[], rfl, rfl, fun _ h => absurd h List.not_mem_nil⟩
  endings := rfl
  comes := fun _ h => absurd h List.not_mem_nil
  permits := rfl
  waits := by
    rintro ⟨task, case⟩ hp
    change (task, case) ∈ (List.range cases.length).zip cases at hp
    have hlt := List.mem_range.1 (List.of_mem_zip hp).1
    change (List.replicate cases.length Stage.waiting)[task]? = some .waiting
    rw [List.getElem?_replicate, if_pos hlt]
  holds := fun _ h => absurd h List.not_mem_nil
  distinct := by
    change (List.map Prod.fst ((List.range cases.length).zip cases) ++ []).Nodup
    rw [List.append_nil, List.map_fst_zip (Nat.le_of_eq List.length_range)]
    exact List.nodup_range

/-- A task that starts runs behind the others, and what it ends with comes of its case. -/
theorem running_launchNext (o : Outside σ) (s : Settings) (jobs task : Nat) (case : TestCase)
    (rest : List (Nat × TestCase)) (b : Batch σ) :
    ∃ r : Running, (b.launchNext o s jobs task case rest).running = b.running ++ [r] ∧ r.task = task ∧
      ComesOf o s jobs case r.ending :=
  ⟨_, rfl, rfl, _, _, rfl⟩

/-- A task whose number is not among the others' is none of them. -/
private theorem ne_of_nodup {task : Nat} {waiting : List (Nat × TestCase)} {running : List Running}
    (h : (task :: (waiting.map (·.1) ++ running.map (·.task))).Nodup) :
    (∀ p ∈ waiting, task ≠ p.1) ∧ ∀ r ∈ running, task ≠ r.task := by
  obtain ⟨hfresh, -⟩ := List.nodup_cons.1 h
  constructor
  · intro p hp heq
    exact hfresh (List.mem_append_left _ (heq ▸ List.mem_map_of_mem hp))
  · intro r hr heq
    exact hfresh (List.mem_append_right _ (heq ▸ List.mem_map_of_mem hr))

section Launch

variable {task : Nat} {case : TestCase} {rest : List (Nat × TestCase)}

theorem Has.nodup_first (h : Has o s jobs b t) (hwaiting : b.waiting = (task, case) :: rest) :
    (task :: (rest.map (·.1) ++ b.running.map (·.task))).Nodup := by
  have hdistinct := h.distinct
  rwa [hwaiting] at hdistinct

/-- The first task that waits is none of those that wait behind it or run. -/
theorem Has.ne_first (h : Has o s jobs b t) (hwaiting : b.waiting = (task, case) :: rest) :
    (∀ p ∈ rest, task ≠ p.1) ∧ ∀ r ∈ b.running, task ≠ r.task :=
  ne_of_nodup (h.nodup_first hwaiting)

/-- A task that starts takes a permit and the slot on top. -/
theorem Has.slots_launchNext (h : Has o s jobs b t) (hwaiting : b.waiting = (task, case) :: rest)
    (hpermits : b.slots.permits ≠ 0) : (b.launchNext o s jobs task case rest).slots =
      ⟨b.slots.permits - 1, b.slots.free.tail, b.slots.stages.set task (.holding b.slots.top)⟩ :=
  Slots.step_step_of_waiting (h.waits (task, case) (by rw [hwaiting]; exact List.mem_cons_self)) hpermits

/-- A task that starts holds the slot that was on top. -/
theorem Has.stage_launchNext (h : Has o s jobs b t) (hwaiting : b.waiting = (task, case) :: rest)
    (hpermits : b.slots.permits ≠ 0) :
    (b.launchNext o s jobs task case rest).slots.stages[task]? = some (.holding b.slots.top) := by
  have htask := h.waits (task, case) (by rw [hwaiting]; exact List.mem_cons_self)
  obtain ⟨hlt, -⟩ := List.getElem?_eq_some_iff.1 htask
  rw [h.slots_launchNext hwaiting hpermits]
  exact List.getElem?_set_self hlt

/-- The first task that waits starts when there is a permit for it. -/
theorem Has.launchNext (h : Has o s jobs b t) (hwaiting : b.waiting = (task, case) :: rest)
    (hpermits : b.slots.permits ≠ 0) :
    ∃ t', Tasks.Step t t' ∧ Has o s jobs (b.launchNext o s jobs task case rest) t' := by
  obtain ⟨pairs, hrunning, htrunning, hpairs⟩ := h.running
  obtain ⟨r, hr, hrtask, hcomes⟩ := running_launchNext o s jobs task case rest b
  have hslots := h.slots_launchNext hwaiting hpermits
  -- The task is none of the others, so that its stage can change without theirs.
  obtain ⟨hwaits, hholds⟩ := h.ne_first hwaiting
  refine ⟨⟨rest.map (·.2), t.running ++ [case], t.ended⟩, ?_, ?_⟩
  · -- The batch always takes the first task that waits.
    have hstep := Tasks.Step.launch [] (rest.map (·.2)) case t.running t.ended
    have ht : t.waiting = case :: rest.map (·.2) := by rw [h.waiting, hwaiting]; rfl
    rw [List.nil_append, List.nil_append, ← ht] at hstep
    exact hstep
  · constructor
    · rfl
    · refine ⟨pairs ++ [(r, case)], ?_, ?_, List.forall_mem_append.2 ⟨hpairs, List.forall_mem_singleton.2 hcomes⟩⟩
      · rw [hr, hrunning, List.map_append]
        rfl
      · rw [htrunning, List.map_append]
        rfl
    · exact h.endings
    · exact h.comes
    · have hsum := h.permits
      rw [hslots, hr, List.length_append, List.length_singleton]
      dsimp only
      omega
    · intro p (hp : p ∈ rest)
      rw [hslots]
      exact (List.getElem?_set_ne (hwaits p hp)).trans (h.waits p (by rw [hwaiting]; exact List.mem_cons_of_mem _ hp))
    · rw [hr]
      refine List.forall_mem_append.2 ⟨fun q hq => ?_, List.forall_mem_singleton.2 ?_⟩
      · obtain ⟨slot, hslot⟩ := h.holds q hq
        rw [hslots]
        exact ⟨slot, (List.getElem?_set_ne (hholds q hq)).trans hslot⟩
      · rw [hrtask]
        exact ⟨_, h.stage_launchNext hwaiting hpermits⟩
    · rw [hr, List.map_append, List.map_singleton, hrtask, ← List.append_assoc]
      exact (List.perm_append_singleton task _).nodup_iff.2 (h.nodup_first hwaiting)

end Launch

section Finish

variable {r : Running} {others : List Running}

theorem Has.nodup_over (h : Has o s jobs b t) (hfirst : firstOver b.running = some (r, others)) :
    (r.task :: (b.waiting.map (·.1) ++ others.map (·.task))).Nodup := by
  have hmoved := ((perm_firstOver hfirst).map (·.task)).append_left (b.waiting.map (·.1))
  exact (hmoved.trans List.perm_middle).nodup_iff.1 h.distinct

/-- The task that ends is none of those that wait or go on. -/
theorem Has.ne_over (h : Has o s jobs b t) (hfirst : firstOver b.running = some (r, others)) :
    (∀ p ∈ b.waiting, r.task ≠ p.1) ∧ ∀ q ∈ others, r.task ≠ q.task :=
  ne_of_nodup (h.nodup_over hfirst)

/-- Whichever way a task ends, its permit is free then and it is gone. -/
theorem Has.slots_finish (h : Has o s jobs b t) (hfirst : firstOver b.running = some (r, others)) :
    ∃ free, (b.finish r others).slots = ⟨b.slots.permits + 1, free, b.slots.stages.set r.task .gone⟩ := by
  obtain ⟨slot, hslot⟩ := h.holds r ((perm_firstOver hfirst).mem_iff.2 List.mem_cons_self)
  unfold Batch.finish
  dsimp only
  split
  · exact ⟨_, Slots.step_step_of_holding hslot⟩
  · exact ⟨_, Slots.breakOff_of_holding hslot⟩

/-- The task that ends is that of a case, and the tasks that go on are those of the cases around it. -/
theorem Has.case_over (h : Has o s jobs b t) (hfirst : firstOver b.running = some (r, others)) :
    ∃ (front back : List (Running × TestCase)) (case : TestCase), others = (front ++ back).map (·.1) ∧
      t.running = front.map (·.2) ++ case :: back.map (·.2) ∧ ComesOf o s jobs case r.ending ∧
      ∀ p ∈ front ++ back, ComesOf o s jobs p.2 p.1.ending := by
  obtain ⟨pairs, hrunning, htrunning, hpairs⟩ := h.running
  obtain ⟨front, back, hsplit, rfl⟩ := firstOver_eq_some hfirst
  obtain ⟨frontPairs, restPairs, rfl, rfl, hrest⟩ := List.map_eq_append_iff.1 (hrunning.symm.trans hsplit)
  obtain ⟨⟨r', case⟩, backPairs, rfl, rfl, rfl⟩ := List.map_eq_cons_iff.1 hrest
  obtain ⟨hfront, hback⟩ := List.forall_mem_append.1 hpairs
  obtain ⟨hcomes, hback⟩ := List.forall_mem_cons.1 hback
  refine ⟨frontPairs, backPairs, case, List.map_append.symm, ?_, hcomes, List.forall_mem_append.2 ⟨hfront, hback⟩⟩
  rw [htrunning, List.map_append, List.map_cons]

/-- A task that runs ends. -/
theorem Has.finish (h : Has o s jobs b t) (hfirst : firstOver b.running = some (r, others)) :
    ∃ t', Tasks.Step t t' ∧ Has o s jobs (b.finish r others) t' := by
  obtain ⟨front, back, case, hothers, htrunning, hcomes, hpairs⟩ := h.case_over hfirst
  have hfor : r.ending.IsFor case := by
    obtain ⟨slot, w, hending⟩ := hcomes
    rw [← hending]
    exact isFor_runIn o s jobs case slot w
  obtain ⟨free, hslots⟩ := h.slots_finish hfirst
  obtain ⟨hwaits, hholds⟩ := h.ne_over hfirst
  refine ⟨⟨t.waiting, front.map (·.2) ++ back.map (·.2), t.ended ++ [(case, r.ending)]⟩, ?_, ?_⟩
  · have hstep := Tasks.Step.finish t.waiting (front.map (·.2)) (back.map (·.2)) case t.ended r.ending hfor
    rw [← htrunning] at hstep
    exact hstep
  · constructor
    · exact h.waiting
    · exact ⟨front ++ back, hothers, List.map_append.symm, hpairs⟩
    · have hended := h.endings
      unfold Tasks.endings at hended ⊢
      rw [List.map_append, hended]
      rfl
    · exact List.forall_mem_append.2 ⟨h.comes, List.forall_mem_singleton.2 hcomes⟩
    · have hsum := h.permits
      rw [(perm_firstOver hfirst).length_eq, List.length_cons] at hsum
      rw [hslots]
      change b.slots.permits + 1 + others.length = jobs
      omega
    · intro p hp
      rw [hslots]
      exact (List.getElem?_set_ne (hwaits p hp)).trans (h.waits p hp)
    · intro q hq
      obtain ⟨slot, hslot⟩ := h.holds q ((perm_firstOver hfirst).mem_iff.2 (List.mem_cons_of_mem _ hq))
      rw [hslots]
      exact ⟨slot, (List.getElem?_set_ne (hholds q hq)).trans hslot⟩
    · exact (List.nodup_cons.1 (h.nodup_over hfirst)).2

end Finish

/-- When the batch has nothing left to do, its tasks are over. -/
theorem Has.over (h : Has o s jobs b t) (hwaiting : b.waiting = []) (hrunning : b.running = []) : t.Over := by
  obtain ⟨pairs, hpairs, htrunning, -⟩ := h.running
  obtain rfl := List.map_eq_nil_iff.1 (hpairs.symm.trans hrunning)
  exact ⟨by rw [h.waiting, hwaiting]; rfl, htrunning⟩

/-- With a step for each task that has to start and for each that has to end, none is left. -/
theorem Has.advance {cases : List TestCase} (hjobs : jobs ≠ 0) (n : Nat) (h : Has o s jobs b t)
    (hrun : Tasks.Run cases t) (hn : 2 * b.waiting.length + b.running.length ≤ n) :
    ∃ t', Tasks.Run cases t' ∧ t'.Over ∧ Has o s jobs (advance o s jobs n b) t' := by
  induction n generalizing b t with
  | zero =>
    have hwaiting : b.waiting = [] := List.length_eq_zero_iff.1 (by omega)
    have hrunning : b.running = [] := List.length_eq_zero_iff.1 (by omega)
    exact ⟨t, hrun, h.over hwaiting hrunning, h⟩
  | succ n ih =>
    -- A task that ends brings the batch closer to its end, whatever waits.
    have hfinish {r : Running} {others : List Running} (hfirst : firstOver b.running = some (r, others)) :
        ∃ t', Tasks.Run cases t' ∧ t'.Over ∧ Has o s jobs (Batch.advance o s jobs n (b.finish r others)) t' := by
      obtain ⟨t', hstep, h'⟩ := h.finish hfirst
      have hlength := (perm_firstOver hfirst).length_eq
      rw [List.length_cons] at hlength
      refine ih h' (.step hrun hstep) ?_
      change 2 * b.waiting.length + others.length ≤ n
      omega
    unfold Batch.advance
    split
    · rename_i task case rest hwaiting
      by_cases hpermits : b.slots.permits = 0
      · rw [if_pos hpermits]
        split
        · exact hfinish ‹_›
        · rename_i hnone
          -- All permits are held, so some task runs.
          have hpermitted := h.permits
          rw [hpermits, firstOver_eq_none hnone] at hpermitted
          exact absurd hpermitted.symm hjobs
      · rw [if_neg hpermits]
        obtain ⟨t', hstep, h'⟩ := h.launchNext hwaiting hpermits
        obtain ⟨r, hr, -⟩ := running_launchNext o s jobs task case rest b
        refine ih h' (.step hrun hstep) ?_
        rw [hr, List.length_append, List.length_singleton]
        change 2 * rest.length + _ ≤ n
        rw [hwaiting, List.length_cons] at hn
        omega
    · rename_i hwaiting
      split
      · exact hfinish ‹_›
      · rename_i hnone
        exact ⟨t, hrun, h.over hwaiting (firstOver_eq_none hnone), h⟩

variable (o s) in
/-- A batch runs all its tasks to their end. -/
theorem has_run (cases : List TestCase) (w : World σ) :
    ∃ t, Tasks.Run cases t ∧ t.Over ∧ Has o s (jobsFor s cases.length) (run o s cases w) t := by
  have hjobs : jobsFor s cases.length ≠ 0 := by
    unfold jobsFor
    exact Nat.ne_of_gt (Nat.le_max_left 1 _)
  refine (has_start cases w).advance hjobs _ .start ?_
  have hlength : ((List.range cases.length).zip cases).length = cases.length := by
    rw [List.length_zip, List.length_range, Nat.min_self]
  exact Nat.le_of_eq (congrArg (2 * ·) hlength)

end Batch

end Conformance.Runs
