import Conformance.Proofs.Ports.Slices
import Conformance.Proofs.Runs.Batch
import Mathlib.Data.List.Perm.Basic

/-!
# Who holds which slot

However the steps of the tasks are interleaved, each slot is held by one task or lies on the stack, and each permit that
is not free is that of one task (`Sound.interleave`). So the stack is never empty for a task that has a permit, and tasks
that hold slots at the same time allocate ports from parts of the range that have none in common. The slots of a batch
are such slots as long as none of its tasks is lost (`Batch.orderly_advance`).
-/
namespace Conformance.Runs

open Ports

/-- The slot of a task that has come so far. -/
def Stage.slot? : Stage → Option Nat
  | .holding slot => some slot
  | _ => none

/-- A task that has come so far has a permit. -/
def Stage.hasPermit : Stage → Bool
  | .waiting => false
  | .admitted => true
  | .holding _ => true
  | .leaving => true
  | .gone => false

namespace Slots

variable {s : Slots} {i j jobs slot : Nat}

/-- The slots that tasks hold, in the order of the tasks. -/
def held (s : Slots) : List Nat := s.stages.filterMap Stage.slot?

/-- The tasks take steps in this order. -/
def interleave (s : Slots) (order : List Nat) : Slots := order.foldl step s

theorem held?_eq_some : s.held? i = some slot ↔ s.stages[i]? = some (.holding slot) := by
  rw [held?]
  split
  · rename_i hstage
    simp [hstage]
  · rename_i hstage
    simpa using hstage slot

/-- What a task can do in a step, or nothing if it waits without a permit for it or is gone. -/
theorem step_cases (s : Slots) (i : Nat) :
    s.step i = s ∨
    (s.stages[i]? = some .waiting ∧ s.permits ≠ 0 ∧
      s.step i = { s with permits := s.permits - 1, stages := s.stages.set i .admitted }) ∨
    (s.stages[i]? = some .admitted ∧
      s.step i = { s with free := s.free.tail, stages := s.stages.set i (.holding s.top) }) ∨
    (∃ slot, s.stages[i]? = some (.holding slot) ∧
      s.step i = { s with free := slot :: s.free, stages := s.stages.set i .leaving }) ∨
    (s.stages[i]? = some .leaving ∧
      s.step i = { s with permits := s.permits + 1, stages := s.stages.set i .gone }) := by
  cases hstage : s.stages[i]? with
  | none =>
    left
    simp only [step, step?, hstage, Option.getD_none]
  | some stage =>
    cases stage with
    | waiting =>
      by_cases hpermits : s.permits = 0
      · left
        simp only [step, step?, hstage, if_pos hpermits, Option.getD_none]
      · exact .inr (.inl ⟨rfl, hpermits, step_of_waiting hstage hpermits⟩)
    | admitted => exact .inr (.inr (.inl ⟨rfl, step_of_admitted hstage⟩))
    | holding slot => exact .inr (.inr (.inr (.inl ⟨slot, rfl, step_of_holding hstage⟩)))
    | leaving => exact .inr (.inr (.inr (.inr ⟨rfl, step_of_leaving hstage⟩)))
    | gone =>
      left
      simp only [step, step?, hstage, Option.getD_none]

/-! ## What every step keeps -/

/-- Each of the slots below `jobs` is held by one task or lies on the stack, and each of `jobs` permits is free or that
of one task. -/
structure Sound (jobs : Nat) (s : Slots) : Prop where
  slots : (s.held ++ s.free).Perm (List.range jobs)
  permits : s.permits + s.stages.countP Stage.hasPermit = jobs

theorem sound_start (jobs tasks : Nat) : Sound jobs (start jobs tasks) where
  slots := by
    have hheld : (start jobs tasks).held = [] :=
      List.filterMap_eq_nil_iff.2 fun stage h => by rw [(List.mem_replicate.1 h).2]; rfl
    rw [hheld]
    exact List.Perm.refl _
  permits := by
    have hcount : (start jobs tasks).stages.countP Stage.hasPermit = 0 :=
      List.countP_eq_zero.2 fun stage h => by rw [(List.mem_replicate.1 h).2]; exact Bool.false_ne_true
    rw [hcount]
    rfl

/-- The stage of one task apart from those of the others. -/
private theorem stages_perm {stages : List Stage} {stage : Stage} (h : stages[i]? = some stage) :
    stages.Perm (stage :: stages.eraseIdx i) := by
  obtain ⟨hi, rfl⟩ := List.getElem?_eq_some_iff.1 h
  exact (List.getElem_cons_eraseIdx_perm hi).symm

/-- A stage that changes leaves the others as they are. -/
private theorem set_perm {stages : List Stage} {stage : Stage} (h : stages[i]? = some stage) (next : Stage) :
    (stages.set i next).Perm (next :: stages.eraseIdx i) := by
  obtain ⟨hi, -⟩ := List.getElem?_eq_some_iff.1 h
  exact List.set_perm_cons_eraseIdx hi next

/-- A task that has a permit finds a slot on the stack. -/
theorem Sound.free_ne_nil (h : Sound jobs s) (hi : s.stages[i]? = some .admitted) : s.free ≠ [] := by
  intro hfree
  have hslots := h.slots.length_eq
  have hpermits := h.permits
  rw [hfree, List.append_nil, List.length_range, held, ((stages_perm hi).filterMap _).length_eq,
    List.filterMap_cons_none rfl] at hslots
  rw [(stages_perm hi).countP_eq, List.countP_cons_of_pos rfl] at hpermits
  -- a task that holds a slot has a permit
  have hle : (s.stages.eraseIdx i).countP (fun stage => stage.slot?.isSome) ≤
      (s.stages.eraseIdx i).countP Stage.hasPermit := by
    refine List.countP_mono_left fun stage _ hslot => ?_
    cases stage with
    | holding slot => rfl
    | _ => cases hslot
  rw [List.length_filterMap_eq_countP] at hslots
  omega

theorem Sound.free_eq (h : Sound jobs s) (hi : s.stages[i]? = some .admitted) : s.free = s.top :: s.free.tail := by
  cases hfree : s.free with
  | nil => exact absurd hfree (h.free_ne_nil hi)
  | cons first rest => rw [top, hfree]; rfl

theorem Sound.step (h : Sound jobs s) (i : Nat) : Sound jobs (s.step i) := by
  have hslots := h.slots
  have hpermits := h.permits
  rcases s.step_cases i with hstep | ⟨hi, hfree, hstep⟩ | ⟨hi, hstep⟩ | ⟨slot, hi, hstep⟩ | ⟨hi, hstep⟩
  · rw [hstep]
    exact h
  all_goals
    rw [held] at hslots
    replace hslots := (((stages_perm hi).filterMap Stage.slot?).append_right s.free).symm.trans hslots
    rw [(stages_perm hi).countP_eq] at hpermits
  · -- admitted
    rw [hstep]
    refine ⟨(((set_perm hi _).filterMap Stage.slot?).append_right _).trans hslots, ?_⟩
    rw [(set_perm hi _).countP_eq, List.countP_cons_of_pos rfl]
    rw [List.countP_cons_of_neg Bool.false_ne_true] at hpermits
    dsimp only
    omega
  · -- the slot on top is taken
    rw [hstep]
    refine ⟨(((set_perm hi _).filterMap Stage.slot?).append_right _).trans ?_, ?_⟩
    · rw [h.free_eq hi] at hslots
      exact List.perm_middle.symm.trans hslots
    · rw [(set_perm hi _).countP_eq]
      exact hpermits
  · -- the slot is put back
    rw [hstep]
    refine ⟨(((set_perm hi _).filterMap Stage.slot?).append_right _).trans ?_, ?_⟩
    · exact List.perm_middle.trans hslots
    · rw [(set_perm hi _).countP_eq]
      exact hpermits
  · -- the permit is given back
    rw [hstep]
    refine ⟨(((set_perm hi _).filterMap Stage.slot?).append_right _).trans hslots, ?_⟩
    rw [(set_perm hi _).countP_eq, List.countP_cons_of_neg Bool.false_ne_true]
    rw [List.countP_cons_of_pos rfl] at hpermits
    dsimp only
    omega

theorem Sound.interleave (h : Sound jobs s) (order : List Nat) : Sound jobs (s.interleave order) := by
  induction order generalizing s with
  | nil => exact h
  | cons i order ih => exact ih (h.step i)

/-! ## What holds of every interleaving -/

theorem Sound.held_lt (h : Sound jobs s) (hi : s.held? i = some slot) : slot < jobs := by
  have hmem : slot ∈ s.held :=
    List.mem_filterMap.2 ⟨.holding slot, List.mem_of_getElem? (held?_eq_some.1 hi), rfl⟩
  exact List.mem_range.1 (h.slots.mem_iff.1 (List.mem_append_left _ hmem))

/-- No two tasks hold the same slot. -/
theorem Sound.held_ne (h : Sound jobs s) (hne : i ≠ j) {slot' : Nat} (hi : s.held? i = some slot)
    (hj : s.held? j = some slot') : slot ≠ slot' := by
  rw [held?_eq_some] at hi hj
  have hheld : s.held.Perm (slot :: (s.stages.eraseIdx i).filterMap Stage.slot?) := (stages_perm hi).filterMap _
  have hnodup : s.held.Nodup := (List.nodup_append.1 (h.slots.nodup_iff.2 List.nodup_range)).1
  rw [hheld.nodup_iff, List.nodup_cons] at hnodup
  rintro rfl
  refine hnodup.1 (List.mem_filterMap.2 ⟨.holding slot, ?_, rfl⟩)
  exact List.mem_eraseIdx_iff_getElem?.2 ⟨j, hne.symm, hj⟩

/-- A task that is admitted takes the slot on top. -/
theorem held?_step_of_admitted (hi : s.stages[i]? = some .admitted) : (s.step i).held? i = some s.top := by
  obtain ⟨hlt, -⟩ := List.getElem?_eq_some_iff.1 hi
  rw [held?_eq_some, step_of_admitted hi]
  exact List.getElem?_set_self hlt

/-- The allocators of tasks that hold slots at the same time have no port in common. -/
theorem Sound.not_holds (h : Sound jobs s) (hne : i ≠ j) {slot' : Nat} (hi : s.held? i = some slot)
    (hj : s.held? j = some slot') {r : PortRange} {a b : Allocator} (ha : Allocator.slice r slot jobs = .ok a)
    (hb : Allocator.slice r slot' jobs = .ok b) {port : UInt16} (hport : a.Holds port) : ¬ b.Holds port := by
  have hlt := h.held_lt hi
  have hdivisible := Allocator.divisible_of_slice ha (Nat.zero_lt_of_lt hlt)
  exact hdivisible.not_holds_of_holds hlt (h.held_lt hj) (h.held_ne hne hi hj) ha hb hport

end Slots

/-! ## The slots of a batch -/

namespace Batch

variable {σ : Type} {o : Service.Outside σ} {s : Config.Settings} {jobs tasks : Nat} {b : Batch σ} {t : Tasks}

/-- As long as no task is lost, the slots of a batch are those of tasks that take one step after the other, and what a
running task ends with comes of a case in the slot that the task holds. -/
def Orderly (o : Service.Outside σ) (s : Config.Settings) (jobs tasks : Nat) (b : Batch σ) : Prop :=
  (∀ e ∈ b.ended, ¬ e.Lost) →
    (∃ order, b.slots = (Slots.start jobs tasks).interleave order) ∧
    ∀ r ∈ b.running, ∃ slot case w, b.slots.held? r.task = some slot ∧ (runIn o s jobs case slot w).1 = r.ending

theorem orderly_start (cases : List Cases.TestCase) (w : Service.World σ) :
    Orderly o s (jobsFor s cases.length) cases.length (start s cases w) :=
  fun _ => ⟨⟨[], rfl⟩, fun _ h => absurd h List.not_mem_nil⟩

/-- A task that takes two steps at once takes them behind all others. -/
private theorem interleave_twice {start slots : Slots} {order : List Nat} (h : slots = start.interleave order)
    (task : Nat) : (slots.step task).step task = start.interleave (order ++ [task, task]) := by
  rw [h, Slots.interleave, Slots.interleave, List.foldl_append]
  rfl

theorem Orderly.launchNext {task : Nat} {case : Cases.TestCase} {rest : List (Nat × Cases.TestCase)}
    (h : Orderly o s jobs tasks b) (hb : Has o s jobs b t) (hwaiting : b.waiting = (task, case) :: rest)
    (hpermits : b.slots.permits ≠ 0) : Orderly o s jobs tasks (b.launchNext o s jobs task case rest) := by
  intro hlost
  obtain ⟨⟨order, horder⟩, hcomes⟩ := h hlost
  have hslots := hb.slots_launchNext hwaiting hpermits
  have hheld : (b.launchNext o s jobs task case rest).slots.held? task = some b.slots.top :=
    Slots.held?_eq_some.2 (hb.stage_launchNext hwaiting hpermits)
  refine ⟨⟨order ++ [task, task], interleave_twice horder task⟩, fun r hr => ?_⟩
  rcases List.mem_append.1 hr with hr | hr
  · -- a task that runs already is another one
    obtain ⟨slot, case', w, hslot, hending⟩ := hcomes r hr
    refine ⟨slot, case', w, ?_, hending⟩
    rw [Slots.held?_eq_some] at hslot ⊢
    rw [hslots]
    exact (List.getElem?_set_ne ((hb.ne_first hwaiting).2 r hr)).trans hslot
  · obtain rfl := List.mem_singleton.1 hr
    exact ⟨_, case, b.world, hheld, by rw [← Option.getD_some (a := b.slots.top) (b := 0), ← hheld]; rfl⟩

theorem Orderly.finish {r : Running} {others : List Running} (h : Orderly o s jobs tasks b)
    (hb : Has o s jobs b t) (hfirst : firstOver b.running = some (r, others)) :
    Orderly o s jobs tasks (b.finish r others) := by
  intro hlost
  have hlostr : ¬ r.ending.Lost := hlost r.ending (List.mem_append_right _ List.mem_cons_self)
  obtain ⟨⟨order, horder⟩, hcomes⟩ := h fun e he => hlost e (List.mem_append_left _ he)
  have hperm := perm_firstOver hfirst
  obtain ⟨slot, hslot⟩ := hb.holds r (hperm.mem_iff.2 List.mem_cons_self)
  have hslots : (b.finish r others).slots = (b.slots.step r.task).step r.task := by
    rw [Batch.finish]
    split
    · rfl
    · rename_i echoed hending
      rw [hending] at hlostr
      exact absurd rfl hlostr
  refine ⟨⟨order ++ [r.task, r.task], hslots.trans (interleave_twice horder r.task)⟩, fun q hq => ?_⟩
  obtain ⟨slot', case, w, hslot', hending⟩ := hcomes q (hperm.mem_iff.2 (List.mem_cons_of_mem _ hq))
  refine ⟨slot', case, w, ?_, hending⟩
  rw [Slots.held?_eq_some] at hslot' ⊢
  rw [hslots, Slots.step_step_of_holding hslot]
  exact (List.getElem?_set_ne ((hb.ne_over hfirst).2 q hq)).trans hslot'

theorem Orderly.advance (n : Nat) (h : Orderly o s jobs tasks b) (hb : Has o s jobs b t) :
    Orderly o s jobs tasks (b.advance o s jobs n) ∧ ∃ t', Has o s jobs (b.advance o s jobs n) t' := by
  induction n generalizing b t with
  | zero => exact ⟨h, t, hb⟩
  | succ n ih =>
    have hfinish {r : Running} {others : List Running} (hfirst : firstOver b.running = some (r, others)) :
        Orderly o s jobs tasks ((b.finish r others).advance o s jobs n) ∧
          ∃ t', Has o s jobs ((b.finish r others).advance o s jobs n) t' := by
      obtain ⟨t', -, hb'⟩ := hb.finish hfirst
      exact ih (h.finish hb hfirst) hb'
    unfold Batch.advance
    split
    · rename_i task case rest hwaiting
      by_cases hpermits : b.slots.permits = 0
      · rw [if_pos hpermits]
        split
        · exact hfinish ‹_›
        · exact ⟨h, t, hb⟩
      · rw [if_neg hpermits]
        obtain ⟨t', -, hb'⟩ := hb.launchNext hwaiting hpermits
        exact ih (h.launchNext hb hwaiting hpermits) hb'
    · split
      · exact hfinish ‹_›
      · exact ⟨h, t, hb⟩

end Batch

/-- However many tasks there are, and in whichever order they take their steps as long as none breaks off: the slots
that tasks hold and those on the stack are always the numbers below `jobs`, each of them once. A task that is admitted
takes a slot from the stack, which is not empty then. Two tasks never hold the same slot, so that the allocators of their
slots, whatever range of ports is configured, have no port in common and never answer with the same one. A batch none of
whose tasks is lost has such slots after any number of its steps, and each task that runs does so in the slot that it
holds. -/
theorem slots_owned :
    (∀ (jobs tasks : Nat) (order : List Nat) (s : Slots), s = (Slots.start jobs tasks).interleave order →
      (s.held ++ s.free).Perm (List.range jobs) ∧
      (∀ i, s.stages[i]? = some .admitted → s.free = s.top :: s.free.tail ∧ (s.step i).held? i = some s.top) ∧
      ∀ i j, i ≠ j → ∀ slot slot', s.held? i = some slot → s.held? j = some slot' → slot ≠ slot' ∧
        ∀ (r : PortRange) (a b : Allocator), Allocator.slice r slot jobs = .ok a → Allocator.slice r slot' jobs = .ok b →
          (∀ port, a.Holds port → ¬ b.Holds port) ∧
          ∀ busy busy' port, .ok port ∈ Allocator.answers busy a → .ok port ∉ Allocator.answers busy' b) ∧
    ∀ (σ : Type) (o : Service.Outside σ) (s : Config.Settings) (cases : List Cases.TestCase) (w : Service.World σ)
      (n : Nat) (b : Batch σ),
      b = (Batch.start s cases w).advance o s (jobsFor s cases.length) n → (∀ e ∈ b.ended, ¬ e.Lost) →
      (∃ order, b.slots = (Slots.start (jobsFor s cases.length) cases.length).interleave order) ∧
      (b.running.map (·.task)).Nodup ∧
      ∀ r ∈ b.running, ∃ slot case w', b.slots.held? r.task = some slot ∧
        (Batch.runIn o s (jobsFor s cases.length) case slot w').1 = r.ending := by
  refine ⟨?_, ?_⟩
  · rintro jobs tasks order s rfl
    have h := (Slots.sound_start jobs tasks).interleave order
    refine ⟨h.slots, fun i hi => ⟨h.free_eq hi, Slots.held?_step_of_admitted hi⟩, fun i j hne slot slot' hi hj => ?_⟩
    refine ⟨h.held_ne hne hi hj, fun r a b ha hb => ?_⟩
    have hdisjoint : ∀ port, a.Holds port → ¬ b.Holds port := fun port => h.not_holds hne hi hj ha hb
    refine ⟨hdisjoint, fun busy busy' port hport hport' => ?_⟩
    exact hdisjoint port ((Allocator.ready_slice ha).holds_of_mem_answers hport)
      ((Allocator.ready_slice hb).holds_of_mem_answers hport')
  · rintro σ o s cases w n b rfl hlost
    obtain ⟨horderly, t, ht⟩ := (Batch.orderly_start cases w).advance n (Batch.has_start cases w)
    obtain ⟨horder, hcomes⟩ := horderly hlost
    exact ⟨horder, (List.nodup_append.1 ht.distinct).2.1, hcomes⟩

/-- Two tasks hold the two slots, and the third one waits for a permit. -/
example : (Slots.start 2 3).interleave [1, 0, 1, 0, 2] = ⟨0, [], [.holding 1, .holding 0, .waiting]⟩ := by decide

end Conformance.Runs
