import Conformance.Cli.Command
import Conformance.Machine.Outside
import Conformance.Proofs.Runs.Batch

/-!
# What the exit code says

The exit code is that of the reports. A task that is lost leaves none, so the code says nothing about its case.
-/
namespace Conformance.Cli

open Cases Config Files Runs Service

theorem verdict_code_eq_zero_iff (time : Nat → String) (verbose : Bool) (s : Settings) (tests : Nat)
    (endings : List Ending) :
    (verdict time verbose s tests endings).code = 0 ↔ ∀ e ∈ endings, e.Lost ∨ e.Passed := by
  rw [← allPassed_reportsOf_iff]
  unfold verdict
  dsimp only
  split
  · simp only [true_iff]
    assumption
  · simp only [Nat.one_ne_zero, false_iff]
    assumption

variable {σ : Type} (outside : Outside σ) (time : Nat → String) (usual : Option String) (o : RunOptions)

/-- What the program says about tests that could be prepared is the verdict on their endings. -/
theorem runTests_code_of_prepare {w w' : World σ} {settings : Settings} {cases : List TestCase}
    (h : prepare usual o w = .ok (settings, cases) w') :
    (runTests outside time usual o w).1.code =
      (verdict time o.verbose settings cases.length (Batch.run outside settings cases w').ended).code := by
  unfold runTests
  rw [h]
  cases cases with
  | nil =>
    have hended : (Batch.run outside settings [] w').ended = [] := rfl
    rw [hended]
    exact ((verdict_code_eq_zero_iff time o.verbose settings 0 []).2 fun _ h => absurd h List.not_mem_nil).symm
  | cons case cases => rfl

/-- Without tests that could be prepared the program does not exit with 0. -/
theorem exists_prepare_of_code {w : World σ} (h : (runTests outside time usual o w).1.code = 0) :
    ∃ settings cases w', prepare usual o w = .ok (settings, cases) w' := by
  cases hprepare : prepare usual o w with
  | ok prepared w' => exact ⟨prepared.1, prepared.2, w', rfl⟩
  | error f w' =>
    unfold runTests at h
    rw [hprepare] at h
    contradiction

/-- Whatever the tasks of a batch come to, and in whatever order they end, there is one report for each case whose task
was not lost, and the program exits with 0 exactly if every other task passed. So that it exits with 0 vouches for all
cases exactly if no task is lost, or if a report speaks against the batch anyway. A task is lost when its time limit is
no 64-bit number, and when the program breaks down in its run. -/
theorem exit_zero_sound_iff (w : World σ) :
    (∀ (cases : List TestCase) (t : Tasks) (s : Settings), Tasks.Run cases t → t.Over →
      (t.ended.map (·.1)).Perm cases ∧
      ((reportsOf t.endings).map (·.name)).Perm ((t.ended.filter fun p => ¬p.2.Lost).map (·.1.name)) ∧
      (reportsOf t.endings).length + t.endings.countP (·.Lost) = cases.length ∧
      ((verdict time o.verbose s cases.length t.endings).code = 0 ↔ ∀ p ∈ t.ended, p.2.Lost ∨ p.2.Passed) ∧
      (((verdict time o.verbose s cases.length t.endings).code = 0 → ∀ p ∈ t.ended, p.2.Passed) ↔
        (∀ p ∈ t.ended, ¬p.2.Lost) ∨ ∃ p ∈ t.ended, ¬p.2.Lost ∧ ¬p.2.Passed)) ∧
    ((runTests outside time usual o w).1.code = 0 →
      ∃ settings cases w', prepare usual o w = .ok (settings, cases) w') ∧
    ∀ settings cases w', prepare usual o w = .ok (settings, cases) w' →
      ∃ t, Tasks.Run cases t ∧ t.Over ∧ t.endings = (Batch.run outside settings cases w').ended ∧
        ((runTests outside time usual o w).1.code = 0 ↔ ∀ p ∈ t.ended, p.2.Lost ∨ p.2.Passed) ∧
        ∀ p ∈ t.ended, ∃ slot w'',
          (Batch.runIn outside settings (jobsFor settings cases.length) p.1 slot w'').1 = p.2 ∧
          (p.2.Lost ↔ ∃ ports,
            Ports.Allocator.slice settings.ports slot (jobsFor settings cases.length) = .ok ports ∧
            (UInt64.size ≤ settings.timeouts.run.toNat + teardownSeconds ∨
              (Plan.performed outside ⟨settings, p.1⟩ ports w'').2.crashed = true)) := by
  refine ⟨?_, exists_prepare_of_code outside time usual o, ?_⟩
  · intro cases t s hrun hover
    have hperm := hrun.ended_perm hover
    have hcode : (verdict time o.verbose s cases.length t.endings).code = 0 ↔
        ∀ p ∈ t.ended, p.2.Lost ∨ p.2.Passed := by
      rw [verdict_code_eq_zero_iff, Tasks.endings, List.forall_mem_map]
    refine ⟨hperm, names_reportsOf hrun.isFor, ?_, hcode, ?_⟩
    · rw [length_reportsOf, Tasks.endings, List.length_map, ← hperm.length_eq, List.length_map]
    · rw [hcode]
      constructor
      · intro hsound
        -- without a report that speaks against the batch the program exits with 0, and then vouches for every case
        by_cases hbad : ∃ p ∈ t.ended, ¬p.2.Lost ∧ ¬p.2.Passed
        · exact .inr hbad
        · refine .inl fun p hp => Ending.not_lost_of_passed (hsound (fun q hq => ?_) p hp)
          by_cases hlost : q.2.Lost
          · exact .inl hlost
          · exact .inr (Classical.byContradiction fun hpassed => hbad ⟨q, hq, hlost, hpassed⟩)
      · rintro (hnone | ⟨q, hq, hlost, hpassed⟩) hall p hp
        · exact (hall p hp).resolve_left (hnone p hp)
        · exact absurd (hall q hq) (not_or.2 ⟨hlost, hpassed⟩)
  · intro settings cases w' hprepare
    obtain ⟨t, hrun, hover, hhas⟩ := Batch.has_run outside settings cases w'
    refine ⟨t, hrun, hover, hhas.endings, ?_, fun p hp => ?_⟩
    · rw [runTests_code_of_prepare outside time usual o hprepare, verdict_code_eq_zero_iff, ← hhas.endings,
        Tasks.endings, List.forall_mem_map]
    · obtain ⟨slot, w'', hending⟩ := hhas.comes p hp
      refine ⟨slot, w'', hending, ?_⟩
      rw [← hending]
      exact Batch.lost_runIn_iff outside settings _ p.1 slot w''

/-- A batch of two tests, of which one passes and the other is lost, and the run of a test whose time limit is too
large. -/
theorem exit_zero_sound_iff_lost :
    let passing : TestCase := ⟨"a", "t/a", {}⟩
    let losing : TestCase := ⟨"b", "t/b", {}⟩
    let t : Tasks :=
      ⟨[], [], [(losing, .lost ""), (passing, .reported { name := "a", outcome := .passed } "")]⟩
    let o : RunOptions := { paths := ["t"], timeout := some 18446744073709551615 }
    let w : World Machine.Machine :=
      { disk := ⟨.dir [("t", .dir [("testenv.yaml", .file (.text "clients: []") false)])], "/"⟩, outside := {} }
    (Tasks.Run [passing, losing] t ∧ t.Over ∧ (verdict (fun _ => "") false default 2 t.endings).code = 0 ∧
        (reportsOf t.endings).length = 1 ∧ ¬∀ p ∈ t.ended, p.2.Passed) ∧
      ∃ settings cases w', prepare none o w = .ok (settings, cases) w' ∧
        ∃ t, Tasks.Run cases t ∧ t.Over ∧ ∀ p ∈ t.ended, p.2.Lost ∨ p.2.Passed := by
  intro passing losing t o w
  obtain ⟨htasks, hprepared, hruns⟩ := exit_zero_sound_iff Machine.outside (fun _ => "") none o w
  constructor
  · have hrun : Tasks.Run [passing, losing] t :=
      .step (.step (.step (.step .start (.launch [] [losing] passing [] [])) (.launch [] [] losing [passing] []))
        (.finish [] [passing] [] losing [] (.lost "") (Ending.isFor_lost "" losing)))
        (.finish [] [] [] passing [(losing, .lost "")] (.reported { name := "a", outcome := .passed } "")
          fun _ h => by rw [← Option.some.inj h])
    have hover : t.Over := ⟨rfl, rfl⟩
    obtain ⟨-, -, hlength, hcode, hsound⟩ := htasks [passing, losing] t default hrun hover
    have hlost : ¬∀ p ∈ t.ended, p.2.Passed := fun h => Ending.not_lost_of_passed (h _ List.mem_cons_self) rfl
    refine ⟨hrun, hover, hcode.2 fun p hp => ?_, ?_, hlost⟩
    · rcases List.mem_cons.1 hp with rfl | hp
      · exact .inl rfl
      · obtain rfl := List.mem_singleton.1 hp
        exact .inr ⟨_, rfl, rfl⟩
    · have hcount : t.endings.countP (·.Lost) = 1 := by decide
      rw [hcount] at hlength
      exact Nat.succ.inj hlength
  · have hcode : (runTests Machine.outside (fun _ => "") none o w).1.code = 0 := by decide +kernel
    obtain ⟨settings, cases, w', hprepare⟩ := hprepared hcode
    obtain ⟨t, hrun, hover, -, hiff, -⟩ := hruns settings cases w' hprepare
    exact ⟨settings, cases, w', hprepare, t, hrun, hover, hiff.1 hcode⟩

/-- With a time limit that is no 64-bit number once the time for stopping is added, the program exits with 0 and has
reported nothing on the only test. -/
theorem exit_zero_without_report :
    let o : RunOptions := { paths := ["t"], timeout := some 18446744073709551615 }
    let w : World Machine.Machine :=
      { disk := ⟨.dir [("t", .dir [("testenv.yaml", .file (.text "clients: []") false),
          ("01.btstest", .file (.text "") false)])], "/"⟩
        outside := {} }
    (runTests Machine.outside (fun _ => "") none o w).1 =
        { stdout := "Running 1 test (1 at a time)\n\n✓ 0 passed, 0 failed\n", code := 0 } ∧
      ((prepare none o).run' w).map (fun p => (Batch.run Machine.outside p.1 p.2 w).ended) = some [.lost ""] := by
  intro o w
  exact ⟨by decide +kernel, by decide +kernel⟩

end Conformance.Cli
