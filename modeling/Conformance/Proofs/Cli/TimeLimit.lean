import Conformance.Cli.Command
import Conformance.Machine.Outside
import Conformance.Proofs.Runs.Ownership
import Conformance.Proofs.Script.Steps
import Conformance.Proofs.Text.Decimal

/-!
# Time limits

The time limit of a test is a 64-bit number of seconds, from the command line or from a configuration file. A test is run
only if that is still so with the time for stopping added (`LeavesRoom`). A configuration file has no numbers that large
(`run_lt_of_load`). The command line has, and nothing on the way to the test refuses them (`set_timeout`,
`prepare_with_timeout`).
-/
namespace Conformance.Config

open Files Text Toml

/-! ## Limits from a configuration file -/

/-- Numbers of a configuration file have 63 bits and a sign. -/
theorem natBelow?_lt {item : Item} {bound n : Nat} (h : item.natBelow? bound = some n) : n < UInt64.size / 2 := by
  unfold Item.natBelow? at h
  split at h
  · rename_i m
    split at h
    · have hlt : m.toInt < 9223372036854775808 := m.toInt_lt
      obtain rfl := Option.some.inj h
      have hsize : UInt64.size = 18446744073709551616 := rfl
      omega
    · contradiction
  · contradiction

theorem word?_lt {item : Item} {t : UInt64} (h : word? item = some t) : t.toNat < UInt64.size / 2 := by
  obtain ⟨n, hn, rfl⟩ := Option.map_eq_some_iff.1 h
  have hlt := natBelow?_lt hn
  rwa [UInt64.toNat_ofNat_of_lt' (Nat.lt_trans hlt (by decide))]

/-- What holds of the usual value of a setting and of all that can be read for it holds of the setting. -/
theorem given_holds {α : Type} {usual a : α} {read? : Item → Option α} {item : Option Item} {P : α → Prop}
    (h : given usual read? item = some a) (husual : P usual) (hread : ∀ item a, read? item = some a → P a) : P a := by
  cases item with
  | none =>
    obtain rfl := Option.some.inj h
    exact husual
  | some item => exact hread item a h

theorem timeouts?_lt {item : Item} {t : Timeouts} (h : timeouts? item = some t) : t.run.toNat < UInt64.size / 2 := by
  obtain ⟨fields, -, h⟩ := Option.bind_eq_some_iff.1 h
  dsimp only at h
  split at h
  · rename_i request ready run grace
    obtain ⟨requestTime, -, h⟩ := Option.bind_eq_some_iff.1 h
    obtain ⟨readyTime, -, h⟩ := Option.bind_eq_some_iff.1 h
    obtain ⟨runTime, hrun, h⟩ := Option.bind_eq_some_iff.1 h
    obtain ⟨graceTime, -, h⟩ := Option.bind_eq_some_iff.1 h
    obtain rfl := Option.some.inj h
    exact given_holds (P := fun t => t.toNat < UInt64.size / 2) hrun (by decide) fun _ _ => word?_lt
  · contradiction

theorem settings?_lt {document : Entries} {s : Settings} (h : settings? document = some s) :
    s.timeouts.run.toNat < UInt64.size / 2 := by
  obtain ⟨service, -, h⟩ := Option.bind_eq_some_iff.1 h
  obtain ⟨ports, -, h⟩ := Option.bind_eq_some_iff.1 h
  obtain ⟨timeouts, htimeouts, h⟩ := Option.bind_eq_some_iff.1 h
  obtain ⟨runner, -, h⟩ := Option.bind_eq_some_iff.1 h
  obtain rfl := Option.some.inj h
  exact given_holds (P := fun t => t.run.toNat < UInt64.size / 2) htimeouts (by decide) fun _ _ => timeouts?_lt

theorem read_lt {text : String} {s : Settings} (h : read text = .ok s) : s.timeouts.run.toNat < UInt64.size / 2 := by
  unfold read at h
  split at h
  · contradiction
  · rename_i s' hs
    obtain ⟨document, -, hs⟩ := Option.bind_eq_some_iff.1 hs
    have hsame : s' = s := by
      unfold Settings.validate at h
      split at h
      · contradiction
      · split at h
        · contradiction
        · exact Except.ok.inj h
    exact hsame ▸ settings?_lt hs

theorem run_lt_of_load {disk : Disk} {path : String} {s : Settings} (h : load disk path = .ok s) :
    s.timeouts.run.toNat < UInt64.size / 2 := by
  unfold load at h
  split at h
  · contradiction
  · exact read_lt h

theorem run_lt_of_loadOrUsual {disk : Disk} {path : Option String} {s : Settings} (h : loadOrUsual disk path = .ok s) :
    s.timeouts.run.toNat < UInt64.size / 2 := by
  unfold loadOrUsual at h
  split at h
  · split at h
    · exact run_lt_of_load h
    · obtain rfl := Except.ok.inj h
      decide
  · obtain rfl := Except.ok.inj h
    decide

end Conformance.Config

namespace Conformance.Cli

open Cases Config Files Runs Service Text

/-! ## Limits from the command line -/

/-- The command line takes every 64-bit number. -/
theorem set_timeout {o : RunOptions} (h : o.timeout = none) (t : UInt64) :
    o.set .timeout (toString t.toNat) = .ok { o with timeout := some t } := by
  have hdigits : (toString t.toNat).toList = Nat.toDigits 10 t.toNat := Nat.toList_repr
  have hword : wordText (toString t.toNat) = some t.toNat := by
    rw [wordText, hdigits]
    exact readBelow?_toDigits t.toNat_lt
  rw [RunOptions.set, hword, h, Option.map_some, UInt64.ofNat_toNat]
  rfl

/-! ## What is prepared -/

/-- The log is opened, if there is one. -/
def logged {σ : Type} (o : RunOptions) : Effect σ Unit :=
  match o.logFile with
  | some path => openLog path
  | none => pure ()

/-- The settings of the configuration file. -/
def loaded (usual : Option String) (o : RunOptions) (disk : Disk) : Except Fault Settings :=
  match o.config with
  | some path => Config.load disk path
  | none => Config.loadOrUsual disk usual

/-- What is prepared from the files on the disk. -/
def prepared (usual : Option String) (o : RunOptions) (disk : Disk) : Except Fault (Settings × List TestCase) := do
  let settings ← overridden o (← loaded usual o disk)
  let dirs ← Cases.discover disk o.paths
  return (settings, ← dirs.mapM (TestCase.load disk))

theorem bind_eq_ok_iff {α β : Type} {x : Except Fault α} {f : α → Except Fault β} {b : β} :
    x >>= f = .ok b ↔ ∃ a, x = .ok a ∧ f a = .ok b := by
  cases x with
  | error e =>
    constructor
    · intro h
      cases h
    · rintro ⟨a, h, -⟩
      cases h
  | ok a =>
    constructor
    · exact fun h => ⟨a, rfl, h⟩
    · rintro ⟨b, h, hb⟩
      cases h
      exact hb

theorem prepared_eq_ok_iff {usual : Option String} {o : RunOptions} {disk : Disk} {settings : Settings}
    {cases : List TestCase} : prepared usual o disk = .ok (settings, cases) ↔
      (∃ s, loaded usual o disk = .ok s ∧ overridden o s = .ok settings) ∧
        ∃ dirs, Cases.discover disk o.paths = .ok dirs ∧ dirs.mapM (TestCase.load disk) = .ok cases := by
  rw [prepared]
  simp only [bind_eq_ok_iff]
  constructor
  · rintro ⟨s, hs, settings', hsettings, dirs, hdirs, cases', hcases, heq⟩
    cases heq
    exact ⟨⟨s, hs, hsettings⟩, dirs, hdirs, hcases⟩
  · rintro ⟨⟨s, hs, hsettings⟩, dirs, hdirs, hcases⟩
    exact ⟨s, hs, settings, hsettings, dirs, hdirs, cases, hcases, rfl⟩

theorem prepare_eq {σ : Type} (usual : Option String) (o : RunOptions) :
    (prepare usual o : Effect σ (Settings × List TestCase)) = logged o >>= fun _ => get >>= fun w =>
      match prepared usual o w.disk with
      | .ok done => pure done
      | .error f => throw f := by
  unfold prepare logged prepared loaded
  cases o.logFile <;> cases o.config <;> rfl

theorem prepare_eq_ok_iff {σ : Type} {usual : Option String} {o : RunOptions} {w w' : World σ}
    {done : Settings × List TestCase} : prepare usual o w = .ok done w' ↔
      logged o w = .ok () w' ∧ prepared usual o w'.disk = .ok done := by
  rw [prepare_eq]
  constructor
  · intro h
    obtain ⟨u, w₁, hlogged, h⟩ := Script.run_bind_eq_ok h
    obtain ⟨w₂, w₃, hget, h⟩ := Script.run_bind_eq_ok h
    cases hget
    cases hprepared : prepared usual o w₁.disk with
    | error f =>
      rw [hprepared] at h
      cases h
    | ok done' =>
      rw [hprepared] at h
      cases h
      exact ⟨hlogged, hprepared⟩
  · rintro ⟨hlogged, hprepared⟩
    rw [bind_of_ok hlogged]
    show (match prepared usual o w'.disk with
      | .ok done => pure done
      | .error f => throw f : Effect σ (Settings × List TestCase)) w' = _
    rw [hprepared]
    rfl

theorem overridden_eq_ok {o : RunOptions} {s settings : Settings} (h : overridden o s = .ok settings) (t : UInt64) :
    settings.timeouts.run = o.timeout.getD s.timeouts.run ∧
      overridden { o with timeout := some t } s =
        .ok { settings with timeouts := { settings.timeouts with run := t } } := by
  unfold overridden at h ⊢
  split at h
  · contradiction
  · rename_i hjobs
    obtain rfl := Except.ok.inj h
    exact ⟨rfl, if_neg hjobs⟩

/-- The time limit is that of the command line, or one that fits into 63 bits. -/
theorem run_of_prepare {σ : Type} {usual : Option String} {o : RunOptions} {w w' : World σ} {settings : Settings}
    {cases : List TestCase} (h : prepare usual o w = .ok (settings, cases) w') :
    (∀ t, o.timeout = some t → settings.timeouts.run = t) ∧
      (o.timeout = none → settings.timeouts.run.toNat < UInt64.size / 2) := by
  obtain ⟨⟨s, hs, hsettings⟩, -⟩ := prepared_eq_ok_iff.1 (prepare_eq_ok_iff.1 h).2
  obtain ⟨hrun, -⟩ := overridden_eq_ok hsettings 0
  have hlt : s.timeouts.run.toNat < UInt64.size / 2 := by
    unfold loaded at hs
    split at hs
    · exact Config.run_lt_of_load hs
    · exact Config.run_lt_of_loadOrUsual hs
  constructor
  · intro t ht
    rw [hrun, ht]
    rfl
  · intro hnone
    rw [hrun, hnone]
    exact hlt

/-- What is prepared does not depend on the time limit. -/
theorem prepare_with_timeout {σ : Type} {usual : Option String} {o : RunOptions} {w w' : World σ} {settings : Settings}
    {cases : List TestCase} (h : prepare usual o w = .ok (settings, cases) w') (t : UInt64) :
    prepare usual { o with timeout := some t } w =
      .ok ({ settings with timeouts := { settings.timeouts with run := t } }, cases) w' := by
  obtain ⟨hlogged, hprepared⟩ := prepare_eq_ok_iff.1 h
  obtain ⟨⟨s, hs, hsettings⟩, hcases⟩ := prepared_eq_ok_iff.1 hprepared
  exact prepare_eq_ok_iff.2 ⟨hlogged, prepared_eq_ok_iff.2 ⟨⟨s, hs, (overridden_eq_ok hsettings t).2⟩, hcases⟩⟩

/-! ## Time for stopping -/

/-- The limit is a 64-bit number still when the time for stopping is added. -/
def LeavesRoom (limit : UInt64) : Prop := limit.toNat + teardownSeconds < UInt64.size

instance (limit : UInt64) : Decidable (LeavesRoom limit) := inferInstanceAs (Decidable (_ < _))

theorem giveUpSeconds?_of_leavesRoom {p : Plan} (h : LeavesRoom p.settings.timeouts.run) :
    p.giveUpSeconds? = some (p.settings.timeouts.run.toNat + teardownSeconds) := if_pos h

theorem giveUpSeconds?_of_not_leavesRoom {p : Plan} (h : ¬ LeavesRoom p.settings.timeouts.run) :
    p.giveUpSeconds? = none := if_neg h

/-- When tests have been prepared, the time after which one is given up is a 64-bit number of seconds exactly if the time
limit on the command line leaves room for stopping, or none is given there: one from a configuration file always does. But
the command line takes every number, what is prepared does not depend on it, and with one that leaves no room each test is
lost as soon as it starts. -/
theorem time_limit_fits_iff {σ : Type} (outside : Outside σ) (usual : Option String) (o : RunOptions) (w w' : World σ)
    (settings : Settings) (cases : List TestCase) (h : prepare usual o w = .ok (settings, cases) w') :
    ((∀ case : TestCase, (Plan.giveUpSeconds? ⟨settings, case⟩).isSome = true) ↔
      ∀ t, o.timeout = some t → LeavesRoom t) ∧
    (o.timeout = none → settings.timeouts.run.toNat < UInt64.size / 2) ∧
    (∀ t, { o with timeout := none }.set .timeout (toString t.toNat) = .ok { o with timeout := some t } ∧
      prepare usual { o with timeout := some t } w =
        .ok ({ settings with timeouts := { settings.timeouts with run := t } }, cases) w') ∧
    ∀ t, o.timeout = some t → ¬ LeavesRoom t → ∀ (case : TestCase) (ports : Ports.Allocator) (w₁ : World σ),
      Plan.runTask outside ⟨settings, case⟩ ports w₁ = (.lost "", w₁) := by
  obtain ⟨hgiven, hloaded⟩ := run_of_prepare h
  refine ⟨⟨fun hfits t ht => ?_, fun hroom case => ?_⟩, hloaded, fun t => ⟨set_timeout rfl t, prepare_with_timeout h t⟩,
    fun t ht hroom case ports w₁ => ?_⟩
  · refine Classical.byContradiction fun hroom => ?_
    have hnone : Plan.giveUpSeconds? ⟨settings, default⟩ = none :=
      giveUpSeconds?_of_not_leavesRoom (by rwa [hgiven t ht])
    have hsome := hfits default
    rw [hnone] at hsome
    cases hsome
  · -- only a limit from the command line can be too large
    have hleaves : LeavesRoom settings.timeouts.run := by
      cases htimeout : o.timeout with
      | some t =>
        rw [hgiven t htimeout]
        exact hroom t htimeout
      | none =>
        have hlt := hloaded htimeout
        have hsize : UInt64.size = 18446744073709551616 := rfl
        show settings.timeouts.run.toNat + 30 < UInt64.size
        omega
    rw [giveUpSeconds?_of_leavesRoom hleaves]
    rfl
  · have hnone : Plan.giveUpSeconds? ⟨settings, case⟩ = none :=
      giveUpSeconds?_of_not_leavesRoom (by rwa [hgiven t ht])
    unfold Plan.runTask
    rw [hnone]

/-- A directory with one test. -/
def oneTest : World Machine.Machine :=
  { disk := ⟨.dir [("t", .dir [("testenv.yaml", .file (.text "clients: []") false),
      ("01.btstest", .file (.text "") false)])], "/"⟩
    outside := {} }

/-- With the usual limit the test can be run, and with the largest one that is taken it cannot. -/
theorem time_limit_fits_iff_one_test :
    ∃ settings cases w', prepare none { paths := ["t"] } oneTest = .ok (settings, cases) w' ∧
      (∀ case : TestCase, (Plan.giveUpSeconds? ⟨settings, case⟩).isSome = true) ∧
      ∃ settings', prepare none { paths := ["t"], timeout := some 18446744073709551615 } oneTest =
          .ok (settings', cases) w' ∧
        ∀ (case : TestCase) (ports : Ports.Allocator),
          Plan.runTask Machine.outside ⟨settings', case⟩ ports oneTest = (.lost "", oneTest) := by
  have hok : (match prepare none { paths := ["t"] } oneTest with
    | .ok _ _ => true
    | .error _ _ => false) = true := by decide +kernel
  cases hprepare : prepare none { paths := ["t"] } oneTest with
  | error f w' =>
    rw [hprepare] at hok
    cases hok
  | ok done w' =>
    obtain ⟨settings, cases⟩ := done
    obtain ⟨hfits, -, htaken, -⟩ :=
      time_limit_fits_iff Machine.outside none { paths := ["t"] } oneTest w' settings cases hprepare
    -- what has been prepared once is prepared with any limit
    have hlarge := (htaken 18446744073709551615).2
    obtain ⟨-, -, -, hlost⟩ := time_limit_fits_iff Machine.outside none _ oneTest w' _ cases hlarge
    have hnone : ∀ t, ({ paths := ["t"] } : RunOptions).timeout = some t → LeavesRoom t := fun _ ht => by cases ht
    exact ⟨settings, cases, w', rfl, hfits.2 hnone, _, hlarge,
      fun case ports => hlost _ rfl (by decide) case ports oneTest⟩

/-- The largest time limit that the command line takes leaves no room for stopping, and the only test is lost. -/
theorem largest_time_limit_overflows :
    Request.read ["run", "--timeout", "18446744073709551615", "t"] =
        .ok (.run { paths := ["t"], timeout := some 18446744073709551615 }) ∧
      (∀ case : TestCase, Plan.giveUpSeconds? ⟨{ timeouts := { run := 18446744073709551615 } }, case⟩ = none) ∧
      (perform Machine.outside (fun _ => "") none ["run", "--timeout", "18446744073709551615", "t"] oneTest).1 =
        { stdout := "Running 1 test (1 at a time)\n\n✓ 0 passed, 0 failed\n", code := 0 } :=
  ⟨by decide +kernel, fun _ => rfl, by decide +kernel⟩

end Conformance.Cli
