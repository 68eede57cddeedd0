import Conformance.Proofs.Runs.Actions
import Conformance.Proofs.Script.Chronicle
import Conformance.Runs.Run
import Mathlib.Data.List.Sort
import Mathlib.Data.String.Basic

/-!
# What the outcome of a run says

A run passed exactly if it was set up, its test has scripts, all of them ran through in the order of their names, and
nothing that was expected of any client mismatched; it failed with the mismatches in order exactly if there were any
(`reported_iff`). No run whose scripts ran through was called off, since a wait that is cut short ends in a fault
(`Plan.RanThrough.inOrder`), and such a fault, however many failed commands it is the cause of, is no fault of the run
(`outcome_of_cancelled`).
-/
namespace Conformance.Service

variable {τ : Type} {P : τ → Prop}

/-! ## Replies come from exchanges that were not cancelled -/

theorem Caller.callOnce_of_ok {carrier : Carrier τ} {method : String} {params : List Json} {caller : Caller} {t : τ}
    (hexchange : ∀ endpoint request t, (carrier.exchange endpoint request t).1 ≠ .cancelled →
      P (carrier.exchange endpoint request t).2)
    {v : Json} (h : (caller.callOnce carrier method params t).1 = .ok v) :
    P (caller.callOnce carrier method params t).2.2 := by
  refine hexchange caller.endpoint (caller.issue method params).1 t fun hcancelled => ?_
  have hresult : (caller.callOnce carrier method params t).1 =
      (carrier.exchange caller.endpoint (caller.issue method params).1 t).1.result (caller.issue method params).1.id := rfl
  rw [hresult, hcancelled] at h
  cases h

/-- A call that has a result is behind an exchange that was not cancelled. -/
theorem Caller.call_of_ok {carrier : Carrier τ} {method : String} {params : List Json} {caller : Caller} {t : τ}
    (hexchange : ∀ endpoint request t, (carrier.exchange endpoint request t).1 ≠ .cancelled →
      P (carrier.exchange endpoint request t).2)
    {v : Json} (h : (caller.call carrier method params t).1 = .ok v) : P (caller.call carrier method params t).2.2 := by
  rw [call] at h ⊢
  split at h
  · exact callOnce_of_ok hexchange h
  · exact callOnce_of_ok hexchange h

/-- So is a service that has answered when it was waited for. -/
theorem Caller.awaitReadyFrom_of_ok {timed : TimedCarrier τ}
    (hexchange : ∀ endpoint request t, (timed.exchange endpoint request t).1 ≠ .cancelled →
      P (timed.exchange endpoint request t).2)
    (schedule : Backoff) (start n : Nat) (caller : Caller) {t : τ}
    (h : (caller.awaitReadyFrom timed schedule start n t).1 = .ok ()) :
    P (caller.awaitReadyFrom timed schedule start n t).2.2 := by
  induction n generalizing caller t with
  | zero =>
    cases h
  | succ n ih =>
    rw [awaitReadyFrom] at h ⊢
    split at h
    · rename_i hcall
      have hdone := call_of_ok hexchange (congrArg Prod.fst hcall)
      rw [hcall] at hdone
      exact hdone
    · cases h
    · split at h
      · cases h
      · split at h
        · cases h
        · exact ih _ h

end Conformance.Service

namespace Conformance.Fault

/-! ## Cancellations -/

/-- A cancellation as the cause of commands that failed, the innermost last: the text and the line of each. -/
def cancelledIn (commands : List (String × Nat)) : Fault :=
  commands.foldr (fun command fault => .command command.1 command.2 fault) .cancelled

theorem isCancelled_iff {f : Fault} : f.isCancelled = true ↔ ∃ commands, f = cancelledIn commands := by
  constructor
  · intro h
    induction f with
    | cancelled => exact ⟨[], rfl⟩
    | command text line source ih =>
      obtain ⟨commands, hsource⟩ := ih h
      exact ⟨(text, line) :: commands, by rw [hsource]; rfl⟩
    | _ => cases h
  · rintro ⟨commands, rfl⟩
    induction commands with
    | nil => rfl
    | cons command commands ih => exact ih

end Conformance.Fault

namespace Conformance.Script

open Files

/-! ## The scripts of a directory -/

/-- Whether this is the name of a script in a directory. -/
def isScript (disk : Disk) (dir extension name : String) : Bool :=
  disk.isFile (Path.join dir name) && Path.extension? (Path.join dir name) = some extension

theorem sortedNames_pairwise (names : List String) : (sortedNames names).Pairwise (· ≤ ·) := by
  have htrans : ∀ a b c : String, decide (a ≤ b) = true → decide (b ≤ c) = true → decide (a ≤ c) = true := by
    simp only [decide_eq_true_eq]
    exact fun a b c => le_trans
  have htotal : ∀ a b : String, (decide (a ≤ b) || decide (b ≤ a)) = true := by
    simp only [Bool.or_eq_true, decide_eq_true_eq]
    exact le_total
  exact (List.pairwise_mergeSort htrans htotal names).imp of_decide_eq_true

/-- The scripts of a directory are its files of the extension in the order of their names. -/
theorem scriptFiles_eq_ok_iff {disk : Disk} {dir extension : String} {paths : List String} :
    scriptFiles disk dir extension = .ok paths ↔
      ∃ listing names : List String, disk.list dir = .ok listing ∧ names.Perm (listing.filter (isScript disk dir extension)) ∧
        names.Pairwise (· ≤ ·) ∧ paths = names.map (Path.join dir) := by
  have hfiltered : ∀ listing : List String, ((sortedNames listing).map (Path.join dir)).filter
      (fun path => disk.isFile path && Path.extension? path = some extension) =
      ((sortedNames listing).filter (isScript disk dir extension)).map (Path.join dir) := fun _ => List.filter_map
  have hperm : ∀ listing : List String, ((sortedNames listing).filter (isScript disk dir extension)).Perm
      (listing.filter (isScript disk dir extension)) := fun listing => (List.mergeSort_perm listing _).filter _
  have hsorted : ∀ listing : List String,
      ((sortedNames listing).filter (isScript disk dir extension)).Pairwise (· ≤ ·) :=
    fun listing => (sortedNames_pairwise listing).filter _
  rw [scriptFiles]
  cases hlist : disk.list dir with
  | error e =>
    constructor
    · intro h
      cases h
    · rintro ⟨listing, names, h, -⟩
      cases h
  | ok listing =>
    dsimp only
    rw [hfiltered]
    constructor
    · intro h
      exact ⟨listing, _, rfl, hperm listing, hsorted listing, (Except.ok.inj h).symm⟩
    · rintro ⟨_, names, h, hnames, hpairwise, rfl⟩
      cases h
      rw [((hperm listing).trans hnames.symm).eq_of_pairwise' (hsorted listing) hpairwise]

end Conformance.Script

namespace Conformance.Runs

open Service

variable {σ : Type}

/-! ## Answers come before a run is called off -/

namespace Bench

variable (o : Outside σ)

/-- Whatever an exchange gives but a cancellation, it gives while waiting makes sense. -/
theorem isOver_exchange {endpoint : Endpoint} {request : Request} {b : Bench σ}
    (h : (b.exchange o endpoint request).1 ≠ .cancelled) : (b.exchange o endpoint request).2.isOver = false := by
  rw [exchange] at h ⊢
  split
  · rename_i hover
    rw [if_pos hover] at h
    exact absurd rfl h
  · rename_i hover
    rw [if_neg hover] at h
    dsimp only at h ⊢
    split
    · rename_i hover'
      rw [if_pos hover'] at h
      exact absurd rfl h
    · rename_i hover'
      split
      · exact Bool.eq_false_iff.2 hover'
      · exact Bool.eq_false_iff.2 hover'

theorem calledOff_of_isOver {b : Bench σ} (h : b.isOver = false) : b.calledOff = false := (Bool.or_eq_false_iff.1 h).1

/-- A client whose command is answered is one of a run that has not been called off. -/
theorem keeps_link : (link o).Keeps fun b => b.calledOff = false := by
  intro name command b reply hb h
  rw [link] at h ⊢
  dsimp only at h ⊢
  cases hcaller : b.callers.lookup name with
  | none =>
    rw [hcaller] at h
    cases h
  | some caller =>
    rw [hcaller] at h
    dsimp only [Caller.execute] at h ⊢
    cases hcall : caller.call (carrier o).toCarrier executeMethod [.str command] b with
    | mk result rest =>
      rw [hcall] at h
      cases result with
      | error f => cases h
      | ok v =>
        have hover := Caller.call_of_ok (P := fun b : Bench σ => b.isOver = false)
          (fun _ _ _ => isOver_exchange o) (congrArg Prod.fst hcall)
        rw [hcall] at hover
        exact calledOff_of_isOver hover

end Bench

/-! ## What a setup leaves -/

/-- Nothing has been recorded yet, no client has put anything out, the program is running and the run is not called
off. -/
structure Fresh (s : Script.Session (Bench σ)) : Prop where
  failures : s.failures = []
  clients : ∀ c ∈ s.clients, c.output = {}
  running : s.crashed = false
  calledOff : s.link.calledOff = false

/-- The session is as fresh if what is recorded, the clients and the time to go on are the same. -/
theorem Fresh.of_same {s s' : Script.Session (Bench σ)} (h : Fresh s) (hfailures : s'.failures = s.failures)
    (hclients : s'.clients = s.clients) (hcrashed : s'.crashed = s.crashed)
    (hcalledOff : s'.link.calledOff = s.link.calledOff) : Fresh s' :=
  ⟨hfailures.trans h.failures, fun c hc => h.clients c (hclients ▸ hc), hcrashed.trans h.running,
    hcalledOff.trans h.calledOff⟩

/-- A client that is registered has not put anything out. -/
theorem Fresh.register {s : Script.Session (Bench σ)} (h : Fresh s) (name : String) : Fresh (s.register { name }) := by
  refine ⟨h.failures, fun c hc => ?_, h.running, h.calledOff⟩
  dsimp only [Script.Session.register] at hc
  split at hc
  · obtain ⟨old, hold, rfl⟩ := List.mem_map.1 hc
    split
    · rfl
    · exact h.clients old hold
  · rcases List.mem_append.1 hc with hc | hc
    · exact h.clients c hc
    · obtain rfl := List.mem_singleton.1 hc
      rfl

/-- Where the action ends with a result, the session is still fresh. -/
abbrev Prepares {α : Type} (x : Script.Action (Bench σ) α) : Prop := Upholds Fresh (fun _ => True) x

theorem prepares_setVariable (name : String) (value : Expr.Value) :
    Prepares (setVariable name value : Script.Action (Bench σ) Unit) :=
  upholds_modify fun _ hs => hs.of_same rfl rfl rfl rfl

theorem prepares_onWorld {α : Type} (e : Effect σ α) : Prepares (onWorld e) :=
  fun _ hs => leads_onWorld (fun _ _ _ => hs.of_same rfl rfl rfl rfl) fun _ _ _ => trivial

theorem prepares_throw {α : Type} (fault : Fault) : Prepares (throw fault : Script.Action (Bench σ) α) :=
  upholds_throw fault fun _ _ => trivial

namespace Plan

variable (o : Outside σ) (p : Plan)

theorem prepares_takePort (asked : Option UInt16) : Prepares (takePort o asked) :=
  upholds_takePort o asked (fun _ _ hs => hs.of_same rfl rfl rfl rfl) fun _ _ => trivial

theorem prepares_openCaller (c : Cases.ClientSpec) (host : String) (port : UInt16) (handle : Option Handle) :
    Prepares (p.openCaller o c host port handle) := by
  refine upholds_get_bind fun u => ?_
  split
  · exact upholds_pure _
  · cases handle with
    | some handle => exact (prepares_onWorld _).bind fun _ => prepares_throw _
    | none => exact prepares_throw _

theorem prepares_enlist (name : String) (caller : Caller) (handle : Option Handle) :
    Prepares (enlist o name caller handle) := by
  rw [enlist_eq]
  refine upholds_get_bind fun u => ?_
  dsimp only
  have hrest : ∀ change : Bench σ → Bench σ, (∀ b, (change b).calledOff = b.calledOff) → Prepares (do
      onBench change
      modify (·.register { name })) :=
    fun change hchange => Upholds.bind (upholds_modify fun s hs => hs.of_same rfl rfl rfl (hchange s.link)) fun _ =>
      upholds_modify fun _ hs => hs.register name
  split
  · exact (prepares_onWorld _).bind fun _ => hrest _ fun _ => rfl
  · exact hrest _ fun _ => rfl

/-- A service that has answered when it was waited for has done so before the run was called off. -/
theorem prepares_awaitService (caller : Caller) (handle : Handle) (pid : Nat) :
    Prepares (p.awaitService o caller handle pid) := by
  intro s hs
  obtain ⟨done, hdone, ⟨hok, hready⟩ | ⟨fault, herror⟩⟩ := awaitService_cases o p caller handle pid s
  · have hover : done.2.2.isOver = false := by
      rw [hdone] at hready ⊢
      exact Caller.awaitReadyFrom_of_ok (P := fun b : Bench σ => b.isOver = false)
        (fun _ _ _ => Bench.isOver_exchange o) _ _ _ _ hready
    have hcalledOff := Bench.calledOff_of_isOver hover
    exact leads_of_ok hok ⟨hs.failures, hs.clients, hs.running, hcalledOff⟩
  · exact leads_of_error herror trivial

theorem prepares_spawnClient (c : Cases.ClientSpec) : Prepares (p.spawnClient o c) := by
  refine (prepares_takePort o _).bind fun p2p => (prepares_takePort o _).bind fun rpc =>
    (prepares_takePort o _).bind fun http => upholds_get_bind fun u => ?_
  dsimp only
  split
  · refine (prepares_onWorld _).bind fun _ => (prepares_onWorld _).bind fun handle =>
      (p.prepares_openCaller o c _ _ _).bind fun caller => (prepares_setVariable _ _).bind fun _ =>
      (prepares_setVariable _ _).bind fun _ => (prepares_setVariable _ _).bind fun _ =>
      (prepares_enlist o _ _ _).bind fun _ => ?_
    split
    · exact p.prepares_awaitService o _ _ _
    · exact upholds_pure _
  · exact prepares_throw _

theorem prepares_connectClient (c : Cases.ClientSpec) : Prepares (p.connectClient o c) := by
  rw [connectClient]
  split
  · exact prepares_throw _
  · exact (p.prepares_openCaller o c _ _ _).bind fun caller => (prepares_setVariable _ _).bind fun _ =>
      prepares_enlist o _ _ _

theorem prepares_bringUp (clients : List Cases.ClientSpec) : Prepares (p.bringUp o clients) := by
  induction clients with
  | nil => exact upholds_pure ()
  | cons c rest ih =>
    rw [bringUp]
    dsimp only
    split
    · exact (p.prepares_spawnClient o c).bind fun _ => ih
    · exact (p.prepares_connectClient o c).bind fun _ => ih

/-- A setup that is made leaves a fresh session. -/
theorem prepares_setup : Prepares (p.setup o) := by
  refine (prepares_onWorld _).bind fun _ => ?_
  dsimp only
  split
  · rw [pure_bind]
    refine Upholds.bind (upholds_modify fun _ hs => hs.of_same rfl rfl rfl rfl) fun _ =>
      (prepares_setVariable _ _).bind fun _ => (prepares_setVariable _ _).bind fun _ =>
      (p.prepares_bringUp o _).bind fun _ => ?_
    split
    · exact upholds_modify fun _ hs => hs.of_same rfl rfl rfl rfl
    · exact upholds_pure ()
  · exact prepares_throw _

/-! ## Runs whose scripts ran through -/

/-- The run was set up, these are the names of the scripts of its test in order, and all of them ran through, which left
the session. The log is what was done with the clients. -/
def RanThrough (ports : Ports.Allocator) (w : World σ) (names : List String) (log : Script.Log)
    (s : Script.Session (Bench σ)) : Prop :=
  ∃ s₁ listing, (p.setup o).run { link := p.bench ports w } = .ok () s₁ ∧
    s₁.link.world.disk.list p.case.dir = .ok listing ∧
    names.Perm (listing.filter (Script.isScript s₁.link.world.disk p.case.dir p.settings.runner.scriptExtension)) ∧
    names.Pairwise (· ≤ ·) ∧
    Script.RunsThrough (Bench.link o) (·.world.disk) (names.map (Files.Path.join p.case.dir)) s₁ log s

variable {o p} {ports : Ports.Allocator} {w : World σ} {names : List String} {log : Script.Log}
  {s : Script.Session (Bench σ)}

theorem performed_eq_ok_iff {n : Nat} :
    p.performed o ports w = (.ok n, s) ↔ ∃ names log, p.RanThrough o ports w names log s ∧ names.length = n := by
  -- taking the result apart loses nothing
  have hperformed : p.performed o ports w = (.ok n, s) ↔
      (p.perform o).run { link := p.bench ports w } = .ok n s := by
    unfold performed
    show _ ↔ p.perform o { link := p.bench ports w } = .ok n s
    split
    · rename_i hrun
      rw [hrun]
      simp
    · rename_i hrun
      rw [hrun]
      simp
  rw [hperformed]
  constructor
  · intro h
    obtain ⟨_, s₁, hsetup, h⟩ := Script.run_bind_eq_ok h
    obtain ⟨paths, s₂, hdir, h⟩ := Script.run_bind_eq_ok h
    injection h with hn hs
    subst hn hs
    rw [Script.runDir, EStateM.run_bind, EStateM.run_get] at hdir
    dsimp only at hdir
    split at hdir
    · injection hdir
    · rename_i hfiles
      obtain ⟨_, s₃, hrun, h⟩ := Script.run_bind_eq_ok hdir
      injection h with hpaths hs
      subst hpaths hs
      obtain ⟨listing, names, hlist, hperm, hpairwise, rfl⟩ := Script.scriptFiles_eq_ok_iff.1 hfiles
      obtain ⟨log, hlog⟩ := Script.run_runFiles_eq_ok.1 hrun
      exact ⟨names, log, ⟨s₁, listing, hsetup, hlist, hperm, hpairwise, hlog⟩, (List.length_map _).symm⟩
  · rintro ⟨names, log, ⟨s₁, listing, hsetup, hlist, hperm, hpairwise, hlog⟩, rfl⟩
    have hfiles := Script.scriptFiles_eq_ok_iff.2 ⟨listing, names, hlist, hperm, hpairwise, rfl⟩
    have hrun := Script.run_runFiles_eq_ok.2 ⟨log, hlog⟩
    have hdir : (Script.runDir (Bench.link o) (·.world.disk) p.case.dir p.settings.runner.scriptExtension).run s₁ =
        .ok (names.map (Files.Path.join p.case.dir)) s := by
      rw [Script.runDir, EStateM.run_bind, EStateM.run_get]
      dsimp only
      rw [hfiles]
      dsimp only
      rw [Script.run_bind_ok hrun]
      rfl
    rw [perform, Script.run_bind_ok hsetup, Script.run_bind_ok hdir, List.length_map]
    rfl

/-- The session behind scripts that ran through: the program is running, the run was not called off, and the failures are
the mismatches of what was done. -/
theorem RanThrough.ends (h : p.RanThrough o ports w names log s) :
    s.crashed = false ∧ s.link.calledOff = false ∧
      s.failures.map (fun f => (f.client, f.expected, f.actual)) = Script.chronicle (fun _ => {}) log := by
  obtain ⟨s₁, listing, hsetup, -, -, -, hlog⟩ := h
  have hstart : Fresh ({ link := p.bench ports w } : Script.Session (Bench σ)) :=
    ⟨rfl, fun _ hc => absurd hc List.not_mem_nil, rfl, rfl⟩
  have hfresh : Fresh s₁ := (p.prepares_setup o _ hstart).of_ok () s₁ hsetup
  have horder := hlog.inOrder (Bench.keeps_link o) ⟨hfresh.running, hfresh.calledOff⟩
  obtain ⟨added, hfailures, htold⟩ := hlog.tells.told
  have houtputs : s₁.outputs = fun _ => {} := by
    funext name
    rw [Script.Session.outputs]
    cases hc : s₁.client? name with
    | none => rfl
    | some c => exact hfresh.clients c (List.mem_of_find?_eq_some hc)
  refine ⟨horder.running, horder.link, ?_⟩
  rw [hfailures, hfresh.failures, List.nil_append, htold, houtputs]

/-! ## Outcomes -/

/-- Where all scripts have run through, it is the failures that decide. -/
theorem outcome_of_ran {n : Nat} (hn : n ≠ 0) (failures : List Output.Failure) :
    p.outcome false (.ok n) failures = if failures.isEmpty then .passed else .failed failures := by
  cases n with
  | zero => exact absurd rfl hn
  | succ n => rfl

/-- A run passes or fails only if all of its scripts have run through. -/
theorem ran_of_outcome {calledOff : Bool} {scripts : Except Fault Nat} {failures : List Output.Failure}
    (h : p.outcome calledOff scripts failures = .passed ∨ ∃ fs, p.outcome calledOff scripts failures = .failed fs) :
    calledOff = false ∧ ∃ n, scripts = .ok n ∧ n ≠ 0 := by
  cases calledOff with
  | true => rcases h with h | ⟨_, h⟩ <;> cases h
  | false =>
    cases scripts with
    | ok n =>
      cases n with
      | zero => rcases h with h | ⟨_, h⟩ <;> cases h
      | succ n => exact ⟨rfl, n + 1, rfl, Nat.succ_ne_zero n⟩
    | error f =>
      have hout : p.outcome false (.error f) failures = if f.isCancelled then .timedOut else .aborted f := rfl
      rw [hout] at h
      split at h
      · rcases h with h | ⟨_, h⟩ <;> cases h
      · rcases h with h | ⟨_, h⟩ <;> cases h

theorem outcome_eq_passed_iff {calledOff : Bool} {scripts : Except Fault Nat} {failures : List Output.Failure} :
    p.outcome calledOff scripts failures = .passed ↔
      calledOff = false ∧ (∃ n, scripts = .ok n ∧ n ≠ 0) ∧ failures = [] := by
  constructor
  · intro h
    obtain ⟨rfl, n, rfl, hn⟩ := ran_of_outcome (.inl h)
    rw [outcome_of_ran hn] at h
    split at h
    · rename_i hempty
      exact ⟨rfl, ⟨n, rfl, hn⟩, List.isEmpty_iff.1 hempty⟩
    · cases h
  · rintro ⟨rfl, ⟨n, rfl, hn⟩, rfl⟩
    exact outcome_of_ran hn []

theorem outcome_eq_failed_iff {calledOff : Bool} {scripts : Except Fault Nat} {failures fs : List Output.Failure} :
    p.outcome calledOff scripts failures = .failed fs ↔
      calledOff = false ∧ (∃ n, scripts = .ok n ∧ n ≠ 0) ∧ failures = fs ∧ fs ≠ [] := by
  constructor
  · intro h
    obtain ⟨rfl, n, rfl, hn⟩ := ran_of_outcome (.inr ⟨fs, h⟩)
    rw [outcome_of_ran hn] at h
    split at h
    · cases h
    · rename_i hfailures
      obtain rfl := Outcome.failed.inj h
      exact ⟨rfl, ⟨n, rfl, hn⟩, rfl, mt List.isEmpty_iff.2 hfailures⟩
  · rintro ⟨rfl, ⟨n, rfl, hn⟩, rfl, hne⟩
    rw [outcome_of_ran hn]
    exact if_neg (mt List.isEmpty_iff.1 hne)

theorem outcome_of_cancelled (calledOff : Bool) {fault : Fault} (h : fault.isCancelled = true)
    (failures : List Output.Failure) : p.outcome calledOff (.error fault) failures = .timedOut := by
  unfold outcome
  split
  · rfl
  · exact if_pos h

/-- A run is never aborted by a cancellation. -/
theorem not_isCancelled_of_aborted {calledOff : Bool} {scripts : Except Fault Nat} {failures : List Output.Failure}
    {fault : Fault} (h : p.outcome calledOff scripts failures = .aborted fault) : fault.isCancelled = false := by
  unfold outcome at h
  split at h
  · cases h
  · split at h
    · cases h
      rfl
    · split at h
      · cases h
      · cases h
    · split at h
      · cases h
      · rename_i hnot
        cases h
        exact Bool.eq_false_iff.2 hnot

/-- What is reported of a run in which the program does not break down. -/
theorem reports_iff {outcome : Outcome} :
    (∃ report, (p.runCase o ports w).1 = some report ∧ report.outcome = outcome) ↔
      (p.performed o ports w).2.crashed = false ∧
      p.outcome (p.performed o ports w).2.link.calledOff (p.performed o ports w).1
        (p.performed o ports w).2.failures = outcome := by
  rw [runCase]
  cases (p.performed o ports w).2.crashed with
  | true => simp
  | false => simp [concluded]

end Plan

/-- Whatever the services, the clock and the disk do, a run is reported to have passed exactly if it was set up, its test
has scripts, all of them ran through in the order of their names, nothing that was expected of any client mismatched, and
the run was not called off. It is reported to have failed with these failures exactly if all scripts ran through and
something mismatched, and then the failures are all mismatches in order. When the run ends in a cancellation, bare or as
the cause of any number of failed commands, it is reported to have timed out, and never to have been aborted. -/
theorem runCase_outcome {σ : Type} (o : Outside σ) (p : Plan) (ports : Ports.Allocator) (w : World σ) :
    ((∃ report, (p.runCase o ports w).1 = some report ∧ report.outcome = .passed) ↔
      ∃ names log s, names ≠ [] ∧ p.RanThrough o ports w names log s ∧ Script.chronicle (fun _ => {}) log = [] ∧
        s.link.calledOff = false) ∧
    (∀ failures, (∃ report, (p.runCase o ports w).1 = some report ∧ report.outcome = .failed failures) ↔
      ∃ names log s, names ≠ [] ∧ p.RanThrough o ports w names log s ∧ Script.chronicle (fun _ => {}) log ≠ [] ∧
        failures = s.failures ∧
        failures.map (fun f => (f.client, f.expected, f.actual)) = Script.chronicle (fun _ => {}) log) ∧
    ∀ report, (p.runCase o ports w).1 = some report →
      (∀ commands, (p.performed o ports w).1 = .error (.cancelledIn commands) → report.outcome = .timedOut) ∧
      ∀ commands, report.outcome ≠ .aborted (.cancelledIn commands) := by
  have hsplit : ∀ {n : Nat}, (p.performed o ports w).1 = .ok n →
      p.performed o ports w = (.ok n, (p.performed o ports w).2) := fun h => Prod.ext h rfl
  -- both verdicts on a run whose scripts ran through, from what they say about its failures
  have hran : ∀ {P : List Output.Failure → Prop},
      ((p.performed o ports w).2.crashed = false ∧ (p.performed o ports w).2.link.calledOff = false ∧
        (∃ n, (p.performed o ports w).1 = .ok n ∧ n ≠ 0) ∧ P (p.performed o ports w).2.failures) ↔
      ∃ names log s, names ≠ [] ∧ p.RanThrough o ports w names log s ∧ P s.failures := by
    intro P
    constructor
    · rintro ⟨-, -, ⟨n, hn, hpos⟩, hP⟩
      obtain ⟨names, log, hlog, rfl⟩ := Plan.performed_eq_ok_iff.1 (hsplit hn)
      exact ⟨names, log, _, fun hnil => hpos (by rw [hnil]; rfl), hlog, hP⟩
    · rintro ⟨names, log, s, hne, hlog, hP⟩
      obtain ⟨hcrashed, hcalledOff, -⟩ := hlog.ends
      have hperformed := Plan.performed_eq_ok_iff.2 ⟨names, log, hlog, rfl⟩
      rw [hperformed]
      exact ⟨hcrashed, hcalledOff, ⟨_, rfl, fun hlength => hne (List.length_eq_zero_iff.1 hlength)⟩, hP⟩
  refine ⟨?_, fun failures => ?_, fun report hreport => ⟨fun commands hcancelled => ?_, fun commands haborted => ?_⟩⟩
  · rw [Plan.reports_iff, Plan.outcome_eq_passed_iff, hran (P := (· = []))]
    constructor
    · rintro ⟨names, log, s, hne, hlog, hfailures⟩
      obtain ⟨-, hcalledOff, htold⟩ := hlog.ends
      exact ⟨names, log, s, hne, hlog, by rw [← htold, hfailures]; rfl, hcalledOff⟩
    · rintro ⟨names, log, s, hne, hlog, hchronicle, -⟩
      obtain ⟨-, -, htold⟩ := hlog.ends
      exact ⟨names, log, s, hne, hlog, List.map_eq_nil_iff.1 (htold.trans hchronicle)⟩
  · rw [Plan.reports_iff, Plan.outcome_eq_failed_iff, hran (P := fun fs => fs = failures ∧ failures ≠ [])]
    constructor
    · rintro ⟨names, log, s, hne, hlog, rfl, hfailures⟩
      obtain ⟨-, -, htold⟩ := hlog.ends
      exact ⟨names, log, s, hne, hlog, fun hnil => hfailures (List.map_eq_nil_iff.1 (htold.trans hnil)), rfl, htold⟩
    · rintro ⟨names, log, s, hne, hlog, hchronicle, rfl, htold⟩
      exact ⟨names, log, s, hne, hlog, rfl, fun hnil => hchronicle (by rw [← htold, hnil]; rfl)⟩
  · obtain ⟨-, houtcome⟩ := Plan.reports_iff.1 ⟨report, hreport, rfl⟩
    rw [hcancelled, Plan.outcome_of_cancelled _ (Fault.isCancelled_iff.2 ⟨commands, rfl⟩)] at houtcome
    exact houtcome.symm
  · obtain ⟨-, houtcome⟩ := Plan.reports_iff.1 ⟨report, hreport, haborted⟩
    have hnot := Plan.not_isCancelled_of_aborted houtcome
    rw [Fault.isCancelled_iff.2 ⟨commands, rfl⟩] at hnot
    cases hnot

/-- A service that runs already and answers every command with the same text. -/
def greeting : Outside Unit where
  launch _ _ _ _ := .ok ()
  pass _ disk _ := (disk, ())
  status _ _ := none
  terminate _ _ := ()
  kill _ _ := ()
  exchange _ _ _ := (.reply 200 "\x7b\"result\":\"hello\",\"error\":null,\"id\":1\x7d", 1, ())
  listening _ := none
  searchPath := []

/-- A test with that service as its only client. -/
def greeted : Plan :=
  { settings := {}
    case := { name := "a", dir := "t",
              environment := { clients := [{ name := "al", spawn := false, rpcPort := some 1 }] } } }

/-- The test has this script and no other. -/
def oneScript (src : String) : World Unit :=
  { disk := { root := .dir [("t", .dir [("01.btstest", .file (.text src) false)])], here := "/" }, outside := () }

example : (greeted.runCase greeting (.new 1 2) (oneScript ">>> hi\nhello\n")).1.map (·.outcome) = some .passed := by
  decide +kernel

example : (greeted.runCase greeting (.new 1 2) (oneScript ">>> hi\nbye\n")).1.map (·.outcome) =
    some (.failed [⟨"t/01.btstest", 2, 1, "al", some "hi", "bye", "hello"⟩]) := by
  decide +kernel

end Conformance.Runs
