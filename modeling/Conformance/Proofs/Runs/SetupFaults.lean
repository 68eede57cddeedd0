import Conformance.Proofs.Runs.Actions
import Conformance.Proofs.Runs.DataDirectories
import Conformance.Proofs.Script.Addressing

/-!
# What a setup fails of

A setup fails of what it finds outside: files, programs, ports and services. If its environment has been accepted, it
never fails of what this says: no configuration makes no sense, and every client that it asks for is there
(`Plan.failsOutward_setup`).
-/
namespace Conformance.Runs

open Service Cases Script

/-! ## Faults of actions -/

/-- The fault lies in what a run finds outside, and not in what its environment or its scripts say. -/
def Outward : Fault → Prop
  | .io _ | .fileRead .. | .json _ | .processStart _ | .alreadyStarted _ | .portsExhausted .. | .transport _
  | .readyTimeout _ | .cancelled => True
  | _ => False

theorem Outward.not_missesClient {f : Fault} (h : Outward f) : ¬ MissesClient f := by
  intro missing
  cases f with
  | unknownClient | command => exact h
  | _ => exact missing

theorem Outward.ne_config {f : Fault} (h : Outward f) (message : String) : f ≠ .config message := by
  rintro rfl
  exact h

/-- Whatever the action starts from, it fails of nothing but what it finds outside. -/
def FailsOutward {τ α : Type} (x : EStateM Fault τ α) : Prop := ∀ t f t', x.run t = .error f t' → Outward f

section Actions

variable {τ α β : Type} {x : EStateM Fault τ α}

theorem failsOutward_pure (a : α) : FailsOutward (pure a : EStateM Fault τ α) := fun _ _ _ h => by cases h

theorem failsOutward_throw {f : Fault} (hf : Outward f) : FailsOutward (throw f : EStateM Fault τ α) := by
  intro t f' t' h
  obtain ⟨rfl, -⟩ := EStateM.Result.error.inj h
  exact hf

theorem failsOutward_bind {g : α → EStateM Fault τ β} (hx : FailsOutward x) (hg : ∀ a, FailsOutward (g a)) :
    FailsOutward (x >>= g) := by
  intro t f t' h
  rcases run_bind_eq_error h with h | ⟨a, u, -, h⟩
  · exact hx t f t' h
  · exact hg a u f t' h

theorem failsOutward_get_bind {g : τ → EStateM Fault τ β} (hg : ∀ t, FailsOutward (g t)) : FailsOutward (get >>= g) :=
  fun t => hg t t

theorem failsOutward_set (t : τ) : FailsOutward (set t : EStateM Fault τ PUnit) := fun _ _ _ h => by cases h

theorem failsOutward_modify (change : τ → τ) : FailsOutward (modify change : EStateM Fault τ PUnit) :=
  fun _ _ _ h => by cases h

/-- What is caught is thrown again, or leads to another fault. -/
theorem failsOutward_tryCatch (hx : FailsOutward x) {handle : Fault → EStateM Fault τ α}
    (hhandle : ∀ f, Outward f → FailsOutward (handle f)) : FailsOutward (tryCatch x handle) := by
  intro t f t' h
  have hrun : (tryCatch x handle : EStateM Fault τ α) t =
      match x t with
      | .ok a u => .ok a u
      | .error f u => handle f (EStateM.Backtrackable.restore u (EStateM.Backtrackable.save t)) := by
    show EStateM.tryCatch x handle t = _
    rw [EStateM.tryCatch]
    cases x t <;> rfl
  have h : (tryCatch x handle : EStateM Fault τ α) t = .error f t' := h
  rw [hrun] at h
  cases hx' : x t with
  | ok a u =>
    rw [hx'] at h
    cases h
  | error f' u =>
    rw [hx'] at h
    exact hhandle f' (hx t f' u hx') _ f t' h

end Actions

/-! ## Effects -/

section Effects

variable {σ α : Type} (o : Outside σ)

theorem failsOutward_onDisk (f : Files.Disk → Except Files.FileError Files.Disk) :
    FailsOutward (Effect.onDisk f : Effect σ Unit) := by
  refine failsOutward_get_bind fun w => ?_
  split
  · exact failsOutward_set _
  · exact failsOutward_throw trivial

theorem failsOutward_withDisk {f : Files.Disk → Except Fault (α × Files.Disk)}
    (hf : ∀ disk fault, f disk = .error fault → Outward fault) : FailsOutward (Effect.withDisk f : Effect σ α) := by
  refine failsOutward_get_bind fun w => ?_
  split
  · exact failsOutward_bind (failsOutward_set _) fun _ => failsOutward_pure _
  · rename_i fault h
    exact failsOutward_throw (hf w.disk fault h)

theorem outward_of_fileFault {r : Except Files.FileError α} {fault : Fault} (h : fileFault r = .error fault) :
    Outward fault := by
  cases r with
  | ok a => cases h
  | error e =>
    cases h
    trivial

theorem outward_of_fileFault_bind {r : Except Files.FileError α} {β : Type} {g : α → β} {fault : Fault}
    (h : (fileFault r >>= fun a => pure (g a)) = .error fault) : Outward fault := by
  cases hr : fileFault r with
  | ok a =>
    rw [hr] at h
    cases h
  | error f =>
    rw [hr] at h
    cases h
    exact outward_of_fileFault hr

theorem outward_of_writeGenesis {disk : Files.Disk} {base dataDir newPrefix : String} {known : List String}
    {fault : Fault} (h : writeGenesis disk base dataDir newPrefix known = .error fault) : Outward fault := by
  rw [writeGenesis] at h
  split at h
  · cases h
    exact trivial
  · split at h
    · cases h
      exact trivial
    · exact outward_of_fileFault_bind h

theorem failsOutward_prepare (spec : LaunchSpec) : FailsOutward (Handle.prepare spec : Effect σ (Option String)) := by
  have hrest : ∀ genesis : Option String, FailsOutward (do
      let _ ← Effect.withDisk fun disk => writeCheckpoints disk spec.dataDir
      Effect.onDisk (·.writeText (Files.Path.join spec.dataDir stdoutFile) "")
      Effect.onDisk (·.writeText (Files.Path.join spec.dataDir stderrFile) "")
      return genesis : Effect σ (Option String)) := fun genesis =>
    failsOutward_bind (failsOutward_withDisk fun _ _ h => outward_of_fileFault_bind h) fun _ =>
      failsOutward_bind (failsOutward_onDisk _) fun _ => failsOutward_bind (failsOutward_onDisk _) fun _ =>
      failsOutward_pure _
  refine failsOutward_bind (failsOutward_onDisk _) fun _ => ?_
  dsimp only
  split
  · exact failsOutward_bind (failsOutward_withDisk fun _ _ h => outward_of_writeGenesis h) fun _ =>
      failsOutward_bind (failsOutward_pure _) hrest
  · exact failsOutward_bind (failsOutward_pure _) hrest

theorem failsOutward_launch (spec : LaunchSpec) (genesis : Option String) :
    FailsOutward (Handle.launch o spec genesis) := by
  refine failsOutward_get_bind fun w => ?_
  dsimp only
  split
  · exact failsOutward_throw trivial
  · exact failsOutward_bind (failsOutward_set _) fun _ => failsOutward_pure _

theorem failsOutward_recordPid (spec : LaunchSpec) (pid : Nat) : FailsOutward (Handle.recordPid o spec pid) := by
  refine failsOutward_tryCatch ?_ fun f hf =>
    failsOutward_bind (failsOutward_modify _) fun _ => failsOutward_throw hf
  dsimp only
  split
  · exact failsOutward_bind (failsOutward_onDisk _) fun _ => failsOutward_onDisk _
  · exact failsOutward_onDisk _

theorem failsOutward_start (h : Handle) : FailsOutward (h.start o) := by
  have hrest : FailsOutward (do
      let genesis ← Handle.prepare h.spec
      let pid ← Handle.launch o h.spec genesis
      Handle.recordPid o h.spec pid
      return { h with child := some pid, pid := some pid } : Effect σ Handle) :=
    failsOutward_bind (failsOutward_prepare _) fun _ => failsOutward_bind (failsOutward_launch o _ _) fun _ =>
      failsOutward_bind (failsOutward_recordPid o _ _) fun _ => failsOutward_pure _
  rw [Handle.start]
  split
  · exact failsOutward_bind (failsOutward_throw trivial) fun _ => hrest
  · exact hrest

theorem failsOutward_release (h : Handle) : FailsOutward (h.release o) := by
  rw [Handle.release]
  split
  · exact failsOutward_bind (failsOutward_modify _) fun _ => failsOutward_modify _
  · exact failsOutward_pure _

end Effects

/-! ## Waiting -/

section Waiting

variable {σ : Type} (o : Outside σ)

theorem outward_of_sleep {ms : Nat} {b : Bench σ} {f : Fault} (h : (b.sleep o ms).1 = .error f) : Outward f := by
  have hsleep : (if (b.wait o ms).isOver then .error .cancelled else .ok () : Except Fault Unit) = .error f := h
  split at hsleep
  · cases hsleep
    trivial
  · cases hsleep

/-- Whatever the service says, its wait fails of time alone. -/
theorem outward_of_awaitReadyFrom {τ : Type} {carrier : TimedCarrier τ}
    (hsleep : ∀ ms t f, (carrier.sleep ms t).1 = .error f → Outward f) (schedule : Backoff) (start n : Nat)
    (caller : Caller) (t : τ) : ∀ f, (caller.awaitReadyFrom carrier schedule start n t).1 = .error f → Outward f := by
  have htime : ∀ seconds f, (Except.error (.readyTimeout seconds) : Except Fault Unit) = .error f → Outward f := by
    rintro seconds f h
    cases h
    trivial
  induction n generalizing caller t with
  | zero => exact htime _
  | succ n ih =>
    rw [Caller.awaitReadyFrom]
    split
    · exact fun f h => by cases h
    · rintro f h
      cases h
      trivial
    · split
      · exact htime _
      · split
        · rename_i hslept
          rintro f h
          obtain rfl := Except.error.inj h
          exact hsleep _ _ _ (congrArg Prod.fst hslept)
        · exact ih _ _

theorem outward_of_awaitReady (schedule : Backoff) (caller : Caller) {b : Bench σ} {f : Fault}
    (h : (caller.awaitReady (Bench.carrier o) schedule b).1 = .error f) : Outward f :=
  outward_of_awaitReadyFrom (fun _ _ _ h => outward_of_sleep o h) schedule _ _ caller b f h

theorem outward_of_endWait {handle : Handle} {done : Except Fault Unit × Caller × Bench σ} {s s' : Session (Bench σ)}
    {f : Fault} (hdone : ∀ fault, done.1 = .error fault → Outward fault)
    (h : Plan.endWait handle done s = .error f s') : Outward f := by
  obtain ⟨result, caller, b⟩ := done
  unfold Plan.endWait at h
  dsimp only at h
  split at h
  · obtain ⟨rfl, -⟩ := EStateM.Result.error.inj h
    trivial
  · cases h
  · obtain ⟨rfl, -⟩ := EStateM.Result.error.inj h
    exact hdone _ rfl

theorem failsOutward_awaitService (p : Plan) (caller : Caller) (handle : Handle) (pid : Nat) :
    FailsOutward (p.awaitService o caller handle pid) := by
  intro s f s' h
  rw [EStateM.run] at h
  have hend : Plan.endWait handle (awaited o p caller pid s.link) s = .error f s' := h
  refine outward_of_endWait (fun fault hfault => ?_) hend
  rw [awaited] at hfault
  exact outward_of_awaitReady o p.schedule caller hfault

end Waiting

/-! ## Setups -/

section Setups

variable {σ α : Type} (o : Outside σ) (p : Plan)

theorem failsOutward_onWorld {e : Effect σ α} (he : FailsOutward e) : FailsOutward (onWorld e) := by
  intro s f s' h
  have h : onWorld e s = .error f s' := h
  unfold onWorld at h
  split at h
  · cases h
  · rename_i hworld
    obtain ⟨rfl, -⟩ := EStateM.Result.error.inj h
    exact he _ _ _ hworld

theorem outward_of_firstFree {busy : List UInt16} {n : Nat} {a : Ports.Allocator} {f : Fault}
    (h : (Ports.Allocator.firstFree busy n a).1 = .error f) : Outward f := by
  induction n generalizing a with
  | zero =>
    cases h
    trivial
  | succ n ih =>
    rw [Ports.Allocator.firstFree] at h
    dsimp only at h
    split at h
    · exact ih h
    · cases h

theorem outward_of_nextPort {a : Ports.Allocator} {busy : Option (List UInt16)} {f : Fault}
    (h : (a.nextPort busy).1 = .error f) : Outward f := by
  unfold Ports.Allocator.nextPort at h
  split at h
  · split at h
    · exact outward_of_firstFree h
    · cases h
  · cases h

theorem outward_of_seedVars {e : Environment} {f : Fault} (h : e.seedVars = .error f) : Outward f := by
  rw [Environment.seedVars] at h
  generalize Expr.Env.empty = env at h
  generalize e.vars = vars at h
  induction vars generalizing env with
  | nil => cases h
  | cons entry rest ih =>
    obtain ⟨name, value⟩ := entry
    rw [List.foldlM_cons] at h
    dsimp only at h
    cases hvalue : Environment.scriptValue value with
    | ok v =>
      rw [hvalue] at h
      exact ih _ h
    | error fault =>
      rw [hvalue] at h
      obtain rfl := Except.error.inj h
      unfold Environment.scriptValue at hvalue
      split at hvalue
      all_goals first
        | cases hvalue
        | skip
      · split at hvalue <;> cases hvalue
      · split at hvalue
        · cases hvalue
        · cases hvalue
          trivial

namespace Plan

theorem failsOutward_takePort (asked : Option UInt16) : FailsOutward (takePort o asked) := by
  intro s f s' h
  have h : takePort o asked s = .error f s' := h
  unfold takePort at h
  split at h
  · cases h
  · split at h
    · cases h
    · rename_i hnext
      obtain ⟨rfl, -⟩ := EStateM.Result.error.inj h
      exact outward_of_nextPort (congrArg Prod.fst hnext)

theorem failsOutward_openCaller (c : ClientSpec) (host : String) (port : UInt16) (handle : Option Handle) :
    FailsOutward (p.openCaller o c host port handle) := by
  refine failsOutward_get_bind fun s => ?_
  split
  · exact failsOutward_pure _
  · cases handle with
    | none => exact failsOutward_throw trivial
    | some handle =>
      exact failsOutward_bind (failsOutward_onWorld (failsOutward_release o handle)) fun _ =>
        failsOutward_throw trivial

/-- The client that is looked up has just been registered. -/
theorem failsOutward_enlist (name : String) (caller : Caller) (handle : Option Handle) :
    FailsOutward (enlist o name caller handle) := by
  rw [enlist_eq]
  refine failsOutward_get_bind fun s => ?_
  have hrest : ∀ change : Bench σ → Bench σ, FailsOutward (do
      onBench change
      modify (·.register { name }) : Action (Bench σ) Unit) := fun change =>
    failsOutward_bind (failsOutward_modify _) fun _ => failsOutward_modify _
  dsimp only
  split
  · exact failsOutward_bind (failsOutward_onWorld (failsOutward_release o _)) fun _ => hrest _
  · exact hrest _

theorem failsOutward_spawnClient (c : ClientSpec) : FailsOutward (p.spawnClient o c) := by
  refine failsOutward_bind (failsOutward_takePort o _) fun p2p => failsOutward_bind (failsOutward_takePort o _) fun rpc =>
    failsOutward_bind (failsOutward_takePort o _) fun http => failsOutward_get_bind fun s => ?_
  dsimp only
  split
  · rw [pure_bind]
    refine failsOutward_bind (failsOutward_onWorld ?_) fun _ =>
      failsOutward_bind (failsOutward_onWorld (failsOutward_start o _)) fun handle =>
      failsOutward_bind (p.failsOutward_openCaller o c _ _ _) fun caller =>
      failsOutward_bind (failsOutward_modify _) fun _ => failsOutward_bind (failsOutward_modify _) fun _ =>
      failsOutward_bind (failsOutward_modify _) fun _ => failsOutward_bind (failsOutward_enlist o _ _ _) fun _ => ?_
    · refine failsOutward_get_bind fun w => ?_
      split
      · exact failsOutward_onDisk _
      · exact failsOutward_pure _
    · split
      · exact failsOutward_awaitService o p _ _ _
      · exact failsOutward_pure _
  · rename_i hexecutable
    refine failsOutward_throw ?_
    rw [executable] at hexecutable
    split at hexecutable
    · cases hexecutable
    · rw [Config.Settings.executablePath] at hexecutable
      split at hexecutable
      · cases hexecutable
      · split at hexecutable
        · cases hexecutable
        · cases hexecutable
          trivial

/-- A client that is not spawned has its port, so it can be connected to. -/
theorem failsOutward_connectClient {c : ClientSpec} (hport : c.rpcPort.isSome) : FailsOutward (p.connectClient o c) := by
  obtain ⟨port, hport⟩ := Option.isSome_iff_exists.1 hport
  rw [connectClient, hport]
  exact failsOutward_bind (p.failsOutward_openCaller o c _ _ _) fun caller =>
    failsOutward_bind (failsOutward_modify _) fun _ => failsOutward_enlist o _ _ _

theorem failsOutward_bringUp {clients : List ClientSpec}
    (hports : ∀ c ∈ clients, c.spawn = false → c.rpcPort.isSome) : FailsOutward (p.bringUp o clients) := by
  induction clients with
  | nil => exact failsOutward_pure ()
  | cons c rest ih =>
    obtain ⟨hport, hrest⟩ := List.forall_mem_cons.1 hports
    rw [bringUp]
    dsimp only
    split
    · exact failsOutward_bind (p.failsOutward_spawnClient o c) fun _ => ih hrest
    · rename_i hspawn
      exact failsOutward_bind (p.failsOutward_connectClient o (hport (Bool.eq_false_iff.2 hspawn))) fun _ => ih hrest

/-- A setup in which every client that is not spawned has its port fails of nothing but what it finds outside. -/
theorem failsOutward_setup (hports : ∀ c ∈ p.case.environment.clients, c.spawn = false → c.rpcPort.isSome) :
    FailsOutward (p.setup o) := by
  refine failsOutward_bind (failsOutward_onWorld (failsOutward_onDisk _)) fun _ => ?_
  dsimp only
  split
  · refine failsOutward_bind (failsOutward_pure _) fun vars => failsOutward_bind (failsOutward_modify _) fun _ =>
      failsOutward_bind (failsOutward_modify _) fun _ => failsOutward_bind (failsOutward_modify _) fun _ =>
      failsOutward_bind (p.failsOutward_bringUp o hports) fun _ => ?_
    split
    · exact failsOutward_modify _
    · exact failsOutward_pure ()
  · rename_i hseed
    exact failsOutward_throw (outward_of_seedVars hseed)

end Plan

end Setups

end Conformance.Runs
