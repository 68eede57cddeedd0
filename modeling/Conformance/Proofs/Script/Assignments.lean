import Conformance.Proofs.Script.Completion
import Conformance.Proofs.Script.Faults

/-!
# What changes variables

Only the program of an expression block changes variables: everything else that a script does leaves them alone, however
it ends. So what each program keeps of the variables (`KeptByPrograms`) is kept by every step (`keepsVars_step`), by a
script (`keepsVars_runScript`) and by the scripts of a directory one after the other (`keepsVars_runFiles`), and holds at
every place that a script comes to (`vars_of_mem_visits`).
-/
namespace Conformance.Script

open Text Expr

variable {σ α β : Type} {P : Env → Prop} {link : Link σ} {file : String}

/-- What holds of the variables still holds of them behind the action, however it ends. -/
def KeepsVars (P : Env → Prop) (x : Action σ α) : Prop := ∀ s : Session σ, P s.vars → P (endOf x s).vars

/-- A program keeps what holds of the variables, whoever checks its expectations and however it ends. -/
def KeptByPrograms (σ : Type) (P : Env → Prop) : Prop :=
  ∀ (host : Host (Session σ)) (src : String) (env env' : Env) (s s' : Session σ), P env →
    (∀ v, (eval host src).run (env, s) = .ok v (env', s') → P env') ∧
      ∀ f, (eval host src).run (env, s) = .error f (env', s') → P env'

/-! ## Actions -/

/-- An action that leaves the variables as they are keeps whatever holds of them. -/
theorem keepsVars_of_eq {x : Action σ α} (h : ∀ s : Session σ, (endOf x s).vars = s.vars) : KeepsVars P x := by
  intro s hs
  rwa [h s]

theorem keepsVars_pure (a : α) : KeepsVars P (pure a : Action σ α) := keepsVars_of_eq fun _ => rfl

theorem keepsVars_throw (f : Fault) : KeepsVars P (throw f : Action σ α) := keepsVars_of_eq fun _ => rfl

theorem keepsVars_bind {x : Action σ α} {f : α → Action σ β} (hx : KeepsVars P x) (hf : ∀ a, KeepsVars P (f a)) :
    KeepsVars P (x >>= f) := by
  intro s hs
  have hfirst := hx s hs
  cases hrun : x.run s with
  | ok a u =>
    rw [endOf_of_ok hrun] at hfirst
    rw [endOf_bind_ok hrun]
    exact hf a u hfirst
  | error f u =>
    rw [endOf_of_error hrun] at hfirst
    rw [endOf_bind_error hrun]
    exact hfirst

theorem keepsVars_get_bind {f : Session σ → Action σ α} (hf : ∀ u, KeepsVars P (f u)) : KeepsVars P (get >>= f) :=
  fun s hs => hf s s hs

theorem keepsVars_modify {change : Session σ → Session σ} (h : ∀ s, (change s).vars = s.vars) :
    KeepsVars P (modify change : Action σ Unit) := keepsVars_of_eq h

theorem OnlyShows.keepsVars {x : Action σ α} {a : α} (h : OnlyShows x a) : KeepsVars P x := by
  refine keepsVars_of_eq fun s => ?_
  obtain ⟨u, hrun, hshows⟩ := h s
  rw [endOf_of_ok hrun]
  exact hshows.vars_eq

theorem composes_keepsVars : Composes fun _ (x : Action σ _) => KeepsVars P x where
  get _ hs := hs
  shows := OnlyShows.keepsVars
  bind := keepsVars_bind

theorem keepsVars_activeClient : KeepsVars P (activeClient : Action σ Client) :=
  composes_keepsVars.activeClient (keepsVars_throw _) fun _ => keepsVars_throw _

theorem keepsVars_unread (c : Client) : KeepsVars P (unread c : Action σ String) := by
  rw [unread]
  split
  · exact keepsVars_pure _
  · exact keepsVars_of_eq fun _ => rfl

theorem keepsVars_record (site : Site) (echo : Echo) (c : Client) (outcome : Output.Outcome) :
    KeepsVars P (record site echo c outcome : Action σ Captures) := by
  refine keepsVars_of_eq fun s => ?_
  cases outcome <;> cases echo <;> rfl

theorem keepsVars_check (site : Site) (echo : Echo) (e : Expectation) :
    KeepsVars P (check site echo e : Action σ Captures) :=
  composes_keepsVars.check keepsVars_activeClient keepsVars_unread (fun _ _ => keepsVars_modify fun _ => rfl)
    (fun _ => keepsVars_throw _) (keepsVars_record site echo) e

theorem keepsVars_flushResidual : KeepsVars P (flushResidual : Action σ Unit) := by
  intro s hs
  rw [flushResidual, endOf_bind_ok (EStateM.run_get s)]
  split
  · exact hs
  · rw [endOf_bind_ok (EStateM.run_set ({ s with pending := none } : Session σ) s)]
    split
    · exact hs
    · rename_i c _
      refine keepsVars_bind (keepsVars_unread c) (fun residual => ?_) _ hs
      dsimp only
      split
      · exact keepsVars_pure ()
      · split
        · exact (onlyShows_write _).keepsVars
        · exact (onlyShows_write _).keepsVars

theorem keepsVars_sendCommand (command : String) (line : Nat) : KeepsVars P (sendCommand link command line) := by
  refine keepsVars_bind keepsVars_activeClient fun client => keepsVars_of_eq fun s => ?_
  rw [endOf_bind_ok (EStateM.run_get s)]
  cases link.send client.name command s.link with
  | mk reply state => cases reply <;> rfl

/-- Directives set switches, and no variables. -/
theorem keepsVars_execute (line : CommandLine) : KeepsVars P (execute link file line) := by
  unfold execute
  dsimp only
  split
  · refine keepsVars_of_eq fun s => ?_
    rw [endOf_bind_ok (EStateM.run_get s)]
    split
    · rename_i u hu
      obtain ⟨_, _, _, _, rfl⟩ := directive?_same hu
      rfl
    · rfl
  · exact keepsVars_sendCommand _ _

theorem keepsVars_finish (line : Option CommandLine) : KeepsVars P (finish link file line) := by
  cases line with
  | none => exact keepsVars_pure ()
  | some line =>
    rw [finish]
    exact keepsVars_execute line

/-! ## Expression blocks -/

/-- The variables behind a block's program are those that the program leaves, whatever its expectations do. -/
theorem keepsVars_evaluate (hP : KeptByPrograms σ P) (site : Site) (source : String) :
    KeepsVars P (evaluate site source : Action σ Value) := by
  intro s hs
  cases hrun : (evaluate site source).run s with
  | ok v u =>
    obtain ⟨env, w, heval, rfl⟩ := evaluate_ok hrun
    rw [endOf_of_ok hrun]
    exact (hP _ source _ env s w hs).1 v heval
  | error f u =>
    obtain ⟨f', env, w, heval, rfl, -⟩ := evaluate_error hrun
    rw [endOf_of_error hrun]
    exact (hP _ source _ env s w hs).2 f' heval

/-! ## Steps and runs -/

/-- What programs keep of the variables is kept by a step. -/
theorem keepsVars_step (hP : KeptByPrograms σ P) (line : Option CommandLine) (t : Token) :
    KeepsVars P (step link file line t) := by
  refine composes_keepsVars.step (fun _ _ => keepsVars_check _ _ _) keepsVars_flushResidual (fun _ => ?_) (fun hk => ?_)
    (fun _ _ => keepsVars_finish line) fun _ _ => keepsVars_throw _
  · exact composes_keepsVars.resolve (keepsVars_throw _)
  · exact composes_keepsVars.block hk (keepsVars_evaluate hP _) fun _ => keepsVars_check _ _ _

/-- It holds at every place that a script comes to. -/
theorem vars_of_mem_visits (hP : KeptByPrograms σ P) {line : Option CommandLine} {s : Session σ} {ts : List Token}
    {v : Visit σ} (hv : v ∈ visits link file line s ts) (hs : P s.vars) : P v.session.vars := by
  obtain ⟨n, hn⟩ := List.getElem?_of_mem hv
  obtain ⟨-, hrun, -⟩ := (visits_getElem?_eq_some_iff link file).1 hn
  have hend : P (endOf (runTokens link file line (ts.take n)) s).vars :=
    composes_keepsVars.runTokens (keepsVars_step hP) line _ s hs
  rwa [endOf_of_ok hrun] at hend

theorem keepsVars_runScript (hP : KeptByPrograms σ P) (src : String) : KeepsVars P (runScript link file src) :=
  composes_keepsVars.runScript (keepsVars_step hP)
    (fun line => composes_keepsVars.conclude (keepsVars_finish line) keepsVars_flushResidual) src

theorem keepsVars_runFiles (hP : KeptByPrograms σ P) (disk : σ → Files.Disk) (paths : List String) :
    KeepsVars P (runFiles link disk paths) := by
  induction paths with
  | nil => exact keepsVars_pure ()
  | cons path rest ih =>
    refine keepsVars_bind (keepsVars_get_bind fun u => ?_) fun _ => ih
    split
    · exact keepsVars_throw _
    · exact keepsVars_runScript hP _

end Conformance.Script
