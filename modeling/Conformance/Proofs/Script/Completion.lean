import Conformance.Proofs.Expr.Hosts
import Conformance.Proofs.Script.Moves
import Conformance.Proofs.Script.Parts
import Conformance.Script.Suite

/-!
# Scripts that come to their end

A script only comes to its end if the program is running all the while and every command is answered: a breakdown ends
it with a fault, and so does a command that is refused. So what answers keep of the connections holds at the end
(`Completes`), for each step, for a script, and for the scripts of a directory one after the other. What every command
keeps, answered or not, holds wherever the scripts end (`link_runDir`).
-/
namespace Conformance.Script

open Text Expr Output

variable {σ α β : Type} {link : Link σ} {file : String} {s u v : Session σ} {Q : σ → Prop}

/-- The program is running, and this holds of the connections. -/
structure Session.InOrder (Q : σ → Prop) (s : Session σ) : Prop where
  running : s.crashed = false
  link : Q s.link

/-- Where the action ends with a result, things are still in order. -/
def Completes (Q : σ → Prop) (x : Action σ α) : Prop :=
  ∀ (s s' : Session σ) (a : α), s.InOrder Q → x.run s = .ok a s' → s'.InOrder Q

/-- What is answered to a command keeps the connections as they should be. -/
def Link.Keeps (link : Link σ) (Q : σ → Prop) : Prop :=
  ∀ name command state reply, Q state → (link.send name command state).1 = .ok reply → Q (link.send name command state).2

/-! ## Actions -/

theorem completes_pure (a : α) : Completes Q (pure a : Action σ α) := by
  intro s s' b hs h
  injection h with _ hs'
  exact hs' ▸ hs

theorem completes_throw (f : Fault) : Completes Q (throw f : Action σ α) := by
  intro s s' a _ h
  injection h

theorem completes_bind {x : Action σ α} {f : α → Action σ β} (hx : Completes Q x) (hf : ∀ a, Completes Q (f a)) :
    Completes Q (x >>= f) := by
  intro s s' b hs h
  obtain ⟨a, u, hxu, hfu⟩ := run_bind_eq_ok h
  exact hf a u s' b (hx s u a hs hxu) hfu

theorem completes_modify {change : Session σ → Session σ} (hcrashed : ∀ s, (change s).crashed = s.crashed)
    (hlink : ∀ s, (change s).link = s.link) : Completes Q (modify change : Action σ Unit) := by
  intro s s' _ hs h
  injection h with _ hs'
  exact hs' ▸ ⟨(hcrashed s).trans hs.running, (hlink s).symm ▸ hs.link⟩

theorem completes_of_shows {x : Action σ α} {a : α} (hx : OnlyShows x a) : Completes Q x := by
  intro s s' b hs h
  obtain ⟨u, hrun, _, _, _, -, rfl⟩ := hx s
  injection hrun.symm.trans h with _ hs'
  exact hs' ▸ ⟨hs.running, hs.link⟩

theorem composes_completes : Composes fun _ (x : Action σ _) => Completes Q x where
  get _ _ _ hs h := by
    injection h with _ hs'
    exact hs' ▸ hs
  shows := completes_of_shows
  bind := completes_bind

theorem completes_activeClient : Completes Q (activeClient : Action σ Client) :=
  composes_completes.activeClient (completes_throw _) fun _ => completes_throw _

/-- A breakdown is no result. -/
theorem completes_unread (c : Client) : Completes Q (unread c : Action σ String) := by
  rw [unread]
  split
  · exact completes_pure _
  · intro s s' a _ h
    injection h

theorem completes_record (site : Site) (echo : Echo) (c : Client) (outcome : Outcome) :
    Completes Q (record site echo c outcome : Action σ Captures) := by
  cases outcome with
  | matched text groups =>
    cases echo with
    | literal => exact completes_bind (completes_of_shows (onlyShows_write text)) fun _ => completes_pure _
    | capture => exact completes_bind (completes_of_shows (onlyShows_collect text)) fun _ => completes_pure _
    | silent => exact completes_bind (completes_pure ()) fun _ => completes_pure _
  | mismatch expected actual =>
    have hrecord : ∀ failure : Failure, Completes Q (do
        modify fun s => { s with failures := s.failures ++ [failure] }
        return [] : Action σ Captures) :=
      fun _ => completes_bind (completes_modify (fun _ => rfl) fun _ => rfl) fun _ => completes_pure _
    cases echo with
    | literal => exact completes_bind (completes_of_shows (onlyShows_write _)) fun _ => hrecord _
    | capture => exact hrecord _
    | silent => exact hrecord _

theorem completes_check (site : Site) (echo : Echo) (e : Expectation) :
    Completes Q (check site echo e : Action σ Captures) :=
  composes_completes.check completes_activeClient completes_unread
    (fun _ _ => completes_modify (fun _ => rfl) fun _ => rfl) (fun _ => completes_throw _) (completes_record site echo) e

theorem completes_flushResidual : Completes Q (flushResidual : Action σ Unit) := by
  intro s s' _ hs h
  by_cases hreadable : s.Readable
  · obtain ⟨u, hrun, ⟨_, _, _, -, rfl⟩, -⟩ := run_flushResidual hreadable
    injection hrun.symm.trans h with _ hs'
    exact hs' ▸ ⟨hs.running, hs.link⟩
  · obtain ⟨f, u, hrun, -⟩ := run_flushResidual_of_not_readable hreadable
    injection hrun.symm.trans h

/-! ## Expression blocks -/

/-- The comparison of a program with itself that gives up where the program ends with a fault. -/
def orderliness (Q : σ → Prop) : Expr.Likeness (Session σ) (Session σ) where
  alike u v := u = v ∧ u.InOrder Q
  gaveUp₁ _ _ := True

theorem actsAlike_of_completes {x : Action σ α} (hx : Completes Q x) : ActsAlike (orderliness Q) x x := by
  rintro u _ ⟨rfl, hu⟩
  cases h : x.run u with
  | ok a u' => exact .value a ⟨rfl, hx u u' a hu h⟩
  | error f u' => exact .gaveUp₁ _ trivial

theorem completes_evaluate (site : Site) (source : String) : Completes Q (evaluate site source : Action σ Value) := by
  intro s s' v hs h
  have hhost : HostsAlike (orderliness Q) True (check site .capture) (check site .capture) :=
    fun e _ => actsAlike_of_completes (completes_check site .capture e)
  have hends : EndsAlike (orderliness Q).withEnv (Expr.eval (check site .capture) source (s.vars, s))
      (Expr.eval (check site .capture) source (s.vars, s)) :=
    eval_alike hhost (fun _ _ _ _ _ => trivial) (s.vars, s) (s.vars, s) ⟨rfl, rfl, hs⟩
  have hrun : (evaluate site source).run s = evaluate site source s := rfl
  rw [hrun, evaluate] at h
  split at h
  · rename_i vars u heval
    rw [heval] at hends
    injection h with _ hs'
    cases hends with
    | value _ hsame =>
      obtain ⟨-, -, hu⟩ := hsame
      exact hs' ▸ ⟨hu.running, hu.link⟩
  · injection h

/-! ## Command lines -/

/-- A command that comes to its end has been answered. -/
theorem completes_sendCommand (hlink : link.Keeps Q) (command : String) (line : Nat) :
    Completes Q (sendCommand link command line) := by
  refine completes_bind completes_activeClient fun client => ?_
  intro s s' _ hs h
  cases hsend : link.send client.name command s.link with
  | mk answer state =>
    cases answer with
    | error f =>
      rw [EStateM.run_bind, EStateM.run_get] at h
      simp only [hsend] at h
      injection h
    | ok reply =>
      rw [EStateM.run_bind, EStateM.run_get] at h
      simp only [hsend] at h
      injection h with _ hs'
      have hstate := hlink client.name command s.link reply hs.link (congrArg Prod.fst hsend)
      rw [hsend] at hstate
      exact hs' ▸ ⟨hs.running, hstate⟩

theorem completes_execute (hlink : link.Keeps Q) (file : String) (line : CommandLine) :
    Completes Q (execute link file line) := by
  unfold execute
  dsimp only
  split
  · intro s s' _ hs h
    rw [EStateM.run_bind, EStateM.run_get] at h
    dsimp only at h
    split at h
    · rename_i u hu
      obtain ⟨_, _, _, _, rfl⟩ := directive?_same hu
      injection h with _ hs'
      exact hs' ▸ ⟨hs.running, hs.link⟩
    · injection h
  · exact completes_sendCommand hlink _ _

theorem completes_finish (hlink : link.Keeps Q) (file : String) (line : Option CommandLine) :
    Completes Q (finish link file line) := by
  cases line with
  | none => exact completes_pure ()
  | some line => exact completes_execute hlink file line

/-! ## Steps and runs -/

/-- A token that is carried out leaves things in order. -/
theorem completes_step (hlink : link.Keeps Q) (line : Option CommandLine) (t : Token) :
    Completes Q (step link file line t) := by
  refine composes_completes.step (fun _ _ => completes_check _ _ _) completes_flushResidual (fun _ => ?_) (fun hk => ?_)
    (fun _ _ => completes_finish hlink file line) fun _ _ => completes_throw _
  · exact composes_completes.resolve (completes_throw _)
  · exact composes_completes.block hk (completes_evaluate _) fun _ => completes_check _ _ _

/-- A script that comes to its end leaves things in order. -/
theorem completes_runScript (hlink : link.Keeps Q) (file src : String) : Completes Q (runScript link file src) :=
  composes_completes.runScript (completes_step hlink)
    (fun line => composes_completes.conclude (completes_finish hlink file line) completes_flushResidual) src

/-! ## What every command keeps -/

/-- What commands keep of the connections, whether they are answered or not, is kept by a script, however it ends. -/
theorem link_runScript (hlink : ∀ name command state, Q state → Q (link.send name command state).2) (file src : String)
    (hs : Q s.link) : Q (endOf (runScript link file src) s).link := by
  rw [(runScript_moves link file src s).link]
  generalize callsOf (scriptLog link file src s) = calls
  generalize s.link = state at hs
  induction calls generalizing state with
  | nil => exact hs
  | cons call calls ih => exact ih _ (hlink call.1 call.2 state hs)

variable {disk : σ → Files.Disk}

theorem link_runFiles (hlink : ∀ name command state, Q state → Q (link.send name command state).2)
    (paths : List String) (hs : Q s.link) : Q (endOf (runFiles link disk paths) s).link := by
  induction paths generalizing s with
  | nil => exact hs
  | cons path rest ih =>
    have hfile : Q (endOf (runFile link disk path) s).link := by
      rw [endOf, runFile, EStateM.run_bind, EStateM.run_get]
      dsimp only
      cases (disk s.link).readText path with
      | ok src => exact link_runScript hlink path src hs
      | error e => exact hs
    rw [runFiles]
    cases hrun : (runFile link disk path).run s with
    | ok a u =>
      rw [endOf_of_ok hrun] at hfile
      rw [endOf_bind_ok hrun]
      exact ih hfile
    | error f u =>
      rw [endOf_of_error hrun] at hfile
      rw [endOf_bind_error hrun]
      exact hfile

theorem link_runDir (hlink : ∀ name command state, Q state → Q (link.send name command state).2)
    (dir extension : String) (hs : Q s.link) : Q (endOf (runDir link disk dir extension) s).link := by
  rw [runDir, endOf_bind_ok (EStateM.run_get s)]
  cases scriptFiles (disk s.link) dir extension with
  | error f => exact hs
  | ok paths =>
    dsimp only
    rw [endOf_bind_pure]
    exact link_runFiles hlink paths hs

end Conformance.Script
