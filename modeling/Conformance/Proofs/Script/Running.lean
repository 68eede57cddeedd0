import Conformance.Proofs.Script.Independence
import Conformance.Proofs.Script.Parts

/-!
# What keeps the program running

The program breaks down where it reads an output from within a character. A script cannot bring this about as long as
the patterns that it expects are sound: from a session in which all outputs can be read, it comes to its end, or to a
fault, in another one, whatever else the script says and whatever the replies are (`runScript_fit`).
-/
namespace Conformance.Script

open Text Expr Output

variable {σ α β : Type} {link : Link σ} {file : String} {s u : Session σ} {log log' : Log}

/-- The program is running, and all outputs can be read. -/
structure Session.Fit (s : Session σ) : Prop where
  running : s.crashed = false
  valid : s.CursorsValid

instance (pattern : String) : Decidable (Sound pattern) := inferInstanceAs (Decidable (_ → _))

/-- Whether an act keeps outputs readable: all do but the expectation of a text of an unsound pattern. -/
def Act.Sound : Act → Prop
  | .expectation (.regex pattern) => Output.Sound pattern
  | _ => True

instance : (act : Act) → Decidable act.Sound
  | .expectation (.regex pattern) => inferInstanceAs (Decidable (Output.Sound pattern))
  | .expectation (.literal _) | .expectation .json | .expectation .relativeTime | .expectation .isoTime =>
    .isTrue trivial
  | .command .. => .isTrue trivial

/-- Every pattern whose text is expected is sound. -/
def SoundLog (log : Log) : Prop := ∀ entry ∈ log, entry.2.Sound

instance (log : Log) : Decidable (SoundLog log) := inferInstanceAs (Decidable (∀ entry ∈ log, entry.2.Sound))

theorem soundLog_append_iff : SoundLog (log ++ log') ↔ SoundLog log ∧ SoundLog log' := List.forall_mem_append

theorem SoundLog.sound (h : SoundLog log) :
    ∀ entry ∈ log, ∀ pattern, entry.2 = .expectation (.regex pattern) → Output.Sound pattern := by
  intro entry hentry pattern hact
  have hsound := h entry hentry
  rwa [hact] at hsound

/-! ## One expectation -/

/-- Whatever the outcome is, recording it keeps the program running. -/
theorem crashed_record (site : Site) (echo : Echo) (c : Client) (outcome : Outcome) (s : Session σ) :
    (endOf (record site echo c outcome) s).crashed = s.crashed := by
  cases outcome <;> cases echo <;> rfl

theorem check_fit (hfit : s.Fit) (site : Site) (echo : Echo) {e : Expectation} (hlog : SoundLog (expectationLog s e)) :
    (endOf (check site echo e) s).Fit := by
  refine ⟨?_, ?_⟩
  · cases hchecked : s.checkedClient? e with
    | none =>
      obtain ⟨-, hrun⟩ | ⟨-, hrun⟩ | ⟨c, f, hactive, hunread, -⟩ :=
        run_check_of_not_checked site echo hchecked
      · rw [endOf_of_ok hrun]
        exact hfit.running
      · rw [endOf_of_error hrun]
        exact hfit.running
      · -- The output that could not be read can be.
        have hreadable := State.residual?_isSome_iff.2 (hfit.valid c.name c (Session.active_of_activeClient? hactive).2)
        rw [hunread] at hreadable
        contradiction
    | some c =>
      rw [endOf, run_check_of_checked site echo hchecked]
      cases (c.output.check e).1 with
      | error p => exact hfit.running
      | ok outcome => exact (crashed_record site echo c outcome _).trans hfit.running
  · -- Any link does, since an expectation sends nothing.
    let link : Link σ := ⟨fun _ _ state => (.ok "", state)⟩
    exact (check_expects link site echo e s).toMoves.cursorsValid hlog.sound hfit.valid

/-! ## Actions that expect no text of a pattern -/

/-- From a session in which all outputs can be read, the action leads to another one. -/
def KeepsFit (x : Action σ α) : Prop := ∀ s : Session σ, s.Fit → (endOf x s).Fit

theorem keepsFit_pure (a : α) : KeepsFit (pure a : Action σ α) := fun _ hfit => hfit

theorem keepsFit_throw (f : Fault) : KeepsFit (throw f : Action σ α) := fun _ hfit => hfit

theorem fit_bind {x : Action σ α} {f : α → Action σ β} (hx : (endOf x s).Fit) (hf : ∀ a, KeepsFit (f a)) :
    (endOf (x >>= f) s).Fit := by
  rw [endOf_bind]
  rw [endOf] at hx
  cases h : x.run s with
  | ok a s' =>
    rw [h] at hx
    exact hf a s' hx
  | error f s' =>
    rw [h] at hx
    exact hx

theorem keepsFit_bind {x : Action σ α} {f : α → Action σ β} (hx : KeepsFit x) (hf : ∀ a, KeepsFit (f a)) :
    KeepsFit (x >>= f) := fun s hfit => fit_bind (hx s hfit) hf

/-- An action that has its result in any session, unless the program breaks down, has it where outputs can be read. -/
theorem keepsFit_of_answers {x : Action σ α} {a : α} (h : ∀ s, Answers False s x a) : KeepsFit x := by
  intro s hfit
  obtain ⟨v, hrun, hkeeps⟩ | ⟨f, v, -, -, hinvalid⟩ := h s s ⟨hfit.running, id⟩ False.elim
  · rw [endOf_of_ok hrun]
    exact ⟨hkeeps.runs.running, hkeeps.runs.valid hfit.valid⟩
  · exact absurd hfit.valid hinvalid

theorem keepsFit_of_shows {x : Action σ α} {a : α} (h : OnlyShows x a) : KeepsFit x :=
  keepsFit_of_answers fun _ => answers_of_shows h

theorem composes_keepsFit : Composes fun _ (x : Action σ _) => KeepsFit x where
  get _ hfit := hfit
  shows := keepsFit_of_shows
  bind := keepsFit_bind

theorem keepsFit_flushResidual : KeepsFit (flushResidual : Action σ Unit) :=
  keepsFit_of_answers fun _ => answers_flushResidual

theorem keepsFit_check_literal (site : Site) (echo : Echo) (text : String) :
    KeepsFit (check site echo (.literal text) : Action σ Captures) := by
  refine fun s hfit => check_fit hfit site echo fun entry hentry => ?_
  obtain ⟨c, -, rfl⟩ := List.mem_map.1 hentry
  trivial

/-! ## Command lines -/

theorem keepsFit_sendCommand (link : Link σ) (command : String) (line : Nat) :
    KeepsFit (sendCommand link command line) := by
  intro s hfit
  refine ⟨?_, ?_⟩
  · cases hc : s.activeClient? with
    | none =>
      rw [sendCommand, endOf_bind, run_activeClient_eq, hc]
      exact hfit.running
    | some c =>
      cases hsend : link.send c.name command s.link with
      | mk answer state =>
        cases answer with
        | error f =>
          rw [endOf_of_error (run_sendCommand_of_error hc hsend)]
          exact hfit.running
        | ok reply =>
          rw [endOf_of_ok (run_sendCommand_of_ok hc hsend)]
          exact hfit.running
  · refine (sendCommand_does link command line s).toMoves.cursorsValid (SoundLog.sound fun entry hentry => ?_)
      hfit.valid
    obtain ⟨c, -, rfl⟩ := List.mem_map.1 hentry
    trivial

theorem keepsFit_finish (link : Link σ) (file : String) (line : Option CommandLine) :
    KeepsFit (finish link file line) := by
  intro s hfit
  cases line with
  | none => exact hfit
  | some l =>
    rw [finish, execute]
    by_cases hbang : l.text.trimWhite.toList.head? = some '!'
    · rw [if_pos hbang, endOf_bind, EStateM.run_get]
      dsimp only
      cases hdirective : directive? l.text.trimWhite.whiteWords s with
      | none => exact hfit
      | some u =>
        obtain ⟨_, _, _, _, rfl⟩ := directive?_same hdirective
        exact ⟨hfit.running, hfit.valid⟩
    · rw [if_neg hbang]
      exact keepsFit_sendCommand link _ _ s hfit

/-! ## Steps and runs -/

/-- The outputs can be read behind a block if its patterns are sound. -/
theorem block_fit (hfit : s.Fit) (site : Site) {t : Token} {source : String} {recorded : Option String}
    (hparts : t.expressionParts? = some (source, recorded)) (hlog : SoundLog (blockLog site source s)) :
    (endOf (block site t) s).Fit := by
  -- What is kept up with the log: outputs can be read as long as its patterns are sound.
  have hcheck : ∀ log (u : Session σ) e, (SoundLog log → u.Fit) →
      SoundLog (log ++ expectationLog u e) → (endOf (check site .capture e) u).Fit := by
    intro log u e hu hsound
    obtain ⟨hsound, hsound'⟩ := soundLog_append_iff.1 hsound
    exact check_fit (hu hsound) site .capture hsound'
  obtain ⟨log, u, hu, hevaluate⟩ :=
    evaluate_logged hcheck (fun _ _ _ hu hsound => ⟨(hu hsound).running, (hu hsound).valid⟩) source (fun _ => hfit)
  obtain ⟨v, hrun, hblock⟩ | ⟨f, hrun, hblock⟩ := hevaluate
  · rw [hblock, soundLog_append_iff] at hlog
    rw [block_of_some hparts, endOf_bind_ok hrun]
    have hexpects : KeepsFit (expectResult site v : Action σ Unit) :=
      composes_keepsFit.expectResult (keepsFit_check_literal site .capture) v
    exact keepsFit_bind hexpects (fun _ => keepsFit_of_shows (onlyShows_present _)) u (hu hlog.1)
  · rw [hblock] at hlog
    rw [block_of_some hparts, endOf_bind_error hrun]
    exact hu hlog

/-- A token whose patterns are sound keeps the outputs readable. -/
theorem step_fit (hfit : s.Fit) {line : Option CommandLine} {t : Token}
    (hlog : SoundLog (tokenLog link file s line t)) :
    (endOf (step link file line t) s).Fit := by
  by_cases hk : t.kind = .expression
  · rw [step_of_expression link file hk]
    refine fit_bind ?_ fun _ => keepsFit_pure line
    unfold tokenLog at hlog
    simp only [hk] at hlog
    obtain ⟨source, recorded, hparts⟩ := expressionParts?_of_kind hk
    rw [hparts] at hlog
    exact block_fit hfit _ hparts hlog
  · -- no other token expects a pattern
    have hkeeps : KeepsFit (step link file line t) :=
      composes_keepsFit.step (fun _ _ => keepsFit_check_literal _ _ _) keepsFit_flushResidual
        (fun _ => composes_keepsFit.resolve (keepsFit_throw _)) (fun h => absurd h hk)
        (fun _ _ => keepsFit_finish link file line) fun _ _ => keepsFit_throw _
    exact hkeeps s hfit

/-- The outputs can be read at every place of a run whose patterns are sound. -/
theorem visits_fit {line : Option CommandLine} {ts : List Token} (hfit : s.Fit)
    (hlog : SoundLog ((visits link file line s ts).flatMap (Visit.log link file))) :
    ∀ v ∈ visits link file line s ts, v.session.Fit := by
  induction ts generalizing line s with
  | nil =>
    intro v hv
    obtain rfl := List.mem_singleton.1 hv
    exact hfit
  | cons t ts ih =>
    cases hstep : (step link file line t).run s with
    | ok line' s' =>
      rw [visits_cons_ok link file hstep, List.flatMap_cons, soundLog_append_iff] at hlog
      rw [visits_cons_ok link file hstep, List.forall_mem_cons]
      have hnext := step_fit hfit hlog.1
      rw [endOf_of_ok hstep] at hnext
      exact ⟨hfit, ih hnext hlog.2⟩
    | error f s' =>
      rw [visits_cons_error link file hstep]
      intro v hv
      obtain rfl := List.mem_singleton.1 hv
      exact hfit

theorem keepsFit_conclude (link : Link σ) (file : String) (line : Option CommandLine) :
    KeepsFit (conclude link file line) :=
  keepsFit_bind (keepsFit_finish link file line) fun _ => keepsFit_flushResidual

/-- Where all outputs can be read, a script whose patterns are sound does not break the program down, and leaves all
outputs so that they can be read. -/
theorem runScript_fit (hfit : s.Fit) {src : String} (hlog : SoundLog (scriptLog link file src s)) :
    (endOf (runScript link file src) s).Fit := by
  rw [runScript_eq]
  refine run_of_steps (T := fun s log u => SoundLog log → s.Fit → u.Fit) link file ?_ ?_ none s (tokens src) hlog hfit
  · intro s u v log log' h h' hsound hfit
    obtain ⟨hsound, hsound'⟩ := soundLog_append_iff.1 hsound
    exact h' hsound' (h hsound hfit)
  · rintro ⟨s, line, next⟩ hsound hfit
    cases next with
    | none => exact keepsFit_conclude link file line s hfit
    | some t => exact step_fit hfit hsound

end Conformance.Script
