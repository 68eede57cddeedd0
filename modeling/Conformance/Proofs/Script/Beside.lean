import Conformance.Proofs.Script.Positions
import Conformance.Proofs.Script.Running

/-!
# The same tokens at other places

Two runs carry out the same tokens, each at places of its own. They are compared step by step: the sessions are the same
but for what is shown, and for the places of failures (`Beside`). What is shown makes no difference to what is done, so
the runs stay in step (`runTokens_inStep`), unless the program breaks down where what is left of an output is to be
shown: this may be waiting in one of the sessions alone.
-/
namespace Conformance.Script

open Text Expr Output

variable {σ α β γ δ : Type}

/-! ## Runs in step -/

/-- The fault without the place that it names. -/
def unplaced : Fault → Fault
  | .scriptSyntax _ _ _ message => .scriptSyntax "" 0 0 message
  | .unknownDirective _ _ _ directive => .unknownDirective "" 0 0 directive
  | .unknownVariable _ name _ _ => .unknownVariable "" name 0 0
  | .command command _ source => .command command 0 source
  | f => f

/-- The session without what has been shown, or is to be shown, and without the failures. -/
def Session.bare (s : Session σ) : Session σ :=
  { s with matched := [], transcript := "", pending := none, failures := [] }

/-- The sessions are the same, but for what is shown. In both, failures have been added to those of `base`, and the
added ones correspond to each other. -/
structure Beside (R : Failure → Failure → Prop) (base : List Failure) (u v : Session σ) : Prop where
  bare : u.bare = v.bare
  failures : ∃ added added', u.failures = base ++ added ∧ v.failures = base ++ added' ∧ List.Forall₂ R added added'

/-- Two runs end with values that correspond to each other, or with faults that are the same but for their places, and
in sessions that correspond to each other. A run that breaks down is compared no further; the first one does so only
if not all outputs are `fit` to be read. -/
inductive InStep (fit : Prop) (S : Session σ → Session σ → Prop) (V : α → β → Prop) :
    EStateM.Result Fault (Session σ) α → EStateM.Result Fault (Session σ) β → Prop where
  | value {a : α} {b : β} {u v : Session σ} (hvalue : V a b) (h : S u v) : InStep fit S V (.ok a u) (.ok b v)
  | fault {f g : Fault} {u v : Session σ} (hfault : unplaced f = unplaced g) (h : S u v) :
    InStep fit S V (.error f u) (.error g v)
  | brokeDown₁ {f : Fault} {u : Session σ} (r : EStateM.Result Fault (Session σ) β) (hcrashed : u.crashed = true)
    (hfit : ¬fit) : InStep fit S V (.error f u) r
  | brokeDown₂ {f : Fault} {v : Session σ} (r : EStateM.Result Fault (Session σ) α) (hcrashed : v.crashed = true) :
    InStep fit S V r (.error f v)

/-- From sessions that correspond to each other, the two actions end in step. -/
def StepAlike (fit : Prop) (S : Session σ → Session σ → Prop) (V : α → β → Prop) (x : Action σ α) (y : Action σ β) :
    Prop :=
  ∀ u v, S u v → InStep fit S V (x.run u) (y.run v)

variable {fit : Prop} {S : Session σ → Session σ → Prop} {V : α → β → Prop} {W : γ → δ → Prop}
  {R : Failure → Failure → Prop} {base : List Failure} {s u u' v v' : Session σ}

theorem InStep.bind {x : Action σ α} {y : Action σ β} {f : α → Action σ γ} {g : β → Action σ δ}
    (h : InStep fit S V (x.run u) (y.run v))
    (hfg : ∀ a b u' v', x.run u = .ok a u' → y.run v = .ok b v' → V a b → S u' v' →
      InStep fit S W ((f a).run u') ((g b).run v')) :
    InStep fit S W ((x >>= f).run u) ((y >>= g).run v) := by
  rw [EStateM.run_bind, EStateM.run_bind]
  generalize x.run u = r₁ at h hfg
  generalize y.run v = r₂ at h hfg
  cases h with
  | value hvalue h => exact hfg _ _ _ _ rfl rfl hvalue h
  | fault hfault h => exact .fault hfault h
  | brokeDown₁ r hcrashed hfit => exact .brokeDown₁ _ hcrashed hfit
  | brokeDown₂ r hcrashed => exact .brokeDown₂ _ hcrashed

theorem StepAlike.bind {x : Action σ α} {y : Action σ β} {f : α → Action σ γ} {g : β → Action σ δ}
    (h : StepAlike fit S V x y) (hfg : ∀ a b, V a b → StepAlike fit S W (f a) (g b)) :
    StepAlike fit S W (x >>= f) (y >>= g) :=
  fun u v hs => (h u v hs).bind fun a b u' v' _ _ hvalue hs' => hfg a b hvalue u' v' hs'

theorem stepAlike_pure {a : α} {b : β} (h : V a b) : StepAlike fit S V (pure a) (pure b) := fun _ _ hs => .value h hs

theorem stepAlike_throw {f g : Fault} (h : unplaced f = unplaced g) :
    StepAlike fit S V (throw f : Action σ α) (throw g : Action σ β) := fun _ _ hs => .fault h hs

/-! ## What is shown makes no difference -/

theorem Beside.shows (h : Beside R base u v) (hu : u.Shows u') (hv : v.Shows v') : Beside R base u' v' := by
  obtain ⟨_, _, _, -, rfl⟩ := hu
  obtain ⟨_, _, _, -, rfl⟩ := hv
  exact ⟨h.bare, h.failures⟩

theorem stepAlike_of_shows {x : Action σ α} {y : Action σ β} {a : α} {b : β} (hx : OnlyShows x a) (hy : OnlyShows y b)
    (h : V a b) : StepAlike fit (Beside R base) V x y := by
  intro u v hs
  obtain ⟨u', hrun, hu⟩ := hx u
  obtain ⟨v', hrun', hv⟩ := hy v
  rw [hrun, hrun']
  exact .value h (hs.shows hu hv)

/-- What does not depend on what has been shown is the same in both sessions. -/
theorem Beside.same (h : Beside R base u v) (f : Session σ → α) (hf : ∀ s, f s.bare = f s) : f u = f v := by
  rw [← hf u, h.bare, hf v]

theorem Beside.activeClient? (h : Beside R base u v) : u.activeClient? = v.activeClient? :=
  h.same Session.activeClient? fun _ => rfl

/-- The same change is made to both sessions. -/
theorem Beside.change (h : Beside R base u v) (f : Session σ → Session σ) (hbare : ∀ s, (f s).bare = f s.bare)
    (hfailures : ∀ s, (f s).failures = s.failures) : Beside R base (f u) (f v) where
  bare := by rw [hbare, hbare, h.bare]
  failures := by
    rw [hfailures, hfailures]
    exact h.failures

/-- Outputs that can be read in one of the sessions can be read in the other. -/
theorem Beside.readable (h : Beside R base u v) (hvalid : v.CursorsValid) : u.Readable := by
  intro name c _ hc
  have hclient : u.client? name = v.client? name := h.same (·.client? name) fun _ => rfl
  exact hvalid name c (hclient.symm.trans hc)

/-- What is left of an output may be shown in the first run alone. -/
theorem flushResidual_inStep_left (h : Beside R base u v) (hfit : fit → v.CursorsValid) :
    InStep fit (Beside R base) Eq (flushResidual.run u) ((pure () : Action σ Unit).run v) := by
  by_cases hu : u.Readable
  · obtain ⟨u', hrun, hshows, -⟩ := run_flushResidual hu
    rw [hrun]
    exact .value rfl (h.shows hshows (.refl v))
  · obtain ⟨f, u', hrun, hcrashed⟩ := run_flushResidual_of_not_readable hu
    rw [hrun]
    exact .brokeDown₁ _ hcrashed fun hf => hu (h.readable (hfit hf))

/-- It may be shown in the second run alone. -/
theorem flushResidual_inStep_right (h : Beside R base u v) :
    InStep fit (Beside R base) Eq ((pure () : Action σ Unit).run u) (flushResidual.run v) := by
  by_cases hv : v.Readable
  · obtain ⟨v', hrun, hshows, -⟩ := run_flushResidual hv
    rw [hrun]
    exact .value rfl (h.shows (.refl u) hshows)
  · obtain ⟨f, v', hrun, hcrashed⟩ := run_flushResidual_of_not_readable hv
    rw [hrun]
    exact .brokeDown₂ _ hcrashed

theorem flushResidual_inStep (h : Beside R base u v) (hfit : fit → v.CursorsValid) :
    InStep fit (Beside R base) Eq (flushResidual.run u) (flushResidual.run v) := by
  -- One after the other, since what is shown makes no difference.
  have hboth : InStep fit (Beside R base) Eq ((flushResidual >>= fun _ => pure () : Action σ Unit).run u)
      ((pure () >>= fun _ => flushResidual : Action σ Unit).run v) :=
    (flushResidual_inStep_left h hfit).bind fun _ _ _ _ _ _ _ hs => flushResidual_inStep_right hs
  rwa [bind_pure_unit, pure_bind] at hboth

/-! ## Expectations -/

/-- Failures that are recorded at the two sites correspond to each other. -/
def Corresponding (R : Failure → Failure → Prop) (site site' : Site) : Prop :=
  ∀ client command expected actual,
    R ⟨site.file, site.place.line, site.place.column, client, command, expected, actual⟩
      ⟨site'.file, site'.place.line, site'.place.column, client, command, expected, actual⟩

/-- The comparison by which no run is given up. -/
def besideLikeness (σ : Type) (R : Failure → Failure → Prop) (base : List Failure) :
    Likeness (Session σ) (Session σ) where
  alike := Beside R base

variable {site site' : Site}

theorem record_beside (hsites : Corresponding R site site') (echo : Echo) (c : Client) (outcome : Outcome) :
    ActsAlike (besideLikeness σ R base) (record site echo c outcome) (record site' echo c outcome) := by
  intro u v hs
  obtain ⟨added, added', hu, hv, hadded⟩ := hs.failures
  cases outcome with
  | matched text groups => cases echo <;> exact .value groups ⟨hs.bare, hs.failures⟩
  | mismatch expected actual =>
    -- One failure more on either side.
    have hmore := List.rel_append hadded (.cons (hsites c.name c.lastCommand expected actual) .nil)
    have hu' : ∀ f, u.failures ++ [f] = base ++ (added ++ [f]) := fun f => by rw [hu, List.append_assoc]
    have hv' : ∀ f, v.failures ++ [f] = base ++ (added' ++ [f]) := fun f => by rw [hv, List.append_assoc]
    cases echo <;> exact .value [] ⟨hs.bare, _, _, hu' _, hv' _, hmore⟩

/-- An expectation has the same outcome in both runs. -/
theorem check_beside (hsites : Corresponding R site site') (echo : Echo) (e : Expectation) :
    ActsAlike (besideLikeness σ R base) (check site echo e) (check site' echo e) := by
  intro u v hs
  have henabled : u.expectEnabled = v.expectEnabled := hs.same Session.expectEnabled fun _ => rfl
  unfold check
  rw [EStateM.run_bind, EStateM.run_bind, EStateM.run_get, EStateM.run_get]
  dsimp only
  -- From here on, every choice is made by what both sessions have in common.
  rw [henabled]
  split
  · cases echo <;> cases e <;> exact .value [] ⟨hs.bare, hs.failures⟩
  · split
    · exact .value [] hs
    · rw [EStateM.run_bind, EStateM.run_bind, run_activeClient_eq, run_activeClient_eq, hs.activeClient?]
      have hfault : u.noClientFault = v.noClientFault := hs.same Session.noClientFault fun _ => rfl
      cases v.activeClient? with
      | none =>
        rw [hfault]
        exact .fault _ hs
      | some c =>
        dsimp only
        rw [EStateM.run_bind, EStateM.run_bind, unread]
        cases c.output.residual? with
        | none => exact .fault _ (hs.change (fun s => { s with crashed := true }) (fun _ => rfl) fun _ => rfl)
        | some residual =>
          cases c.output.check e with
          | mk result output =>
            have hupdate := hs.change (fun s => s.updateClient c.name fun d => { d with output }) (fun _ => rfl)
              fun _ => rfl
            cases result with
            | error p => exact .fault _ hupdate
            | ok outcome => exact record_beside hsites echo c outcome _ _ hupdate

theorem inStep_of_endsAlike {r r' : EStateM.Result Fault (Session σ) α} (h : EndsAlike (besideLikeness σ R base) r r') :
    InStep fit (Beside R base) Eq r r' := by
  cases h with
  | value a h => exact .value rfl h
  | fault f h => exact .fault rfl h
  | gaveUp₁ r h => exact h.elim
  | gaveUp₂ r h => exact h.elim

theorem check_inStep (hsites : Corresponding R site site') (echo : Echo) (e : Expectation) :
    StepAlike fit (Beside R base) Eq (check site echo e : Action σ Captures) (check site' echo e) :=
  fun u v hs => inStep_of_endsAlike (check_beside hsites echo e u v hs)

/-! ## Blocks and references -/

theorem evaluate_inStep (hsites : Corresponding R site site') (source : String) :
    StepAlike fit (Beside R base) Eq (evaluate site source : Action σ Value) (evaluate site' source) := by
  intro u v hs
  have hvars : u.vars = v.vars := hs.same Session.vars fun _ => rfl
  have hhost : HostsAlike (besideLikeness σ R base) True (check site .capture) (check site' .capture) :=
    fun e _ => check_beside hsites .capture e
  have hends : EndsAlike (besideLikeness σ R base).withEnv (Expr.eval (check site .capture) source (u.vars, u))
      (Expr.eval (check site' .capture) source (v.vars, v)) :=
    eval_alike hhost (fun _ _ _ _ _ => trivial) (u.vars, u) (v.vars, v) ⟨hvars, hs⟩
  show InStep _ _ _ (evaluate site source u) (evaluate site' source v)
  rw [evaluate, evaluate]
  generalize Expr.eval (check site .capture) source (u.vars, u) = r at hends
  generalize Expr.eval (check site' .capture) source (v.vars, v) = r' at hends
  -- The variables are put back into both sessions.
  have hset : ∀ {vars : Env} {u' v' : Session σ}, Beside R base u' v' →
      Beside R base { u' with vars } { v' with vars } := fun h =>
    h.change (fun s => { s with vars := _ }) (fun _ => rfl) fun _ => rfl
  cases hends with
  | @value p q a h =>
    obtain ⟨vars, u'⟩ := p
    obtain ⟨vars', v'⟩ := q
    obtain ⟨hvars, hs⟩ := h
    obtain rfl : vars = vars' := hvars
    exact .value rfl (hset hs)
  | @fault p q f h =>
    obtain ⟨vars, u'⟩ := p
    obtain ⟨vars', v'⟩ := q
    obtain ⟨hvars, hs⟩ := h
    obtain rfl : vars = vars' := hvars
    -- A fault of the program becomes one of the script, at the place of the block.
    refine .fault ?_ (hset hs)
    cases f <;> rfl
  | gaveUp₁ r h => exact h.elim
  | gaveUp₂ r h => exact h.elim

variable {t : Token} {p : Position} {line line' : Option CommandLine}

theorem present_inStep (text : String) :
    StepAlike fit (Beside R base) Eq (present text : Action σ Unit) (present text) :=
  stepAlike_of_shows (onlyShows_present text) (onlyShows_present text) rfl

theorem expectResult_inStep (hsites : Corresponding R site site') (v : Value) :
    StepAlike fit (Beside R base) Eq (expectResult site v : Action σ Unit) (expectResult site' v) := by
  unfold expectResult
  cases stringResult? v with
  | none => exact stepAlike_pure rfl
  | some text => exact (check_inStep hsites .capture (.literal text)).bind fun _ _ _ => stepAlike_pure rfl

theorem block_inStep (hsites : Corresponding R site site') :
    StepAlike fit (Beside R base) Eq (block site t : Action σ Unit) (block site' ⟨t.text, p⟩) := by
  have hparts' : (⟨t.text, p⟩ : Token).expressionParts? = t.expressionParts? := rfl
  cases hparts : t.expressionParts? with
  | none =>
    rw [block_of_none hparts, block_of_none (hparts'.trans hparts)]
    exact stepAlike_throw rfl
  | some parts =>
    obtain ⟨source, recorded⟩ := parts
    rw [block_of_some hparts, block_of_some (hparts'.trans hparts)]
    refine (evaluate_inStep hsites source).bind fun v w hvw => ?_
    obtain rfl := hvw
    exact (expectResult_inStep hsites v).bind fun _ _ _ => present_inStep _

theorem resolve_inStep (name : String) :
    StepAlike fit (Beside R base) Eq (resolve site name : Action σ String) (resolve site' name) := by
  intro u v hs
  have hvars : u.vars = v.vars := hs.same Session.vars fun _ => rfl
  cases hvar : u.vars.get? name with
  | none =>
    rw [run_resolve_of_none site hvar, run_resolve_of_none site' (hvars ▸ hvar)]
    exact .fault rfl hs
  | some value =>
    rw [run_resolve_of_some site hvar, run_resolve_of_some site' (hvars ▸ hvar)]
    exact .value rfl hs

/-! ## Command lines -/

/-- The lines that are open have the same text, or none is open in either run. -/
def LineAlike (line line' : Option CommandLine) : Prop := line.map (·.text) = line'.map (·.text)

theorem LineAlike.add (h : LineAlike line line') (text : String) :
    LineAlike (line.map (·.add text)) (line'.map (·.add text)) := by
  cases line <;> cases line' <;> simp_all [LineAlike, CommandLine.add]

theorem LineAlike.isSome (h : LineAlike line line') : line.isSome = line'.isSome := by
  cases line <;> cases line' <;> simp_all [LineAlike]

theorem expectText_inStep (hsites : Corresponding R site site') (hline : LineAlike line line') (text : String) :
    StepAlike fit (Beside R base) Eq (expectText site line text : Action σ Unit) (expectText site' line' text) := by
  unfold expectText
  rw [hline.isSome]
  split
  · exact stepAlike_of_shows (onlyShows_write text) (onlyShows_write text) rfl
  · exact (check_inStep hsites .literal (.literal text)).bind fun _ _ _ => stepAlike_pure rfl

theorem expectValue_inStep (hsites : Corresponding R site site') (hline : LineAlike line line') (value : String) :
    StepAlike fit (Beside R base) Eq (expectValue site line value : Action σ Unit) (expectValue site' line' value) := by
  unfold expectValue
  rw [← Option.not_isSome, ← Option.not_isSome, hline.isSome]
  split
  · exact (check_inStep hsites .silent (.literal value)).bind fun _ _ _ => stepAlike_pure rfl
  · exact stepAlike_pure rfl

theorem directive?_beside (h : Beside R base u v) (words : List String) :
    (directive? words u = none ∧ directive? words v = none) ∨
      ∃ u' v', directive? words u = some u' ∧ directive? words v = some v' ∧ Beside R base u' v' := by
  have hswitch : ∀ (word : String) (f : Bool → Session σ → Session σ), (∀ on s, (f on s).bare = f on s.bare) →
      (∀ on s, (f on s).failures = s.failures) →
      ((switch? word).map (f · u) = none ∧ (switch? word).map (f · v) = none) ∨
        ∃ u' v', (switch? word).map (f · u) = some u' ∧ (switch? word).map (f · v) = some v' ∧ Beside R base u' v' := by
    intro word f hbare hfailures
    cases switch? word with
    | none => exact .inl ⟨rfl, rfl⟩
    | some on => exact .inr ⟨_, _, rfl, rfl, h.change (f on) (hbare on) (hfailures on)⟩
  unfold directive?
  split
  · exact .inr ⟨_, _, rfl, rfl, h.change (fun s => { s with active := _ }) (fun _ => rfl) fun _ => rfl⟩
  · exact hswitch _ (fun on s => { s with expectEnabled := on }) (fun _ _ => rfl) fun _ _ => rfl
  · exact hswitch _ (fun on s => { s with showMatch := on }) (fun _ _ => rfl) fun _ _ => rfl
  · exact hswitch _ (fun on s => { s with showLineNumbers := on }) (fun _ _ => rfl) fun _ _ => rfl
  · exact hswitch _ (fun on s => { s with showLineNumbers := on }) (fun _ _ => rfl) fun _ _ => rfl
  · exact .inl ⟨rfl, rfl⟩

variable {link : Link σ} {file file' : String}

theorem sendCommand_inStep (command : String) (n n' : Nat) :
    StepAlike fit (Beside R base) Eq (sendCommand link command n) (sendCommand link command n') := by
  intro u v hs
  have hlink : u.link = v.link := hs.same Session.link fun _ => rfl
  cases hc : u.activeClient? with
  | none =>
    have hc' : v.activeClient? = none := hs.activeClient?.symm.trans hc
    have hfault : u.noClientFault = v.noClientFault := hs.same Session.noClientFault fun _ => rfl
    rw [sendCommand, sendCommand, EStateM.run_bind, EStateM.run_bind, run_activeClient_eq, run_activeClient_eq, hc, hc',
      hfault]
    exact .fault rfl hs
  | some c =>
    have hc' : v.activeClient? = some c := hs.activeClient?.symm.trans hc
    cases hsend : link.send c.name command u.link with
    | mk answer state =>
      have hsend' := hsend
      rw [hlink] at hsend'
      have hsent : Beside R base (u.withSent c.name command state) (v.withSent c.name command state) :=
        hs.change (·.withSent c.name command state) (fun _ => rfl) fun _ => rfl
      cases answer with
      | error f =>
        rw [run_sendCommand_of_error hc hsend, run_sendCommand_of_error hc' hsend']
        exact .fault rfl hsent
      | ok reply =>
        have hreply := hsent.change (fun s => s.updateClient c.name fun c =>
          { c with output := c.output.reset reply, lastCommand := some command }) (fun _ => rfl) fun _ => rfl
        rw [run_sendCommand_of_ok hc hsend, run_sendCommand_of_ok hc' hsend']
        exact .value rfl ⟨hreply.bare, hreply.failures⟩

theorem finish_inStep (hline : LineAlike line line') :
    StepAlike fit (Beside R base) Eq (finish link file line) (finish link file' line') := by
  cases line with
  | none =>
    cases line' with
    | none => exact stepAlike_pure rfl
    | some l' => contradiction
  | some l =>
    cases line' with
    | none => contradiction
    | some l' =>
      have htext : l.text = l'.text := Option.some.inj hline
      rw [finish, finish, execute, execute, htext]
      by_cases hbang : l'.text.trimWhite.toList.head? = some '!'
      · rw [if_pos hbang, if_pos hbang]
        intro u v hs
        rw [EStateM.run_bind, EStateM.run_bind, EStateM.run_get, EStateM.run_get]
        dsimp only
        obtain ⟨hu, hv⟩ | ⟨u', v', hu, hv, hs'⟩ := directive?_beside hs l'.text.trimWhite.whiteWords
        · rw [hu, hv]
          exact .fault rfl hs
        · rw [hu, hv]
          exact .value rfl hs'
      · rw [if_neg hbang, if_neg hbang]
        exact sendCommand_inStep _ _ _

/-! ## Steps and runs -/

/-- A token does the same at another place. -/
theorem step_inStep (hsites : Corresponding R ⟨file, t.place⟩ ⟨file', p⟩) (hline : LineAlike line line')
    (h : Beside R base u v) (hfit : fit → v.CursorsValid) :
    InStep fit (Beside R base) LineAlike ((step link file line t).run u)
      ((step link file' line' ⟨t.text, p⟩).run v) := by
  have hkind : (⟨t.text, p⟩ : Token).kind = t.kind := rfl
  have hwrite : ∀ text, StepAlike fit (Beside R base) Eq (write text : Action σ Unit) (write text) := fun text =>
    stepAlike_of_shows (onlyShows_write text) (onlyShows_write text) rfl
  -- what two kinds of tokens share is shown once, and each kind then picks its part
  have hblank : t.kind = .newline ∨ t.kind = .whitespace →
      StepAlike fit (Beside R base) LineAlike (step link file line t) (step link file' line' ⟨t.text, p⟩) := by
    intro hk
    have hends : (⟨t.text, p⟩ : Token).endsLine = t.endsLine := rfl
    rw [step_of_blank link file hk, step_of_blank link file' (hkind ▸ hk), hends]
    split
    · exact (finish_inStep hline).bind fun _ _ _ => (hwrite _).bind fun _ _ _ => stepAlike_pure rfl
    · exact (hwrite _).bind fun _ _ _ => stepAlike_pure (hline.add t.text)
  have htext : t.kind = .literal ∨ t.kind = .commandMarker ∧ line.isSome →
      StepAlike fit (Beside R base) LineAlike (step link file line t) (step link file' line' ⟨t.text, p⟩) := by
    intro hk
    rw [step_of_text link file hk, step_of_text link file' (hkind ▸ hline.isSome ▸ hk)]
    split
    · exact stepAlike_throw rfl
    · have hdump : StepAlike fit (Beside R base) Eq (dumpMatched false : Action σ Unit) (dumpMatched false) :=
        stepAlike_of_shows (onlyShows_dumpMatched false) (onlyShows_dumpMatched false) rfl
      exact (expectText_inStep hsites hline t.text).bind fun _ _ _ => hdump.bind fun _ _ _ =>
        stepAlike_pure (hline.add t.text)
  cases hk : t.kind with
  | newline => exact hblank (.inl hk) u v h
  | whitespace => exact hblank (.inr hk) u v h
  | literal => exact htext (.inl hk) u v h
  | comment =>
    rw [step_of_comment link file hk, step_of_comment link file' (hkind.trans hk)]
    exact (hwrite _).bind (fun _ _ _ => stepAlike_pure hline) u v h
  | expression =>
    rw [step_of_expression link file hk, step_of_expression link file' (hkind.trans hk)]
    exact (block_inStep hsites).bind (fun _ _ _ => stepAlike_pure hline) u v h
  | reference =>
    rw [step_of_reference link file hk, step_of_reference link file' (hkind.trans hk)]
    refine (resolve_inStep _).bind (fun value value' hvalue => ?_) u v h
    obtain rfl := hvalue
    have hcollect : StepAlike fit (Beside R base) Eq (collect value : Action σ Unit) (collect value) :=
      stepAlike_of_shows (onlyShows_collect value) (onlyShows_collect value) rfl
    exact hcollect.bind fun _ _ _ => (expectValue_inStep hsites hline value).bind fun _ _ _ =>
      (present_inStep t.text).bind fun _ _ _ => stepAlike_pure (hline.add value)
  | commandMarker =>
    cases line with
    | some l => exact htext (.inr ⟨hk, rfl⟩) u v h
    | none =>
      have hclosed : line' = none := Option.map_eq_none_iff.1 hline.symm
      rw [hclosed, step_of_opening link file hk, step_of_opening link file' (hkind.trans hk)]
      have hopened : LineAlike (some ⟨"", t.place⟩) (some ⟨"", p⟩) := rfl
      have hnumber : StepAlike fit (Beside R base) Eq (numberLine t.place.line : Action σ Unit) (numberLine p.line) :=
        stepAlike_of_shows (onlyShows_numberLine _) (onlyShows_numberLine _) rfl
      exact (flushResidual_inStep h hfit).bind fun _ _ u' v' _ _ _ hs =>
        hnumber.bind (fun _ _ _ => (hwrite marker).bind fun _ _ _ => stepAlike_pure hopened) u' v' hs

/-- Tokens do the same further down. -/
theorem runTokens_inStep {n : Nat} (hsites : ∀ place, Corresponding R ⟨file, place⟩ ⟨file', place.down n⟩)
    {ts more : List Token} (hline : LineAlike line line') (h : Beside R base u v)
    (hfit : fit → ∀ w ∈ visits link file' line' v (ts.map (.down n) ++ more), w.session.CursorsValid) :
    InStep fit (Beside R base) LineAlike ((runTokens link file line ts).run u)
      ((runTokens link file' line' (ts.map (.down n))).run v) := by
  induction ts generalizing line line' u v with
  | nil => exact .value hline h
  | cons t ts ih =>
    rw [List.map_cons, List.cons_append] at hfit
    rw [List.map_cons, runTokens, runTokens]
    -- The place of the second run is one of its places, where all outputs can be read.
    have hvalid : fit → v.CursorsValid := by
      intro hf
      refine hfit hf ⟨v, line', _⟩ (List.mem_of_getElem? (visits_getElem?_zero link file' line' v _))
    have hstep : InStep fit (Beside R base) LineAlike ((step link file line t).run u)
        ((step link file' line' (t.down n)).run v) := step_inStep (hsites t.place) hline h hvalid
    refine hstep.bind fun l l' u' v' _ hrun hl hs => ih hl hs fun hf w hw => hfit hf w ?_
    have hfirst : (runTokens link file' line' [t.down n]).run v = .ok l' v' := run_runTokens_cons link file' hrun
    exact mem_visits_append link file' hfirst hw

end Conformance.Script
