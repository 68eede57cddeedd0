import Conformance.Proofs.Script.Log

/-!
# What the steps of a script do with the clients

Of the actions that a step is made of, only two do something with the clients: `check`, which checks an expectation
(`check_expects`), and `sendCommand`, which sends a command (`sendCommand_does`). All others are quiet (`IsQuiet`). An
expression block asks its host, which is `check`, any number of times; its program runs alike under a host that takes
down what is done (`eval_logged`), so the log of a block is what has been done when its program ends.

With these, every step does what the log of its place says (`after_does`), and nothing with any client but the active
one. So a whole script makes of a session what its log says (`runScript_moves`).
-/
namespace Conformance.Script

open Text Expr Output

variable {σ α β : Type} {link : Link σ} {s u v : Session σ} {log : Log}

/-! ## Clients -/

/-- The fault of a session without an active client that is registered. -/
def Session.noClientFault (s : Session σ) : Fault :=
  match s.active with
  | none => .noActiveClient
  | some name => .unknownClient name

theorem run_activeClient_eq (s : Session σ) :
    activeClient.run s =
      match s.activeClient? with
      | some c => .ok c s
      | none => .error s.noClientFault s := by
  rw [activeClient, EStateM.run_bind, EStateM.run_get, Session.activeClient?, Session.noClientFault]
  dsimp only
  cases s.active with
  | none => rfl
  | some name =>
    dsimp only [Option.bind_some]
    cases s.client? name <;> rfl

theorem Session.active_of_activeClient? {c : Client} (h : s.activeClient? = some c) :
    s.active = some c.name ∧ s.client? c.name = some c := by
  obtain ⟨name, hactive, hclient⟩ := Option.bind_eq_some_iff.1 h
  obtain rfl := Session.client?_name hclient
  exact ⟨hactive, hclient⟩

/-! ## One expectation -/

/-- The session after a breakdown of the program. -/
def Session.broken (s : Session σ) : Session σ := { s with crashed := true }

/-- What is shown of an expectation that is not checked because expectations are disabled. -/
def Session.skipped (s : Session σ) (echo : Echo) (e : Expectation) : String :=
  if s.expectEnabled then ""
  else
    match echo, e with
    | .literal, .literal text => text
    | _, _ => ""

theorem Session.write_empty (s : Session σ) : s.write "" = s := by rw [Session.write, String.append_empty]

theorem Session.skipped_of_enabled (h : s.expectEnabled = true) (echo : Echo) (e : Expectation) :
    s.skipped echo e = "" := by
  unfold Session.skipped
  rw [if_pos h]

theorem Session.skipped_of_ne_literal {echo : Echo} (h : echo ≠ .literal) (s : Session σ) (e : Expectation) :
    s.skipped echo e = "" := by
  unfold Session.skipped
  cases s.expectEnabled <;> cases echo <;> first | rfl | contradiction

/-- Disabled expectations are only shown. -/
theorem run_check_disabled (site : Site) (echo : Echo) (e : Expectation) (h : ¬s.expectEnabled = true) :
    (check site echo e).run s = .ok [] (s.write (s.skipped echo e)) := by
  have hempty : (EStateM.Result.ok [] s : EStateM.Result Fault (Session σ) Captures) = .ok [] (s.write "") := by
    rw [s.write_empty]
  unfold check Session.skipped
  rw [EStateM.run_bind, EStateM.run_get]
  dsimp only
  rw [if_pos (by simp [h]), if_neg h]
  cases echo with
  | literal => cases e <;> first | rfl | exact hempty
  | capture => exact hempty
  | silent => exact hempty

/-- Where nothing is checked, there is nothing to check, or there is no client to check it against, or the output of
the client cannot be read. -/
theorem run_check_of_not_checked (site : Site) (echo : Echo) {e : Expectation} (h : s.checkedClient? e = none) :
    ((s.expectEnabled = true → e = .literal "") ∧
      (check site echo e).run s = .ok [] (s.write (s.skipped echo e))) ∨
    (s.activeClient? = none ∧ (check site echo e).run s = .error s.noClientFault s) ∨
    ∃ c f, s.activeClient? = some c ∧ c.output.residual? = none ∧ (check site echo e).run s = .error f s.broken := by
  by_cases henabled : s.expectEnabled = true
  · rw [s.skipped_of_enabled henabled, s.write_empty]
    rw [Session.checkedClient?] at h
    unfold check
    rw [EStateM.run_bind, EStateM.run_get]
    dsimp only
    rw [if_neg (by simp [henabled])]
    by_cases hempty : e = .literal ""
    · rw [if_pos hempty]
      exact .inl ⟨fun _ => hempty, rfl⟩
    · rw [if_pos ⟨henabled, hempty⟩] at h
      rw [if_neg hempty, EStateM.run_bind, run_activeClient_eq]
      cases hactive : s.activeClient? with
      | none => exact .inr (.inl ⟨rfl, rfl⟩)
      | some c =>
        have hunread : c.output.residual? = none := by simpa [hactive] using h
        dsimp only
        rw [EStateM.run_bind, unread, hunread]
        exact .inr (.inr ⟨c, _, rfl, hunread, rfl⟩)
  · exact .inl ⟨fun h => absurd h henabled, run_check_disabled site echo e henabled⟩

theorem Session.Shows.quiet (h : s.Shows u) : s.Quiet u := by
  obtain ⟨_, _, _, -, rfl⟩ := h
  exact ⟨rfl, rfl, rfl, rfl, rfl, rfl⟩

/-- Where nothing is checked, nothing happens to the clients. -/
theorem check_of_not_checked (site : Site) (echo : Echo) {e : Expectation} (h : s.checkedClient? e = none) :
    s.Quiet (endOf (check site echo e) s) := by
  obtain ⟨-, hrun⟩ | ⟨-, hrun⟩ | ⟨c, f, -, -, hrun⟩ := run_check_of_not_checked site echo h
  · rw [endOf_of_ok hrun]
    exact (shows_write _ s).quiet
  · rw [endOf_of_error hrun]
    exact .refl s
  · rw [endOf_of_error hrun]
    exact ⟨rfl, rfl, rfl, rfl, rfl, rfl⟩

/-- Where an expectation is checked, the output of the active client is the one behind the check, and the outcome is
recorded. -/
theorem run_check_of_checked (site : Site) (echo : Echo) {e : Expectation} {c : Client}
    (h : s.checkedClient? e = some c) :
    (check site echo e).run s =
      (match (c.output.check e).1 with
        | .error p => throw p.fault
        | .ok outcome => record site echo c outcome : Action σ Captures).run
      (s.updateClient c.name fun d => { d with output := (c.output.check e).2 }) := by
  rw [Session.checkedClient?, Option.ite_none_right_eq_some, Option.filter_eq_some_iff] at h
  obtain ⟨⟨henabled, hempty⟩, hactive, hreadable⟩ := h
  obtain ⟨residual, hresidual⟩ := Option.isSome_iff_exists.1 hreadable
  have hclient : activeClient.run s = .ok c s := by rw [run_activeClient_eq, hactive]
  have hunread : (unread c).run s = .ok residual s := by
    rw [unread, hresidual]
    rfl
  unfold check
  rw [EStateM.run_bind, EStateM.run_get]
  dsimp only
  rw [if_neg (by simp [henabled]), if_neg hempty, run_bind_ok hclient, run_bind_ok hunread, EStateM.run_bind]
  rfl

/-- A change of one client is what one act makes of the clients. -/
theorem Session.client?_updateClient_act {c : Client} (h : s.client? c.name = some c) (f : Client → Client)
    (hf : ∀ d, d.name = c.name → (f d).name = c.name) {act : Act} (hact : f c = c.act act) (name : String) :
    (s.updateClient c.name f).client? name =
      (s.client? name).map ((actsOf name [(c.name, act)]).foldl Client.act) := by
  by_cases hname : c.name = name
  · obtain rfl := hname
    rw [Session.client?_updateClient h hf, h, actsOf_singleton_self, hact]
    rfl
  · rw [Session.client?_updateClient_of_ne (Ne.symm hname) hf, actsOf_singleton_of_ne hname]
    cases s.client? name <;> rfl

/-- What is recorded of an outcome: a mismatch, and nothing else, is a failure of the client. -/
theorem record_end (site : Site) (echo : Echo) (c : Client) (outcome : Outcome) (s : Session σ) :
    ∃ added : List Failure, (endOf (record site echo c outcome) s).failures = s.failures ++ added ∧
      (∀ f ∈ added, f.client = c.name) ∧
      added.map (fun f => (f.expected, f.actual)) = (mismatch? (.ok outcome)).toList ∧
      s.Quiet { endOf (record site echo c outcome) s with failures := s.failures } := by
  cases outcome with
  | matched text groups =>
    refine ⟨[], ?_, by simp, rfl, ?_⟩
    · cases echo <;> exact (List.append_nil _).symm
    · cases echo <;> exact ⟨rfl, rfl, rfl, rfl, rfl, rfl⟩
  | mismatch expected actual =>
    let failure : Failure :=
      { file := site.file, line := site.place.line, column := site.place.column,
        client := c.name, command := c.lastCommand, expected, actual }
    refine ⟨[failure], ?_, by simp [failure], rfl, ?_⟩
    · cases echo <;> rfl
    · cases echo <;> exact ⟨rfl, rfl, rfl, rfl, rfl, rfl⟩

/-! ## Expectations -/

/-- What a step makes of a session: nothing is done but with the active client, and nothing is checked while
expectations are disabled. -/
structure Does (link : Link σ) (s : Session σ) (log : Log) (s' : Session σ) : Prop extends Moves link s log s' where
  own : ∀ entry ∈ log, s.active = some entry.1
  enabled : ∀ entry ∈ log, ∀ e, entry.2 = .expectation e → s.expectEnabled = true

/-- What expectations alone make of a session: the active client stays active, and nothing is sent. -/
structure Expects (link : Link σ) (s : Session σ) (log : Log) (s' : Session σ) : Prop extends Does link s log s' where
  active : s'.active = s.active
  expectEnabled : s'.expectEnabled = s.expectEnabled
  calls : callsOf log = []

theorem Session.Quiet.expects (h : s.Quiet u) (link : Link σ) : Expects link s [] u :=
  ⟨⟨h.moves link, fun _ hentry => absurd hentry List.not_mem_nil, fun _ hentry => absurd hentry List.not_mem_nil⟩,
    h.active, h.enabled, rfl⟩

/-- What is quiet before a step does nothing more. -/
theorem Session.Quiet.does (h : s.Quiet u) (h' : Does link u log v) : Does link s log v where
  toMoves := h.then h'.toMoves
  own entry hentry := by
    rw [← h.active]
    exact h'.own entry hentry
  enabled entry hentry := by
    rw [← h.enabled]
    exact h'.enabled entry hentry

theorem Does.quiet (h : Does link s log u) (h' : u.Quiet v) : Does link s log v :=
  ⟨h.toMoves.quiet h', h.own, h.enabled⟩

theorem Expects.trans {log' : Log} (h : Expects link s log u) (h' : Expects link u log' v) :
    Expects link s (log ++ log') v where
  toMoves := h.toMoves.trans h'.toMoves
  active := h'.active.trans h.active
  expectEnabled := h'.expectEnabled.trans h.expectEnabled
  calls := by rw [callsOf_append, h.calls, h'.calls, List.append_nil]
  own entry hentry := by
    rcases List.mem_append.1 hentry with hentry | hentry
    · exact h.own entry hentry
    · rw [← h.active]
      exact h'.own entry hentry
  enabled entry hentry := by
    rcases List.mem_append.1 hentry with hentry | hentry
    · exact h.enabled entry hentry
    · rw [← h.expectEnabled]
      exact h'.enabled entry hentry

theorem Expects.quiet (h : Expects link s log u) (h' : u.Quiet v) : Expects link s log v := by
  have htrans := h.trans (h'.expects link)
  rwa [List.append_nil] at htrans

/-- A check does what its log says. -/
theorem check_expects (link : Link σ) (site : Site) (echo : Echo) (e : Expectation) (s : Session σ) :
    Expects link s (expectationLog s e) (endOf (check site echo e) s) := by
  cases hchecked : s.checkedClient? e with
  | none =>
    rw [expectationLog, hchecked]
    exact (check_of_not_checked site echo hchecked).expects link
  | some c =>
    obtain ⟨henabled, hactive, hclient⟩ :
        s.expectEnabled = true ∧ s.active = some c.name ∧ s.client? c.name = some c := by
      rw [Session.checkedClient?, Option.ite_none_right_eq_some, Option.filter_eq_some_iff] at hchecked
      exact ⟨hchecked.1.1, Session.active_of_activeClient? hchecked.2.1⟩
    let f : Client → Client := fun d => { d with output := (c.output.check e).2 }
    let u := s.updateClient c.name f
    -- What is recorded behind the check itself.
    obtain ⟨added, hfailures, hclients, hmismatches, hquiet⟩ : ∃ added : List Failure,
        (endOf (check site echo e) s).failures = u.failures ++ added ∧ (∀ f ∈ added, f.client = c.name) ∧
          added.map (fun f => (f.expected, f.actual)) = (mismatch? (c.output.check e).1).toList ∧
          u.Quiet { endOf (check site echo e) s with failures := u.failures } := by
      rw [endOf, run_check_of_checked site echo hchecked]
      cases (c.output.check e).1 with
      | error p => exact ⟨[], (List.append_nil _).symm, by simp, rfl, ⟨rfl, rfl, rfl, rfl, rfl, rfl⟩⟩
      | ok outcome => exact record_end site echo c outcome u
    have hlog : expectationLog s e = [(c.name, .expectation e)] := by
      rw [expectationLog, hchecked]
      rfl
    rw [hlog]
    -- The output of the client is the one behind the check, and what was added are its own failures.
    refine ⟨⟨⟨fun name => ?_, ?_, ?_, ⟨added, hfailures, ?_, ?_⟩, ?_, ?_⟩, ?_, fun _ _ _ _ => henabled⟩,
      hquiet.active, hquiet.enabled, rfl⟩
    · have hlookup : (endOf (check site echo e) s).client? name = u.client? name := hquiet.client? name
      rw [hlookup]
      exact Session.client?_updateClient_act hclient f (fun _ h => h) rfl name
    · have hclients : (endOf (check site echo e) s).clients = u.clients := hquiet.clients
      rw [hclients]
      exact Session.names_updateClient (f := f) (fun _ h => h) s
    · simp [hclient]
    · intro f hf
      rw [hclients f hf, hclient]
      rfl
    · intro name d hd
      by_cases hname : c.name = name
      · obtain rfl := hname
        obtain rfl : c = d := Option.some.inj (hclient.symm.trans hd)
        rw [List.filter_eq_self.2 (fun f hf => by simpa using hclients f hf), hmismatches, opsOf,
          actsOf_singleton_self]
        exact (List.append_nil _).symm
      · rw [List.filter_eq_nil_iff.2 (fun f hf => by simpa [hclients f hf] using hname), opsOf,
          actsOf_singleton_of_ne hname]
        rfl
    · exact hquiet.sent.trans (List.append_nil _).symm
    · exact hquiet.link
    · intro entry hentry
      obtain rfl := List.mem_singleton.1 hentry
      exact hactive

/-! ## Actions that do nothing with the clients -/

/-- From no session does the action do anything with the clients. -/
def IsQuiet (x : Action σ α) : Prop := ∀ s : Session σ, s.Quiet (endOf x s)

theorem isQuiet_bind {x : Action σ α} {f : α → Action σ β} (hx : IsQuiet x) (hf : ∀ a, IsQuiet (f a)) :
    IsQuiet (x >>= f) := by
  intro s
  have hfirst := hx s
  rw [endOf_bind]
  rw [endOf] at hfirst
  cases h : x.run s with
  | ok a s' =>
    rw [h] at hfirst
    exact hfirst.trans (hf a s')
  | error f s' =>
    rw [h] at hfirst
    exact hfirst

theorem isQuiet_pure (a : α) : IsQuiet (pure a : Action σ α) := fun s => .refl s

theorem isQuiet_throw (f : Fault) : IsQuiet (throw f : Action σ α) := fun s => .refl s

theorem isQuiet_get_bind {f : Session σ → Action σ α} (h : ∀ s : Session σ, s.Quiet (endOf (f s) s)) : IsQuiet (get >>= f) := h

theorem isQuiet_write (text : String) : IsQuiet (write text : Action σ Unit) := fun _ => ⟨rfl, rfl, rfl, rfl, rfl, rfl⟩

theorem isQuiet_collect (value : String) : IsQuiet (collect value : Action σ Unit) := fun _ => ⟨rfl, rfl, rfl, rfl, rfl, rfl⟩

theorem isQuiet_dumpMatched (shown : Bool) : IsQuiet (dumpMatched shown : Action σ Unit) := by
  intro s
  cases shown <;> exact ⟨rfl, rfl, rfl, rfl, rfl, rfl⟩

theorem isQuiet_present (text : String) : IsQuiet (present text : Action σ Unit) :=
  isQuiet_bind (isQuiet_write text) fun _ => isQuiet_get_bind fun u => isQuiet_dumpMatched u.showMatch u

theorem isQuiet_numberLine (n : Nat) : IsQuiet (numberLine n : Action σ Unit) := by
  refine isQuiet_get_bind fun s => ?_
  split
  · exact isQuiet_write _ s
  · exact .refl s

theorem isQuiet_resolve (site : Site) (name : String) : IsQuiet (resolve site name : Action σ String) := by
  refine isQuiet_get_bind fun s => ?_
  split
  · exact .refl s
  · exact .refl s

theorem isQuiet_unread (c : Client) : IsQuiet (unread c : Action σ String) := by
  intro s
  rw [unread]
  split
  · exact .refl s
  · exact ⟨rfl, rfl, rfl, rfl, rfl, rfl⟩

/-- What is left of an output is only read. -/
theorem isQuiet_flushResidual : IsQuiet (flushResidual : Action σ Unit) := by
  refine isQuiet_get_bind fun s => ?_
  split
  · exact .refl s
  · rename_i name _
    have hset : s.Quiet { s with pending := none } := ⟨rfl, rfl, rfl, rfl, rfl, rfl⟩
    refine hset.trans ?_
    split
    · exact .refl _
    · rename_i c _
      refine isQuiet_bind (isQuiet_unread c) (fun residual => ?_) _
      dsimp only
      split
      · exact isQuiet_pure ()
      · split
        · exact isQuiet_write _
        · exact isQuiet_write _

/-- What is quiet behind an action does nothing more. -/
theorem Does.bind_quiet {x : Action σ α} {f : α → Action σ β} (h : Does link s log (endOf x u))
    (hf : ∀ a, IsQuiet (f a)) : Does link s log (endOf (x >>= f) u) := by
  rw [endOf_bind]
  rw [endOf] at h
  cases hx : x.run u with
  | ok a s' =>
    rw [hx] at h
    exact h.quiet (hf a s')
  | error f s' =>
    rw [hx] at h
    exact h

/-! ## Expression blocks -/

section Evaluations

variable {T : Log → Session σ → Prop} {site : Site}

/-- The host of a block and the host that takes down what is done answer alike. `T` is what is known of the session from
the log of what has been done since the block began. -/
def logLikeness (T : Log → Session σ → Prop) : Likeness (Session σ) (Session σ × Log) where
  alike u p := p.1 = u ∧ T p.2 u

theorem hosts_logged (hcheck : ∀ log u e, T log u → T (log ++ expectationLog u e) (endOf (check site .capture e) u)) :
    HostsAlike (logLikeness T) True (check site .capture) (logged site) := by
  rintro e - _ ⟨u, log⟩ ⟨rfl, hlog⟩
  have hcheck := hcheck log u e hlog
  rw [endOf] at hcheck
  show EndsAlike _ ((check site .capture e).run u) (logged site e (u, log))
  rw [logged]
  cases h : (check site .capture e).run u with
  | ok captures s' =>
    rw [h] at hcheck
    rw [show check site .capture e u = .ok captures s' from h]
    exact EndsAlike.value captures (And.intro rfl hcheck :
      (logLikeness T).alike s' (s', log ++ expectationLog u e))
  | error f s' =>
    rw [h] at hcheck
    rw [show check site .capture e u = .error f s' from h]
    exact EndsAlike.fault f (And.intro rfl hcheck :
      (logLikeness T).alike s' (s', log ++ expectationLog u e))

/-- The program of a block runs under either host alike. -/
theorem eval_logged (hcheck : ∀ log u e, T log u → T (log ++ expectationLog u e) (endOf (check site .capture e) u))
    (source : String) (hstart : T [] s) :
    EndsAlike (logLikeness T).withEnv (Expr.eval (check site .capture) source (s.vars, s))
      (Expr.eval (logged site) source (s.vars, (s, []))) := by
  have halike := eval_alike (hosts_logged hcheck) (fun program _ name _ _ => trivial : ∀ program,
    read source = .ok program → ∀ name ∈ program.flatMap Statement.calls, ExpectsPattern name → True)
  exact halike (s.vars, s) (s.vars, (s, [])) ⟨rfl, rfl, hstart⟩

/-- How the program of a block ends, and what is done until then. A string result has still to be checked. What every
check keeps up with the log holds at the end. -/
theorem evaluate_logged (hcheck : ∀ log u e, T log u → T (log ++ expectationLog u e) (endOf (check site .capture e) u))
    (hvars : ∀ log u vars, T log u → T log { u with vars }) (source : String) (hstart : T [] s) :
    ∃ log u, T log u ∧
      ((∃ v, (evaluate site source).run s = .ok v u ∧
          blockLog site source s = log ++ resultLog u v) ∨
        ∃ f, (evaluate site source).run s = .error f u ∧ blockLog site source s = log) := by
  have hends := eval_logged hcheck source hstart
  have hrun : (evaluate site source).run s = evaluate site source s := rfl
  rw [hrun, evaluate, blockLog]
  generalize Expr.eval (check site .capture) source (s.vars, s) = r₁ at hends
  generalize Expr.eval (logged site) source (s.vars, (s, [])) = r₂ at hends
  cases hends with
  | @value p q v h =>
    obtain ⟨vars, u⟩ := p
    obtain ⟨vars', u', log⟩ := q
    obtain ⟨-, hu, hlog⟩ := h
    obtain rfl : u' = u := hu
    refine ⟨log, { u' with vars }, hvars log u' vars hlog, .inl ⟨v, rfl, ?_⟩⟩
    cases v with
    | str text => rfl
    | null => exact (List.append_nil log).symm
    | bool b => exact (List.append_nil log).symm
    | int n => exact (List.append_nil log).symm
    | json j => exact (List.append_nil log).symm
  | @fault p q f h =>
    obtain ⟨vars, u⟩ := p
    obtain ⟨vars', u', log⟩ := q
    obtain ⟨-, hu, hlog⟩ := h
    obtain rfl : u' = u := hu
    exact ⟨log, { u' with vars }, hvars log u' vars hlog, .inr ⟨_, rfl, rfl⟩⟩
  | gaveUp₁ r h => exact h.elim
  | gaveUp₂ r h => exact h.elim

end Evaluations

theorem evaluate_expects (link : Link σ) (site : Site) (source : String) (s : Session σ) :
    ∃ log u, Expects link s log u ∧
      ((∃ v, (evaluate site source).run s = .ok v u ∧
          blockLog site source s = log ++ resultLog u v) ∨
        ∃ f, (evaluate site source).run s = .error f u ∧ blockLog site source s = log) :=
  evaluate_logged (fun _ u e hexpects => hexpects.trans (check_expects link site .capture e u))
    (fun _ _ _ hexpects => hexpects.quiet ⟨rfl, rfl, rfl, rfl, rfl, rfl⟩) source ((Session.Quiet.refl s).expects link)

theorem expectResult_expects (link : Link σ) (site : Site) (v : Value) (s : Session σ) :
    Expects link s (resultLog s v) (endOf (expectResult site v) s) := by
  rw [expectResult, resultLog]
  cases stringResult? v with
  | none => exact (Session.Quiet.refl s).expects link
  | some text =>
    dsimp only
    rw [endOf_bind_pure]
    exact check_expects link site .capture (.literal text) s

/-- A block does what its log says. -/
theorem block_does (link : Link σ) (site : Site) {t : Token} {source : String} {recorded : Option String}
    (hparts : t.expressionParts? = some (source, recorded)) (s : Session σ) :
    Does link s (blockLog site source s) (endOf (block site t) s) := by
  obtain ⟨log, u, hexpects, ⟨v, hevaluate, hlog⟩ | ⟨f, hevaluate, hlog⟩⟩ := evaluate_expects link site source s
  · rw [hlog, block_of_some hparts, endOf_bind_ok hevaluate]
    exact (hexpects.trans (expectResult_expects link site v u)).toDoes.bind_quiet fun _ => isQuiet_present _
  · rw [hlog, block_of_some hparts, endOf_bind_error hevaluate]
    exact hexpects.toDoes

/-- Nothing is sent in a block. -/
theorem callsOf_blockLog (site : Site) (source : String) (s : Session σ) : callsOf (blockLog site source s) = [] := by
  let link : Link σ := ⟨fun _ _ state => (.ok "", state)⟩
  obtain ⟨log, u, hexpects, ⟨v, -, hlog⟩ | ⟨f, -, hlog⟩⟩ := evaluate_expects link site source s
  · rw [hlog, callsOf_append, hexpects.calls, List.nil_append]
    exact (expectResult_expects link site v u).calls
  · rw [hlog, hexpects.calls]

/-! ## Command lines -/

/-- A directive turns switches, or makes another client active, and nothing else. -/
theorem directive?_same {words : List String} (h : directive? words s = some u) :
    ∃ active expectEnabled showMatch showLineNumbers,
      u = { s with active, expectEnabled, showMatch, showLineNumbers } := by
  unfold directive? at h
  split at h
  · exact ⟨_, _, _, _, (Option.some.inj h).symm⟩
  · obtain ⟨on, -, rfl⟩ := Option.map_eq_some_iff.1 h
    exact ⟨_, _, _, _, rfl⟩
  · obtain ⟨on, -, rfl⟩ := Option.map_eq_some_iff.1 h
    exact ⟨_, _, _, _, rfl⟩
  · obtain ⟨on, -, rfl⟩ := Option.map_eq_some_iff.1 h
    exact ⟨_, _, _, _, rfl⟩
  · obtain ⟨on, -, rfl⟩ := Option.map_eq_some_iff.1 h
    exact ⟨_, _, _, _, rfl⟩
  · contradiction

/-- The session when a command has been sent. -/
def Session.withSent (s : Session σ) (name command : String) (state : σ) : Session σ :=
  { s with link := state, sent := s.sent ++ [(name, command)] }

/-- The session when a client has answered a command. -/
def Session.withReply (s : Session σ) (name command reply : String) : Session σ :=
  { s.updateClient name fun c => { c with output := c.output.reset reply, lastCommand := some command } with
    pending := some name }

variable {c : Client} {command reply : String} {line : Nat} {state : σ}

theorem run_sendCommand_of_error {f : Fault} (hc : s.activeClient? = some c)
    (hsend : link.send c.name command s.link = (.error f, state)) :
    (sendCommand link command line).run s = .error (.command command line f) (s.withSent c.name command state) := by
  have hclient : activeClient.run s = .ok c s := by rw [run_activeClient_eq, hc]
  rw [sendCommand, run_bind_ok hclient, EStateM.run_bind, EStateM.run_get]
  simp only [hsend]
  rfl

theorem run_sendCommand_of_ok (hc : s.activeClient? = some c)
    (hsend : link.send c.name command s.link = (.ok reply, state)) :
    (sendCommand link command line).run s =
      .ok () ((s.withSent c.name command state).withReply c.name command reply) := by
  have hclient : activeClient.run s = .ok c s := by rw [run_activeClient_eq, hc]
  rw [sendCommand, run_bind_ok hclient, EStateM.run_bind, EStateM.run_get]
  simp only [hsend]
  rfl

/-- A refused command leaves the client as it was. -/
theorem foldl_act_refused (name other : String) (c : Client) :
    (actsOf other [(name, .command command none)]).foldl Client.act c = c := by
  by_cases hname : name = other
  · obtain rfl := hname
    rw [actsOf_singleton_self]
    rfl
  · rw [actsOf_singleton_of_ne hname]
    rfl

/-- A command checks nothing, so there is no mismatch. -/
theorem mismatches_command (name other : String) (answer : Option String) (output : Output.State) :
    output.mismatches (opsOf other [(name, .command command answer)]) = [] := by
  by_cases hname : name = other
  · obtain rfl := hname
    rw [opsOf, actsOf_singleton_self]
    cases answer <;> rfl
  · rw [opsOf, actsOf_singleton_of_ne hname]
    rfl

/-- A command is sent once to the active client, and the reply is captured. -/
theorem sendCommand_does (link : Link σ) (command : String) (line : Nat) (s : Session σ) :
    Does link s
      (s.activeClient?.toList.map fun c => (c.name, .command command (link.send c.name command s.link).1.toOption))
      (endOf (sendCommand link command line) s) := by
  cases hc : s.activeClient? with
  | none =>
    have hfault : endOf (sendCommand link command line) s = s := by
      rw [sendCommand, endOf_bind, run_activeClient_eq, hc]
    rw [hfault]
    exact ((Session.Quiet.refl s).expects link).toDoes
  | some c =>
    obtain ⟨hactive, hclient⟩ := Session.active_of_activeClient? hc
    have hown : ∀ act : Act, ∀ entry ∈ [(c.name, act)], s.active = some entry.1 := fun act => by simp [hactive]
    have hknown : ∀ act : Act, ∀ entry ∈ [(c.name, act)], (s.client? entry.1).isSome := fun act => by simp [hclient]
    have hunchecked : ∀ answer, ∀ entry ∈ [(c.name, Act.command command answer)], ∀ e, entry.2 = .expectation e →
        s.expectEnabled = true := fun answer => by simp
    rw [Option.toList_some, List.map_cons, List.map_nil]
    cases hsend : link.send c.name command s.link with
    | mk answer state =>
      have hlink : state = link.sendAll s.link [(c.name, command)] := (congrArg Prod.snd hsend).symm
      cases answer with
      | error f =>
        rw [endOf_of_error (run_sendCommand_of_error hc hsend)]
        refine ⟨⟨fun name => ?_, rfl, hknown _, ⟨[], (List.append_nil _).symm, by simp, fun name d _ => ?_⟩, rfl, hlink⟩,
          hown _, hunchecked _⟩
        · -- a command that is refused is sent all the same, and does nothing with its client
          have hsame : (actsOf name [(c.name, .command command none)]).foldl Client.act = id :=
            funext fun d => foldl_act_refused c.name name d
          show s.client? name = (s.client? name).map ((actsOf name [(c.name, .command command none)]).foldl Client.act)
          rw [hsame, Option.map_id]
          rfl
        · exact (mismatches_command c.name name none d.output).symm
      | ok reply =>
        let f : Client → Client := fun c => { c with output := c.output.reset reply, lastCommand := some command }
        rw [endOf_of_ok (run_sendCommand_of_ok hc hsend)]
        refine ⟨⟨fun name => ?_, ?_, hknown _, ⟨[], (List.append_nil _).symm, by simp, fun name d _ => ?_⟩, rfl, hlink⟩,
          hown _, hunchecked _⟩
        · exact Session.client?_updateClient_act hclient f (fun _ h => h) rfl name
        · exact Session.names_updateClient (f := f) (fun _ h => h) s
        · exact (mismatches_command c.name name (some reply) d.output).symm

/-- The end of a command line does what its log says. -/
theorem execute_does (link : Link σ) (file : String) (line : CommandLine) (s : Session σ) :
    Does link s (lineLog link s (some line)) (endOf (execute link file line) s) := by
  unfold execute lineLog
  dsimp only
  split
  · rw [endOf_bind, EStateM.run_get]
    dsimp only
    split
    · rename_i u hu
      obtain ⟨_, _, _, _, rfl⟩ := directive?_same hu
      -- The directive may have made another client active, or have enabled expectations, but has done nothing with any.
      have hmoves := (Session.Quiet.refl s).moves link
      exact ⟨⟨hmoves.client, hmoves.names, hmoves.known, hmoves.failures, hmoves.sent, hmoves.link⟩,
        fun _ hentry => absurd hentry List.not_mem_nil, fun _ hentry => absurd hentry List.not_mem_nil⟩
    · exact ((Session.Quiet.refl s).expects link).toDoes
  · exact sendCommand_does link _ _ s

/-! ## Steps and runs -/

variable (link : Link σ) (file : String)

theorem finish_does (line : Option CommandLine) (s : Session σ) :
    Does link s (lineLog link s line) (endOf (finish link file line) s) := by
  cases line with
  | none => exact ((Session.Quiet.refl s).expects link).toDoes
  | some line => exact execute_does link file line s

/-- Blanks do nothing, but where they end a command line. -/
theorem step_blank_does {t : Token} (hk : t.kind = .newline ∨ t.kind = .whitespace) (line : Option CommandLine)
    (s : Session σ) :
    Does link s (if t.endsLine then lineLog link s line else []) (endOf (step link file line t) s) := by
  rw [step_of_blank link file hk]
  split
  · exact (finish_does link file line s).bind_quiet fun _ => isQuiet_bind (isQuiet_write _) fun _ => isQuiet_pure _
  · exact ((isQuiet_bind (isQuiet_write _) fun _ => isQuiet_pure _) s |>.expects link).toDoes

/-- A reference is checked as its value. -/
theorem step_reference_does {t : Token} (hk : t.kind = .reference) (s : Session σ) :
    Does link s
      (match s.vars.get? (String.ofList (t.text.toList.drop 1)) with
        | some v => expectationLog s (.literal v.text)
        | none => [])
      (endOf (step link file none t) s) := by
  rw [step_of_reference link file hk]
  cases hvar : s.vars.get? (String.ofList (t.text.toList.drop 1)) with
  | none =>
    rw [endOf_bind_error (run_resolve_of_none _ hvar)]
    exact ((Session.Quiet.refl s).expects link).toDoes
  | some v =>
    let u : Session σ := { s with matched := s.matched ++ [v.text] }
    have hcollect : (collect v.text).run s = .ok () u := rfl
    have hquiet : s.Quiet u := ⟨rfl, rfl, rfl, rfl, rfl, rfl⟩
    rw [endOf_bind_ok (run_resolve_of_some _ hvar), endOf_bind_ok hcollect]
    refine hquiet.does (Does.bind_quiet ?_ fun _ => isQuiet_bind (isQuiet_present _) fun _ => isQuiet_pure _)
    exact (check_expects link ⟨file, t.place⟩ .silent (.literal v.text) u).toDoes.bind_quiet fun _ => isQuiet_pure ()

/-- Text is expected, unless it begins an expression block that has no end. -/
theorem step_literal_does {t : Token} (hk : t.kind = .literal) (s : Session σ) :
    Does link s (if occurs ['$', '\x7b'] t.text.toList then [] else expectationLog s (.literal t.text))
      (endOf (step link file none t) s) := by
  rw [step_of_text link file (.inl hk)]
  split
  · exact ((Session.Quiet.refl s).expects link).toDoes
  · refine Does.bind_quiet ?_ fun _ => isQuiet_bind (isQuiet_dumpMatched false) fun _ => isQuiet_pure _
    exact (check_expects link ⟨file, t.place⟩ .literal (.literal t.text) s).toDoes.bind_quiet fun _ => isQuiet_pure ()

/-- Text within a command line is only shown. -/
theorem isQuiet_step_text {t : Token} (l : CommandLine)
    (hk : t.kind = .literal ∨ t.kind = .commandMarker ∧ (some l).isSome) :
    IsQuiet (step link file (some l) t) := by
  rw [step_of_text link file hk]
  split
  · exact isQuiet_throw _
  · exact isQuiet_bind (isQuiet_write _) fun _ => isQuiet_bind (isQuiet_dumpMatched false) fun _ => isQuiet_pure _

/-- A token does what its log says. -/
theorem step_does (line : Option CommandLine) (t : Token) (s : Session σ) :
    Does link s (tokenLog link file s line t) (endOf (step link file line t) s) := by
  -- a quiet step does what the empty log says
  have hquiet : IsQuiet (step link file line t) → Does link s [] (endOf (step link file line t) s) := fun h =>
    ((h s).expects link).toDoes
  unfold tokenLog
  cases hk : t.kind with
  | newline => exact step_blank_does link file (.inl hk) line s
  | whitespace => exact step_blank_does link file (.inr hk) line s
  | expression =>
    cases hparts : t.expressionParts? with
    | none =>
      have hblock : block ⟨file, t.place⟩ t =
          (throw (Site.syntaxFault ⟨file, t.place⟩ malformed) : Action σ Unit) := by
        rw [block, hparts]
      refine hquiet ?_
      rw [step_of_expression link file hk, hblock]
      exact isQuiet_bind (isQuiet_throw _) fun _ => isQuiet_pure line
    | some parts =>
      rw [step_of_expression link file hk]
      exact (block_does link _ hparts s).bind_quiet fun _ => isQuiet_pure line
  | reference =>
    cases line with
    | none => exact step_reference_does link file hk s
    | some l =>
      refine hquiet ?_
      rw [step_of_reference link file hk]
      exact isQuiet_bind (isQuiet_resolve _ _) fun value => isQuiet_bind (isQuiet_collect value) fun _ =>
        isQuiet_bind (isQuiet_pure ()) fun _ => isQuiet_bind (isQuiet_present _) fun _ => isQuiet_pure _
  | commandMarker =>
    refine hquiet ?_
    cases line with
    | none =>
      rw [step_of_opening link file hk]
      exact isQuiet_bind isQuiet_flushResidual fun _ => isQuiet_bind (isQuiet_numberLine _) fun _ =>
        isQuiet_bind (isQuiet_write _) fun _ => isQuiet_pure _
    | some l => exact isQuiet_step_text link file l (.inr ⟨hk, rfl⟩)
  | comment =>
    refine hquiet ?_
    rw [step_of_comment link file hk]
    exact isQuiet_bind (isQuiet_write _) fun _ => isQuiet_pure line
  | literal =>
    cases line with
    | none => exact step_literal_does link file hk s
    | some l => exact hquiet <| isQuiet_step_text link file l (.inl hk)

/-- The end of a script does what its log says. What is left of an output is only shown. -/
theorem conclude_does (line : Option CommandLine) (s : Session σ) :
    Does link s (lineLog link s line) (endOf (conclude link file line) s) :=
  (finish_does link file line s).bind_quiet fun _ => isQuiet_flushResidual

/-- What is done at a place of a run is what the log of the place says. -/
theorem after_does (v : Visit σ) : Does link v.session (v.log link file) (v.after link file) := by
  obtain ⟨s, line, next⟩ := v
  cases next with
  | none => exact conclude_does link file line s
  | some t => exact step_does link file line t s

/-- What a script makes of a session is what its log says, also if it ends with a fault. -/
theorem runScript_moves (src : String) (s : Session σ) :
    Moves link s (scriptLog link file src s) (endOf (runScript link file src) s) := by
  rw [runScript_eq]
  exact run_of_steps link file Moves.trans (fun v => (after_does link file v).toMoves) none s (tokens src)

end Conformance.Script
