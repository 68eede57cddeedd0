import Conformance.Proofs.Expr.Composition
import Conformance.Proofs.Script.Dispatch
import Conformance.Proofs.Script.Kinds

/-!
# Where faults come up

A fault ends a script at a place of its run and names it: the token that is next, or the marker of the command line that
ends there. `Fails` says with which faults this can be, and which session is left: the one that the tokens in front
leave, but for what the token itself has done by then. An expression that cannot be evaluated, or a pattern that cannot
be read, is a fault of the block in which it stands, and the statements in front of it have been performed
(`block_fails`).

A run that ends with a fault comes to such a place, and all that is in front of it has been carried out
(`runScript_fails`). A breakdown of the program is no fault of the script and is left out.
-/
namespace Conformance.Script

open Text Expr

variable {σ α β : Type} {link : Link σ} {file : String} {site : Site} {echo : Echo} {e : Expectation} {t : Token}
  {line : Option CommandLine} {v : Visit σ} {f : Fault} {s s' u : Session σ}
  {granted granted' : List (Expectation × Captures)}

/-! ## Places of faults -/

/-- The command line was opened by the marker of one of these places, outside any other line, and the places behind it
make up its text. -/
def OpenedIn (front : List (Visit σ)) (l : CommandLine) : Prop :=
  ∃ earlier opening marker inside, front = earlier ++ opening :: inside ∧
    opening.line = none ∧ opening.next = some marker ∧ marker.kind = .commandMarker ∧ marker.place = l.place ∧
      (∀ v ∈ inside, v.endsCommand = false) ∧ l.text = lineText inside

/-- With this fault a run can end at the place, and leaves this session. -/
inductive Fails (link : Link σ) (file : String) (v : Visit σ) : Fault → Session σ → Prop where
  /-- The token begins an expression block that has no end. -/
  | unterminated {t : Token} (hnext : v.next = some t) (hkind : t.kind = .literal)
    (hopens : occurs ['$', '\x7b'] t.text.toList = true) :
    Fails link file v (.scriptSyntax file t.place.line t.place.column unterminated) v.session
  /-- The program of the block cannot be read, so none of it is carried out. -/
  | unreadable {t : Token} {source : String} {recorded : Option String} {p : Problem} (hnext : v.next = some t)
    (hparts : t.expressionParts? = some (source, recorded)) (hread : read source = .error p) :
    Fails link file v (.scriptSyntax file t.place.line t.place.column p.message) v.session
  /-- A statement of the block fails behind those in front of it, which have assigned their variables. -/
  | statement {t : Token} {source message : String} {recorded : Option String} {before after : List Statement}
    {stmt : Statement} {granted granted' : List (Expectation × Captures)} {env : Env} {failure : EvalFailure}
    {u : Session σ} (hnext : v.next = some t) (hparts : t.expressionParts? = some (source, recorded))
    (hread : read source = .ok (before ++ stmt :: after)) (hbefore : Performs v.session.vars before granted env)
    (hraises : Raises env stmt.expression granted' (.error failure))
    (hends : Ends (check ⟨file, t.place⟩ .capture) v.session (granted ++ granted')
      (.error failure : Except EvalFailure Value) (.error (.expression message) u)) :
    Fails link file v (.scriptSyntax file t.place.line t.place.column message) { u with vars := env }
  | unknownVariable {t : Token} {name : String} (hnext : v.next = some t) (hkind : t.kind = .reference)
    (hname : t.text = "$" ++ name) (hvar : v.session.vars.get? name = none) :
    Fails link file v (.unknownVariable file name t.place.line t.place.column) v.session
  /-- The line that ends here begins as a directive and is none. -/
  | unknownDirective {l : CommandLine} (hline : v.line = some l) (hends : v.endsCommand = true)
    (hbang : l.text.trimWhite.toList.head? = some '!')
    (hdirective : directive? l.text.trimWhite.whiteWords v.session = none) :
    Fails link file v (.unknownDirective file l.place.line l.place.column l.text.trimWhite) v.session
  /-- The command of the line that ends here is sent, and refused. -/
  | command {l : CommandLine} {c : Client} {source : Fault} {state : σ} (hline : v.line = some l)
    (hends : v.endsCommand = true) (hclient : v.session.activeClient? = some c)
    (hsend : link.send c.name l.text.trimWhite v.session.link = (.error source, state)) :
    Fails link file v (.command l.text.trimWhite l.place.line source)
      (v.session.withSent c.name l.text.trimWhite state)
  /-- There is no client to send a command to, or to expect a text of. The value of a reference has been collected. -/
  | noClient (hclient : v.session.activeClient? = none) (values : List String) :
    Fails link file v v.session.noClientFault { v.session with matched := v.session.matched ++ values }
  /-- There is no client to expect of what a statement of the block expects. -/
  | statementWithoutClient {t : Token} {source : String} {recorded : Option String} {before after : List Statement}
    {stmt : Statement} {granted granted' : List (Expectation × Captures)} {env : Env} {failure : EvalFailure}
    (hclient : v.session.activeClient? = none) (hnext : v.next = some t)
    (hparts : t.expressionParts? = some (source, recorded))
    (hread : read source = .ok (before ++ stmt :: after)) (hbefore : Performs v.session.vars before granted env)
    (hraises : Raises env stmt.expression granted' (.error failure))
    (hends : Ends (check ⟨file, t.place⟩ .capture) v.session (granted ++ granted')
      (.error failure : Except EvalFailure Value) (.error v.session.noClientFault v.session)) :
    Fails link file v v.session.noClientFault { v.session with vars := env }
  /-- There is no client to expect the result of the block of. All its statements have been performed. -/
  | resultWithoutClient {t : Token} {source : String} {recorded : Option String} {ss : List Statement}
    {granted : List (Expectation × Captures)} {env : Env} (hclient : v.session.activeClient? = none)
    (hnext : v.next = some t) (hparts : t.expressionParts? = some (source, recorded)) (hread : read source = .ok ss)
    (hperforms : Performs v.session.vars ss granted env)
    (hserves : Serves (check ⟨file, t.place⟩ .capture) v.session granted v.session) :
    Fails link file v v.session.noClientFault { v.session with vars := env }

/-- The fault names the place, or the client that is missing there. It is no fault of an expression alone, and that of a
command has the cause that the connection gave. -/
inductive Located (link : Link σ) (file : String) (v : Visit σ) : Fault → Prop where
  | scriptSyntax {t : Token} (hnext : v.next = some t) (message : String) :
    Located link file v (.scriptSyntax file t.place.line t.place.column message)
  | unknownVariable {t : Token} (hnext : v.next = some t) (name : String) :
    Located link file v (.unknownVariable file name t.place.line t.place.column)
  | unknownDirective {l : CommandLine} (hline : v.line = some l) :
    Located link file v (.unknownDirective file l.place.line l.place.column l.text.trimWhite)
  | unknownClient {name : String} (hactive : v.session.active = some name) (hclient : v.session.client? name = none) :
    Located link file v (.unknownClient name)
  | noActiveClient (hactive : v.session.active = none) : Located link file v .noActiveClient
  | command {l : CommandLine} {c : Client} {source : Fault} (hline : v.line = some l)
    (hclient : v.session.activeClient? = some c)
    (hsend : (link.send c.name l.text.trimWhite v.session.link).1 = .error source) :
    Located link file v (.command l.text.trimWhite l.place.line source)

theorem located_without_client (hclient : v.session.activeClient? = none) :
    Located link file v v.session.noClientFault := by
  rw [Session.activeClient?] at hclient
  rw [Session.noClientFault]
  cases hactive : v.session.active with
  | none => exact .noActiveClient hactive
  | some name =>
    rw [hactive] at hclient
    exact .unknownClient hactive hclient

/-- In whatever way a place fails, the fault is located. -/
theorem Fails.located (h : Fails link file v f s') : Located link file v f := by
  cases h with
  | unterminated hnext => exact .scriptSyntax hnext _
  | unreadable hnext => exact .scriptSyntax hnext _
  | statement hnext => exact .scriptSyntax hnext _
  | unknownVariable hnext => exact .unknownVariable hnext _
  | unknownDirective hline => exact .unknownDirective hline
  | command hline _ hclient hsend => exact .command hline hclient (congrArg Prod.fst hsend)
  | noClient hclient => exact located_without_client hclient
  | statementWithoutClient hclient => exact located_without_client hclient
  | resultWithoutClient hclient => exact located_without_client hclient

/-- Nothing of the first session is lost in the second: the switches and the transcript are the same, and there may be
more records. Of variables and outputs this says nothing. -/
structure Session.Keeps (s s' : Session σ) : Prop where
  active : s'.active = s.active
  expectEnabled : s'.expectEnabled = s.expectEnabled
  showMatch : s'.showMatch = s.showMatch
  showLineNumbers : s'.showLineNumbers = s.showLineNumbers
  pending : s'.pending = s.pending
  transcript : s'.transcript = s.transcript
  matched : s.matched <+: s'.matched
  failures : s.failures <+: s'.failures
  sent : s.sent <+: s'.sent
  names : s'.clients.map (·.name) = s.clients.map (·.name)

theorem Session.Keeps.refl (s : Session σ) : s.Keeps s :=
  ⟨rfl, rfl, rfl, rfl, rfl, rfl, List.prefix_rfl, List.prefix_rfl, List.prefix_rfl, rfl⟩

theorem Session.Keeps.trans (h : s.Keeps u) (h' : u.Keeps s') : s.Keeps s' :=
  ⟨h'.active.trans h.active, h'.expectEnabled.trans h.expectEnabled, h'.showMatch.trans h.showMatch,
    h'.showLineNumbers.trans h.showLineNumbers, h'.pending.trans h.pending, h'.transcript.trans h.transcript,
    h.matched.trans h'.matched, h.failures.trans h'.failures, h.sent.trans h'.sent, h'.names.trans h.names⟩

theorem Session.Keeps.withVars (h : s.Keeps u) (vars : Env) : s.Keeps { u with vars } :=
  ⟨h.active, h.expectEnabled, h.showMatch, h.showLineNumbers, h.pending, h.transcript, h.matched, h.failures, h.sent,
    h.names⟩

/-! ## Actions that fail -/

/-- From no session does the action fail. -/
def NeverFails (x : Action σ α) : Prop := ∀ (s : Session σ) f s', x.run s ≠ .error f s'

theorem neverFails_pure (a : α) : NeverFails (pure a : Action σ α) := by
  intro s f s' h
  injection h

theorem NeverFails.bind {x : Action σ α} {g : α → Action σ β} (hx : NeverFails x) (hg : ∀ a, NeverFails (g a)) :
    NeverFails (x >>= g) := by
  intro s f s' h
  obtain h | ⟨a, u, -, h⟩ := run_bind_eq_error h
  · exact hx s f s' h
  · exact hg a u f s' h

theorem OnlyShows.neverFails {x : Action σ α} {a : α} (h : OnlyShows x a) : NeverFails x := by
  intro s f s' herror
  obtain ⟨u, hrun, -⟩ := h s
  rw [hrun] at herror
  injection herror

theorem neverFails_record (site : Site) (echo : Echo) (c : Client) (outcome : Output.Outcome) :
    NeverFails (record site echo c outcome : Action σ Captures) := by
  intro s f s' h
  cases outcome <;> cases echo <;> injection h

/-- The fault of an action is that of its first part, if what is behind does not fail. -/
theorem run_error_of_bind {x : Action σ α} {g : α → Action σ β} (h : (x >>= g).run s = .error f s')
    (hg : ∀ a, NeverFails (g a)) : x.run s = .error f s' := by
  obtain h | ⟨a, u, -, h⟩ := run_bind_eq_error h
  · exact h
  · exact absurd h (hg a u f s')

/-- The output of a client is left unread only by a breakdown. -/
theorem crashed_of_flushResidual (h : flushResidual.run s = .error f s') : s'.crashed = true := by
  by_cases hreadable : s.Readable
  · obtain ⟨u, hrun, -⟩ := run_flushResidual hreadable
    rw [hrun] at h
    injection h
  · obtain ⟨f', u, hrun, hcrashed⟩ := run_flushResidual_of_not_readable hreadable
    rw [hrun] at h
    injection h with _ hu
    rwa [← hu]

/-! ## Expectations -/

/-- An expectation fails without a client, or by its pattern. -/
theorem check_error (h : (check site echo e).run s = .error f s') (hruns : s'.crashed = false) :
    (s.activeClient? = none ∧ f = s.noClientFault ∧ s' = s) ∨
      ∃ pattern message, e = .regex pattern ∧ f = .expression message := by
  cases hchecked : s.checkedClient? e with
  | none =>
    obtain ⟨-, hrun⟩ | ⟨hclient, hrun⟩ | ⟨c, f', -, -, hrun⟩ := run_check_of_not_checked site echo hchecked
    · rw [hrun] at h
      injection h
    · rw [hrun] at h
      injection h with hf hs
      exact .inl ⟨hclient, hf.symm, hs.symm⟩
    · rw [hrun] at h
      injection h with _ hs
      rw [← hs] at hruns
      cases hruns
  | some c =>
    rw [run_check_of_checked site echo hchecked] at h
    cases hresult : (c.output.check e).1 with
    | ok outcome =>
      rw [hresult] at h
      exact absurd h (neverFails_record site echo c outcome _ f s')
    | error p =>
      rw [hresult] at h
      injection h with hf
      refine .inr ?_
      -- All other expectations come to an outcome.
      cases e with
      | regex pattern => exact ⟨pattern, p.message, rfl, hf.symm⟩
      | literal text => cases hresult
      | json => cases hresult
      | relativeTime => cases hresult
      | isoTime => cases hresult

theorem check_literal_error {text : String} (h : (check site echo (.literal text)).run s = .error f s')
    (hruns : s'.crashed = false) : s.activeClient? = none ∧ f = s.noClientFault ∧ s' = s := by
  obtain h | ⟨pattern, message, he, -⟩ := check_error h hruns
  · exact h
  · cases he

/-- An expectation leaves no session without a client but one that had none. -/
theorem activeClient?_of_check {c : Captures} (h : (check site echo e).run s = .ok c u)
    (hclient : u.activeClient? = none) : s.activeClient? = none := by
  -- Any link does, since an expectation sends nothing.
  let link : Link σ := ⟨fun _ _ state => (.ok "", state)⟩
  have hexpects := check_expects link site echo e s
  rw [endOf_of_ok h] at hexpects
  rw [Session.activeClient?, hexpects.active] at hclient
  rw [Session.activeClient?]
  cases hactive : s.active with
  | none => rfl
  | some name =>
    rw [hactive, Option.bind_some, hexpects.client, Option.map_eq_none_iff] at hclient
    exact hclient

/-- What an expectation of a block does is added to what there is. -/
theorem keeps_check (site : Site) (e : Expectation) (s : Session σ) : s.Keeps (endOf (check site .capture e) s) := by
  cases hchecked : s.checkedClient? e with
  | none =>
    obtain ⟨-, hrun⟩ | ⟨-, hrun⟩ | ⟨c, f, -, -, hrun⟩ := run_check_of_not_checked site .capture hchecked
    · rw [endOf_of_ok hrun, s.skipped_of_ne_literal (by decide), Session.write_empty]
      exact .refl s
    · rw [endOf_of_error hrun]
      exact .refl s
    · rw [endOf_of_error hrun]
      exact ⟨rfl, rfl, rfl, rfl, rfl, rfl, List.prefix_rfl, List.prefix_rfl, List.prefix_rfl, rfl⟩
  | some c =>
    let read (d : Client) : Client := { d with output := (c.output.check e).2 }
    let u := s.updateClient c.name read
    have hu : s.Keeps u :=
      ⟨rfl, rfl, rfl, rfl, rfl, rfl, List.prefix_rfl, List.prefix_rfl, List.prefix_rfl,
        Session.names_updateClient (f := read) (fun _ h => h) s⟩
    rw [endOf, run_check_of_checked site .capture hchecked]
    refine hu.trans ?_
    cases (c.output.check e).1 with
    | error p => exact .refl u
    | ok outcome =>
      cases outcome with
      | matched text groups =>
        exact ⟨rfl, rfl, rfl, rfl, rfl, rfl, List.prefix_append .., List.prefix_rfl, List.prefix_rfl, rfl⟩
      | mismatch expected actual =>
        exact ⟨rfl, rfl, rfl, rfl, rfl, rfl, List.prefix_rfl, List.prefix_append .., List.prefix_rfl, rfl⟩

theorem keeps_of_serves (h : Serves (check site .capture) s granted u) : s.Keeps u := by
  induction h with
  | nil s => exact .refl s
  | @cons s s₁ u e captures granted hcheck hs ih =>
    have hfirst := keeps_check site e s
    rw [endOf_of_ok (x := check site .capture e) hcheck] at hfirst
    exact hfirst.trans ih

theorem keeps_of_ends {out : Except EvalFailure α} (h : Ends (check site .capture) s granted out (.error f u)) :
    s.Keeps u := by
  cases h with
  | problem p hserves => exact keeps_of_serves hserves
  | @refused s₁ u e f hserves hcheck =>
    have hlast := keeps_check site e s₁
    rw [endOf_of_error (x := check site .capture e) hcheck] at hlast
    exact (keeps_of_serves hserves).trans hlast

/-- In whatever way a place fails, nothing is lost. -/
theorem Fails.keeps (h : Fails link file v f s') : v.session.Keeps s' := by
  cases h with
  | unterminated => exact .refl _
  | unreadable => exact .refl _
  | statement hnext hparts hread hbefore hraises hends => exact (keeps_of_ends hends).withVars _
  | unknownVariable => exact .refl _
  | unknownDirective => exact .refl _
  | command =>
    exact ⟨rfl, rfl, rfl, rfl, rfl, rfl, List.prefix_rfl, List.prefix_rfl, List.prefix_append .., rfl⟩
  | noClient =>
    exact ⟨rfl, rfl, rfl, rfl, rfl, rfl, List.prefix_append .., List.prefix_rfl, List.prefix_rfl, rfl⟩
  | statementWithoutClient => exact (Session.Keeps.refl _).withVars _
  | resultWithoutClient => exact (Session.Keeps.refl _).withVars _

/-- What is expected in a block without a client is nothing, and changes nothing. -/
theorem eq_of_check_without_client {c : Captures} (h : (check site .capture e).run s = .ok c u)
    (hclient : s.activeClient? = none) : u = s := by
  have hchecked : s.checkedClient? e = none := by simp [Session.checkedClient?, hclient]
  obtain ⟨-, hrun⟩ | ⟨-, hrun⟩ | ⟨c', f, hactive, -⟩ := run_check_of_not_checked site .capture hchecked
  · rw [hrun, s.skipped_of_ne_literal (by decide), Session.write_empty] at h
    injection h with _ hs
    exact hs.symm
  · rw [hrun] at h
    injection h
  · rw [hclient] at hactive
    cases hactive

/-- A block that finds itself without a client had none at its beginning, and has done nothing in the session. -/
theorem serves_without_client (h : Serves (check site .capture) s granted u) (hclient : u.activeClient? = none) :
    u = s := by
  -- From the end on: what is without a client behind an expectation was so in front of it.
  induction h with
  | nil s => rfl
  | cons hcheck hs ih =>
    obtain rfl := ih hclient
    exact eq_of_check_without_client hcheck (activeClient?_of_check hcheck hclient)

theorem Session.noClientFault_ne_expression (s : Session σ) (message : String) :
    s.noClientFault ≠ .expression message := by
  intro h
  rw [Session.noClientFault] at h
  cases hactive : s.active with
  | none =>
    rw [hactive] at h
    injection h
  | some name =>
    rw [hactive] at h
    injection h

/-- How an evaluation ends whose expectations are checked: with the fault of an expression, or without a client. -/
theorem ends_error {failure : EvalFailure}
    (h : Ends (check site .capture) s granted (.error failure : Except EvalFailure Value) (.error f s'))
    (hruns : s'.crashed = false) :
    (∃ message, f = .expression message) ∨ s.activeClient? = none ∧ f = s.noClientFault ∧ s' = s := by
  cases h with
  | problem p hserves => exact .inl ⟨p.message, rfl⟩
  | refused hserves hcheck =>
    obtain ⟨hclient, rfl, rfl⟩ | ⟨pattern, message, -, rfl⟩ := check_error hcheck hruns
    · obtain rfl := serves_without_client hserves hclient
      exact .inr ⟨hclient, rfl, rfl⟩
    · exact .inl ⟨message, rfl⟩

/-! ## Blocks -/

theorem evaluate_ok {source : String} {r : Value} (h : (evaluate site source).run s = .ok r u) :
    ∃ env w, (eval (check site .capture) source).run (s.vars, s) = .ok r (env, w) ∧ u = { w with vars := env } := by
  have hrun : (evaluate site source).run s = evaluate site source s := rfl
  rw [hrun, evaluate] at h
  cases heval : eval (check site .capture) source (s.vars, s) with
  | ok r' p =>
    obtain ⟨env, w⟩ := p
    rw [heval] at h
    injection h with hr hu
    obtain rfl := hr
    exact ⟨env, w, heval, hu.symm⟩
  | error f p =>
    obtain ⟨env, w⟩ := p
    rw [heval] at h
    injection h

/-- The fault of an expression is one of the script at the place of its block. All others stay as they are. -/
theorem evaluate_error {source : String} (h : (evaluate site source).run s = .error f u) :
    ∃ f' env w, (eval (check site .capture) source).run (s.vars, s) = .error f' (env, w) ∧ u = { w with vars := env } ∧
      (∀ message, f' = .expression message → f = site.syntaxFault message) ∧
      ((∀ message, f' ≠ .expression message) → f = f') := by
  have hrun : (evaluate site source).run s = evaluate site source s := rfl
  rw [hrun, evaluate] at h
  cases heval : eval (check site .capture) source (s.vars, s) with
  | ok r p =>
    obtain ⟨env, w⟩ := p
    rw [heval] at h
    injection h
  | error f' p =>
    obtain ⟨env, w⟩ := p
    rw [heval] at h
    injection h with hf hu
    refine ⟨f', env, w, heval, hu.symm, ?_, fun hother => ?_⟩
    · rintro message rfl
      exact hf.symm
    · cases f' with
      | expression message => exact absurd rfl (hother message)
      | _ => exact hf.symm

/-- A block that fails can be located, and its statements in front of the failure have been performed. -/
theorem block_fails (hnext : v.next = some t) (hk : t.kind = .expression)
    (h : (block ⟨file, t.place⟩ t).run v.session = .error f s') (hruns : s'.crashed = false) :
    Fails link file v f s' := by
  obtain ⟨source, recorded, hparts⟩ := expressionParts?_of_kind hk
  rw [block_of_some hparts] at h
  obtain h | ⟨r, u, hok, h⟩ := run_bind_eq_error h
  · -- The evaluation has failed: the text is no program, or one of the statements fails.
    obtain ⟨f', env, w, heval, rfl, hexpression, hother⟩ := evaluate_error h
    cases hread : read source with
    | error p =>
      rw [eval_of_error _ hread] at heval
      injection heval with hf' hstate
      obtain ⟨rfl, rfl⟩ := Prod.mk.inj hstate
      rw [hexpression p.message hf'.symm]
      exact .unreadable hnext hparts hread
    | ok ss =>
      obtain ⟨before, stmt, after, granted, granted', failure, rfl, hbefore, hraises, hends⟩ := eval_error _ hread heval
      obtain ⟨message, rfl⟩ | ⟨hclient, rfl, rfl⟩ := ends_error hends hruns
      · rw [hexpression message rfl]
        exact .statement hnext hparts hread hbefore hraises hends
      · rw [hother v.session.noClientFault_ne_expression]
        exact .statementWithoutClient hclient hnext hparts hread hbefore hraises hends
  · -- The program has been carried out, and its result cannot be expected.
    have h := run_error_of_bind h fun _ => (onlyShows_present _).neverFails
    obtain ⟨env, w, heval, rfl⟩ := evaluate_ok hok
    rw [expectResult] at h
    cases hresult : stringResult? r with
    | none =>
      rw [hresult] at h
      injection h
    | some text =>
      rw [hresult] at h
      obtain ⟨hclient, rfl, rfl⟩ := check_literal_error (run_error_of_bind h fun _ => neverFails_pure ()) hruns
      cases hread : read source with
      | error p =>
        rw [eval_of_error _ hread] at heval
        injection heval
      | ok ss =>
        rw [eval_of_ok _ hread] at heval
        obtain ⟨granted, hperforms, hserves⟩ := runStatements_ok heval
        obtain rfl := serves_without_client hserves hclient
        exact .resultWithoutClient hclient hnext hparts hread hperforms hserves

/-! ## Steps -/

theorem fails_without_client (hclient : v.session.activeClient? = none) :
    Fails link file v v.session.noClientFault v.session := by
  have hfails : Fails link file v v.session.noClientFault { v.session with matched := v.session.matched ++ [] } :=
    .noClient hclient []
  rwa [List.append_nil] at hfails

/-- The end of a command line fails as a directive or as a command. -/
theorem finish_fails (hends : v.endsCommand = true) (h : (finish link file v.line).run v.session = .error f s') :
    Fails link file v f s' := by
  cases hline : v.line with
  | none =>
    rw [hline] at h
    injection h
  | some l =>
    rw [hline, finish, execute] at h
    -- a line behind an exclamation mark is a directive, and any other one a command
    by_cases hbang : l.text.trimWhite.toList.head? = some '!'
    · rw [if_pos hbang, EStateM.run_bind, EStateM.run_get] at h
      dsimp only at h
      cases hdirective : directive? l.text.trimWhite.whiteWords v.session with
      | some u =>
        rw [hdirective] at h
        injection h
      | none =>
        rw [hdirective] at h
        obtain ⟨rfl, rfl⟩ := EStateM.Result.error.inj h
        exact .unknownDirective hline hends hbang hdirective
    · rw [if_neg hbang] at h
      cases hclient : v.session.activeClient? with
      | none =>
        rw [sendCommand, EStateM.run_bind, run_activeClient_eq, hclient] at h
        obtain ⟨rfl, rfl⟩ := EStateM.Result.error.inj h
        exact fails_without_client hclient
      | some c =>
        cases hsend : link.send c.name l.text.trimWhite v.session.link with
        | mk answer state =>
          cases answer with
          | ok reply =>
            rw [run_sendCommand_of_ok hclient hsend] at h
            injection h
          | error source =>
            rw [run_sendCommand_of_error hclient hsend] at h
            obtain ⟨rfl, rfl⟩ := EStateM.Result.error.inj h
            exact .command hline hends hclient hsend

theorem expectText_error {text : String} (h : (expectText site line text).run s = .error f s')
    (hruns : s'.crashed = false) : s.activeClient? = none ∧ f = s.noClientFault ∧ s' = s := by
  cases line with
  | none => exact check_literal_error (run_error_of_bind h fun _ => neverFails_pure ()) hruns
  | some l => exact absurd h ((onlyShows_write text).neverFails s f s')

theorem expectValue_error {value : String} (h : (expectValue site line value).run s = .error f s')
    (hruns : s'.crashed = false) : s.activeClient? = none ∧ f = s.noClientFault ∧ s' = s := by
  cases line with
  | none => exact check_literal_error (run_error_of_bind h fun _ => neverFails_pure ()) hruns
  | some l => exact absurd h (neverFails_pure () s f s')

/-- A blank fails where it ends a command line. -/
theorem blank_fails (hnext : v.next = some t) (hk : t.kind = .newline ∨ t.kind = .whitespace)
    (h : (step link file v.line t).run v.session = .error f s') : Fails link file v f s' := by
  have hends : v.endsCommand = t.endsLine := by
    rw [Visit.endsCommand, hnext, Option.all_some, endsCommand_of_blank hk]
  rw [step_of_blank link file hk] at h
  split at h
  next hline =>
    have hfinish := run_error_of_bind h fun _ =>
      (onlyShows_write t.text).neverFails.bind fun _ => neverFails_pure none
    exact finish_fails (hends.trans hline) hfinish
  next =>
    exact absurd h (((onlyShows_write t.text).neverFails.bind fun _ => neverFails_pure _) v.session f s')

/-- Text fails where it opens a block that is not closed, or where it is expected of no client. -/
theorem text_fails (hnext : v.next = some t) (hk : t.kind = .literal ∨ t.kind = .commandMarker ∧ v.line.isSome)
    (h : (step link file v.line t).run v.session = .error f s') (hruns : s'.crashed = false) :
    Fails link file v f s' := by
  rw [step_of_text link file hk] at h
  split at h
  next hopens =>
    obtain ⟨rfl, rfl⟩ := EStateM.Result.error.inj h
    refine .unterminated hnext (hk.resolve_right fun hk => ?_) hopens
    rw [text_of_marker hk.1] at hopens
    exact absurd hopens (by decide +kernel)
  next =>
    have hexpect := run_error_of_bind h fun _ =>
      (onlyShows_dumpMatched false).neverFails.bind fun _ => neverFails_pure _
    obtain ⟨hclient, rfl, rfl⟩ := expectText_error hexpect hruns
    exact fails_without_client hclient

/-- A token fails in one of these ways. -/
theorem step_fails (hnext : v.next = some t) (h : (step link file v.line t).run v.session = .error f s')
    (hruns : s'.crashed = false) : Fails link file v f s' := by
  cases hk : t.kind with
  | newline => exact blank_fails hnext (.inl hk) h
  | whitespace => exact blank_fails hnext (.inr hk) h
  | literal => exact text_fails hnext (.inl hk) h hruns
  | comment =>
    rw [step_of_comment link file hk] at h
    exact absurd h (((onlyShows_write t.text).neverFails.bind fun _ => neverFails_pure _) v.session f s')
  | expression =>
    rw [step_of_expression link file hk] at h
    exact block_fails hnext hk (run_error_of_bind h fun _ => neverFails_pure _) hruns
  | reference =>
    rw [step_of_reference link file hk] at h
    cases hvar : v.session.vars.get? (String.ofList (t.text.toList.drop 1)) with
    | none =>
      rw [EStateM.run_bind, run_resolve_of_none _ hvar] at h
      obtain ⟨rfl, rfl⟩ := EStateM.Result.error.inj h
      exact .unknownVariable hnext hk (text_of_reference hk) hvar
    | some value =>
      let collected : Session σ := { v.session with matched := v.session.matched ++ [value.text] }
      have hcollect : (collect value.text).run v.session = .ok () collected := rfl
      rw [run_bind_ok (run_resolve_of_some _ hvar), run_bind_ok hcollect] at h
      have hexpect := run_error_of_bind h fun _ =>
        (onlyShows_present t.text).neverFails.bind fun _ => neverFails_pure _
      obtain ⟨hclient, rfl, rfl⟩ := expectValue_error hexpect hruns
      exact .noClient hclient [value.text]
  | commandMarker =>
    cases hline : v.line with
    | some l => exact text_fails hnext (.inr ⟨hk, by rw [hline]; rfl⟩) h hruns
    | none =>
      rw [hline, step_of_opening link file hk] at h
      -- What is left of an output cannot be shown, which is a breakdown.
      have hflush := run_error_of_bind h fun _ => (onlyShows_numberLine t.place.line).neverFails.bind fun _ =>
        (onlyShows_write marker).neverFails.bind fun _ => neverFails_pure _
      rw [crashed_of_flushResidual hflush] at hruns
      cases hruns

/-- The end of a script fails as the end of the command line that is open there. -/
theorem conclude_fails (hnext : v.next = none) (h : (conclude link file v.line).run v.session = .error f s')
    (hruns : s'.crashed = false) : Fails link file v f s' := by
  obtain h | ⟨-, u, -, h⟩ := run_bind_eq_error h
  · exact finish_fails (by rw [Visit.endsCommand, hnext]; rfl) h
  · rw [crashed_of_flushResidual h] at hruns
    cases hruns

theorem Visit.Faults.fails (h : v.Faults link file f s') (hruns : s'.crashed = false) : Fails link file v f s' := by
  rw [Visit.Faults] at h
  cases hnext : v.next with
  | some t =>
    rw [hnext] at h
    exact step_fails hnext h hruns
  | none =>
    rw [hnext] at h
    exact conclude_fails hnext h hruns

/-! ## Runs -/

theorem OpenedIn.cons {front : List (Visit σ)} {l : CommandLine} (h : OpenedIn front l) (w : Visit σ) :
    OpenedIn (w :: front) l := by
  obtain ⟨earlier, opening, marker, inside, rfl, hopening⟩ := h
  exact ⟨w :: earlier, opening, marker, inside, rfl, hopening⟩

/-- A line that is open at a place was open from the beginning, or has been opened since. -/
theorem opened_or {ts : List Token} {front : List (Visit σ)} {l : CommandLine}
    (h : visits link file line s ts = front ++ [v]) (hline : v.line = some l) :
    (∃ l₀, line = some l₀ ∧ (∀ w ∈ front, w.endsCommand = false) ∧ l = l₀.add (lineText front)) ∨ OpenedIn front l := by
  -- Over the places in front, with any line open at the first of them.
  induction front generalizing line s ts with
  | nil =>
    have hfirst := visits_getElem?_zero link file line s ts
    rw [h] at hfirst
    obtain rfl : v = ⟨s, line, ts[0]?⟩ := Option.some.inj hfirst
    exact .inl ⟨l, hline, by simp, (l.add_empty).symm⟩
  | cons w front ih =>
    cases ts with
    | nil =>
      have hlength := congrArg List.length h
      simp [visits] at hlength
    | cons t ts =>
      cases hstep : (step link file line t).run s with
      | error f u =>
        rw [visits_cons_error link file hstep] at h
        have hlength := congrArg List.length h
        simp at hlength
      | ok line' u =>
        rw [visits_cons_ok link file hstep] at h
        obtain ⟨rfl, hrest⟩ := List.cons.inj h
        obtain ⟨l₁, rfl, hinside, rfl⟩ | hopened := ih hrest
        · -- The line that is open behind the token is the one in front of it, or that of a marker.
          have hopen := step_line hstep
          cases line with
          | none =>
            rw [openAfter] at hopen
            obtain ⟨hk, rfl⟩ : t.kind = .commandMarker ∧ l₁ = ⟨"", t.place⟩ := by
              split at hopen
              next hk => exact ⟨hk, Option.some.inj hopen⟩
              next => cases hopen
            exact .inr ⟨[], ⟨s, none, some t⟩, t, front, rfl, rfl, rfl, hk, rfl, hinside, String.empty_append⟩
          | some l₀ =>
            rw [openAfter] at hopen
            obtain ⟨hends, rfl⟩ : t.endsCommand = false ∧ l₁ = l₀.add (linePart s.vars t) := by
              split at hopen
              next => cases hopen
              next hends => exact ⟨Bool.eq_false_iff.2 hends, Option.some.inj hopen⟩
            refine .inl ⟨l₀, rfl, List.forall_mem_cons.2 ⟨hends, hinside⟩, ?_⟩
            rw [lineText_cons, CommandLine.add, CommandLine.add, CommandLine.add, String.append_assoc]
            rfl
        · exact .inr (hopened.cons _)

/-- A script that ends with a fault has come to a place where it fails so, and the fault is located there. The tokens in
front of the place have been carried out, and of the session that they leave nothing is lost: it differs from the last
one only in what has been done at the place itself. A command line that is open there was opened by a marker in front of
it. -/
theorem runScript_fails {src : String} (h : (runScript link file src).run s = .error f s')
    (hruns : s'.crashed = false) :
    ∃ front v, scriptVisits link file src s = front ++ [v] ∧
      (runTokens link file none ((tokens src).take front.length)).run s = .ok v.line v.session ∧
      v.next = (tokens src)[front.length]? ∧ (∀ l, v.line = some l → OpenedIn front l) ∧
      Located link file v f ∧ Fails link file v f s' ∧ v.session.Keeps s' := by
  obtain ⟨front, v, hvisits, hrun, hnext, hfaults⟩ := scriptVisits_of_error link file h
  have hfails := hfaults.fails hruns
  refine ⟨front, v, hvisits, hrun, hnext, fun l hline => ?_, hfails.located, hfails, hfails.keeps⟩
  obtain ⟨l₀, hnone, -⟩ | hopened := opened_or hvisits hline
  · cases hnone
  · exact hopened

/-- A pattern that cannot be read, in a block within the second of two command lines: the fault is that of the block,
the command in front has been sent, and the variable of the statement in front has been assigned. -/
theorem runScript_fails_within_line :
    let link : Link Unit := ⟨fun _ _ state => (.ok "", state)⟩
    let s : Session Unit := { active := some "alice", clients := [{ name := "alice" }], link := () }
    let src := ">>> one\n>>> two $\x7bx = 1; expect_regex('(')\x7d$ three\n"
    let f : Fault := .scriptSyntax "a" 2 9 "invalid regex '(': it is no regular expression"
    let u := endOf (runScript link "a" src) s
    resultOf (runScript link "a" src) s = .error f ∧ u.crashed = false ∧ u.sent = [("alice", "one")] ∧
      u.vars.get? "x" = some (.int 1) ∧
      ∃ front v, scriptVisits link "a" src s = front ++ [v] ∧
        (runTokens link "a" none ((tokens src).take front.length)).run s = .ok v.line v.session ∧
        v.next = (tokens src)[front.length]? ∧ (∀ l, v.line = some l → OpenedIn front l) ∧
        Located link "a" v f ∧ Fails link "a" v f u ∧ v.session.Keeps u := by
  intro link s src f u
  have hrun : resultOf (runScript link "a" src) s = .error f ∧ u.crashed = false ∧ u.sent = [("alice", "one")] ∧
      u.vars.get? "x" = some (.int 1) := by decide +kernel
  obtain ⟨hfault, hruns, hsent, hvar⟩ := hrun
  exact ⟨hfault, hruns, hsent, hvar, runScript_fails (run_eq_of_resultOf_error hfault) hruns⟩

end Conformance.Script
