import Conformance.Proofs.Script.Moves

/-!
# What actions show

An action of a script adds text to the transcript, and it may add to the texts that have been matched, which are shown
behind the block or the reference that they belong to (`Prints`). An expectation shows or collects its result
(`check_prints`). A block collects what is matched for it and nothing else (`evaluate_prints`), so what is shown behind
it can be read off its log (`block_prints`). The output that a command leaves unread is shown when it is flushed
(`flushResidual_eq_ok`), and a command makes its client the one whose output is flushed next (`finish_eq_ok`).
-/
namespace Conformance.Script

open Text Expr Output

variable {σ α β : Type}

/-! ## Texts -/

/-- How a mismatch is shown. -/
def mismatchText (expected actual : String) : String := "!\x7b " ++ expected ++ " \x7d!~\x7b " ++ actual ++ " \x7d~"

/-- How matched texts are shown. -/
def matchedText (shown : Bool) (texts : List String) : String :=
  if shown then "~\x7b" ++ String.join texts ++ "\x7d~" else ""

/-- The texts that are matched in the output of the active client by what a log says. -/
def Session.matchedBy (s : Session σ) (log : Log) : List String :=
  match s.activeClient? with
  | some c => (c.output.outcomes (opsOf c.name log)).filterMap matched?
  | none => []

/-- What is unread of the output of a client. -/
def Session.left? (s : Session σ) (name : Option String) : Option String :=
  (name.bind s.client?).bind (·.output.residual?)

/-- How unread output is shown, unless it is blank. -/
def Session.leftText (s : Session σ) (left : Option String) : String :=
  match left with
  | none => ""
  | some text =>
    if text.trimWhite = "" then ""
    else if s.expectEnabled && s.showMatch then "!\x7b \x7d!~\x7b " ++ text.trimWhite ++ " \x7d~\n"
    else text

/-- How the result of an expectation is shown. -/
def Echo.shows : Echo → Except Problem Outcome → String
  | .literal, .ok (.matched text _) => text
  | .literal, .ok (.mismatch expected actual) => mismatchText expected actual
  | _, _ => ""

/-- What is collected of the result of an expectation. -/
def Echo.collects : Echo → Except Problem Outcome → List String
  | .capture, result => (matched? result).toList
  | _, _ => []

/-- What an expectation shows. -/
def Session.shown (s : Session σ) (echo : Echo) (e : Expectation) : String :=
  match s.checkedClient? e with
  | some c => echo.shows (c.output.check e).1
  | none => s.skipped echo e

/-- What is collected of an expectation. -/
def Session.collected (s : Session σ) (echo : Echo) (e : Expectation) : List String :=
  match s.checkedClient? e with
  | some c => echo.collects (c.output.check e).1
  | none => []

/-- The second session is behind an action that has added the text to the transcript, and the other texts to what has
been matched. -/
structure Prints (s : Session σ) (text : String) (texts : List String) (s' : Session σ) : Prop where
  transcript : s'.transcript = s.transcript ++ text
  matched : s'.matched = s.matched ++ texts
  pending : s'.pending = s.pending
  expectEnabled : s'.expectEnabled = s.expectEnabled
  showMatch : s'.showMatch = s.showMatch

variable {link : Link σ} {file : String} {s s' u v : Session σ} {text text' : String} {texts texts' : List String}

theorem Prints.refl (s : Session σ) : Prints s "" [] s :=
  ⟨String.append_empty.symm, (List.append_nil _).symm, rfl, rfl, rfl⟩

theorem Prints.trans (h : Prints s text texts u) (h' : Prints u text' texts' v) :
    Prints s (text ++ text') (texts ++ texts') v where
  transcript := by rw [h'.transcript, h.transcript, String.append_assoc]
  matched := by rw [h'.matched, h.matched, List.append_assoc]
  pending := h'.pending.trans h.pending
  expectEnabled := h'.expectEnabled.trans h.expectEnabled
  showMatch := h'.showMatch.trans h.showMatch

theorem prints_write (text : String) (s : Session σ) : Prints s text [] (s.write text) :=
  ⟨rfl, (List.append_nil _).symm, rfl, rfl, rfl⟩

/-! ## Expectations -/

theorem record_prints (site : Site) (echo : Echo) (c : Client) (outcome : Outcome) (s : Session σ) :
    Prints s (echo.shows (.ok outcome)) (echo.collects (.ok outcome)) (endOf (record site echo c outcome) s) := by
  cases outcome with
  | matched text groups =>
    cases echo with
    | literal => exact prints_write text s
    | capture => exact ⟨String.append_empty.symm, rfl, rfl, rfl, rfl⟩
    | silent => exact .refl s
  | mismatch expected actual =>
    cases echo with
    | literal => exact ⟨rfl, (List.append_nil _).symm, rfl, rfl, rfl⟩
    | capture => exact ⟨String.append_empty.symm, (List.append_nil _).symm, rfl, rfl, rfl⟩
    | silent => exact ⟨String.append_empty.symm, (List.append_nil _).symm, rfl, rfl, rfl⟩

/-- What a check shows is the result of its expectation, if it is checked. -/
theorem check_prints (site : Site) (echo : Echo) (e : Expectation) (s : Session σ) :
    Prints s (s.shown echo e) (s.collected echo e) (endOf (check site echo e) s) := by
  rw [Session.shown, Session.collected]
  cases hchecked : s.checkedClient? e with
  | some c =>
    dsimp only
    rw [endOf, run_check_of_checked site echo hchecked]
    cases hresult : (c.output.check e).1 with
    | error p => cases echo <;> exact ⟨String.append_empty.symm, (List.append_nil _).symm, rfl, rfl, rfl⟩
    | ok outcome =>
      -- The output of the client is moved on first, which shows nothing.
      have hrecord := record_prints site echo c outcome
        (s.updateClient c.name fun d => { d with output := (c.output.check e).2 })
      exact ⟨hrecord.transcript, hrecord.matched, hrecord.pending, hrecord.expectEnabled, hrecord.showMatch⟩
  | none =>
    dsimp only
    by_cases henabled : s.expectEnabled = true
    · have hnothing : Prints s (s.skipped echo e) [] s := by
        rw [s.skipped_of_enabled henabled]
        exact .refl s
      obtain ⟨-, hrun⟩ | ⟨-, hrun⟩ | ⟨c, f, -, -, hrun⟩ := run_check_of_not_checked site echo hchecked
      · rw [endOf_of_ok hrun]
        exact prints_write _ s
      · rw [endOf_of_error hrun]
        exact hnothing
      · rw [endOf_of_error hrun]
        exact ⟨hnothing.transcript, hnothing.matched, rfl, rfl, rfl⟩
    · rw [endOf_of_ok (run_check_disabled site echo e henabled)]
      exact prints_write _ s

/-- Only literals are shown where they are expected. -/
theorem Session.shown_of_ne_literal {echo : Echo} (h : echo ≠ .literal) (s : Session σ) (e : Expectation) :
    s.shown echo e = "" := by
  rw [Session.shown, s.skipped_of_ne_literal h]
  cases s.checkedClient? e <;> cases echo <;> first | rfl | contradiction

/-- What is collected is what the log of the expectation says to be matched. -/
theorem collected_capture (s : Session σ) (e : Expectation) :
    s.collected .capture e = s.matchedBy (expectationLog s e) := by
  rw [expectationLog, Session.collected]
  cases hchecked : s.checkedClient? e with
  | none =>
    rw [Session.matchedBy]
    cases s.activeClient? <;> rfl
  | some c =>
    have hactive : s.activeClient? = some c := by
      rw [Session.checkedClient?, Option.ite_none_right_eq_some, Option.filter_eq_some_iff] at hchecked
      exact hchecked.2.1
    have hops : opsOf c.name [(c.name, Act.expectation e)] = [.expect e] := by
      rw [opsOf, actsOf_singleton_self]
      rfl
    show (matched? (c.output.check e).1).toList = s.matchedBy [(c.name, .expectation e)]
    rw [Session.matchedBy, hactive]
    dsimp only
    rw [hops, State.outcomes, State.outcomes, List.filterMap_cons]
    cases matched? (c.output.check e).1 <;> rfl

theorem check_literal_result (output : Output.State) (text : String) :
    ∃ outcome, (output.check (.literal text)).1 = .ok outcome ∧
      (outcome = .matched text [] ∨ ∃ actual, outcome = .mismatch text actual) := by
  refine ⟨(output.matchLiteral text).1, rfl, ?_⟩
  rw [State.matchLiteral]
  split
  · exact .inl rfl
  · exact .inr ⟨_, rfl⟩

/-- Text that is expected is shown as it is, unless it fails. -/
theorem check_literal_prints {site : Site} {captures : Captures}
    (h : (check site .literal (.literal text)).run s = .ok captures u) :
    (u.failures = s.failures ∧ Prints s text [] u) ∨
      ∃ f, u.failures = s.failures ++ [f] ∧ Prints s (mismatchText f.expected f.actual) [] u := by
  have hprints := check_prints site .literal (.literal text) s
  rw [endOf_of_ok h, Session.shown, Session.collected] at hprints
  cases hchecked : s.checkedClient? (.literal text) with
  | some c =>
    rw [hchecked] at hprints
    dsimp only at hprints
    rw [run_check_of_checked site .literal hchecked] at h
    let w := s.updateClient c.name fun d => { d with output := (c.output.check (.literal text)).2 }
    have hfailures : w.failures = s.failures := rfl
    obtain ⟨outcome, hresult, rfl | ⟨actual, rfl⟩⟩ := check_literal_result c.output text
    · rw [hresult] at h hprints
      have hrecord : (record site .literal c (.matched text [])).run w = .ok captures u := h
      clear_value w
      injection hrecord with _ hu
      obtain rfl := hu
      exact .inl ⟨hfailures, hprints⟩
    · rw [hresult] at h hprints
      have hrecord : (record site .literal c (.mismatch text actual)).run w = .ok captures u := h
      clear_value w
      injection hrecord with _ hu
      obtain rfl := hu
      rw [← hfailures]
      exact .inr ⟨_, rfl, hprints⟩
  | none =>
    rw [hchecked] at hprints
    obtain ⟨hempty, hrun⟩ | ⟨-, hrun⟩ | ⟨c, f, -, -, hrun⟩ := run_check_of_not_checked site .literal hchecked
    · -- Either expectations are disabled, or the text is empty; it is shown in both cases.
      have htext : s.skipped .literal (.literal text) = text := by
        by_cases henabled : s.expectEnabled = true
        · rw [s.skipped_of_enabled henabled]
          exact (Expectation.literal.inj (hempty henabled)).symm
        · exact if_neg henabled
      rw [hrun] at h
      injection h with _ h
      rw [htext] at hprints
      exact .inl ⟨by rw [← h]; rfl, hprints⟩
    · rw [hrun] at h
      injection h
    · rw [hrun] at h
      injection h

/-- Text that is expected may fail outside a command line; inside, it is only shown. -/
theorem expectText_prints {site : Site} {line : Option CommandLine} (h : (expectText site line text).run s = .ok () u) :
    (u.failures = s.failures ∧ Prints s text [] u) ∨
      (line = none ∧ ∃ f, u.failures = s.failures ++ [f] ∧ Prints s (mismatchText f.expected f.actual) [] u) := by
  cases line with
  | some l =>
    injection h with _ h
    obtain rfl := h
    exact .inl ⟨rfl, prints_write text s⟩
  | none =>
    obtain ⟨captures, w, hcheck, hpure⟩ :=
      run_bind_eq_ok (h : (check site .literal (.literal text) >>= fun _ => pure () : Action σ Unit).run s = .ok () u)
    injection hpure with _ hpure
    obtain rfl := hpure
    exact (check_literal_prints hcheck).imp id fun hfails => ⟨rfl, hfails⟩

/-! ## References and blocks -/

/-- The value of a reference is expected without being shown. -/
theorem expectValue_prints {site : Site} {line : Option CommandLine} {value : String}
    (h : (expectValue site line value).run s = .ok () u) : Prints s "" [] u := by
  cases line with
  | some l =>
    injection h with _ h
    obtain rfl := h
    exact .refl s
  | none =>
    obtain ⟨captures, w, hcheck, hpure⟩ :=
      run_bind_eq_ok (h : (check site .silent (.literal value) >>= fun _ => pure () : Action σ Unit).run s = .ok () u)
    injection hpure with _ hpure
    obtain rfl := hpure
    have hprints := check_prints site .silent (.literal value) s
    have hcollected : s.collected .silent (.literal value) = [] := by
      rw [Session.collected]
      cases s.checkedClient? (.literal value) <;> rfl
    rwa [endOf_of_ok hcheck, s.shown_of_ne_literal (by simp), hcollected] at hprints

/-- A token that stands for other text is shown with all that has been matched for it. -/
theorem present_prints (hmatched : s.matched = []) (h : Prints s "" texts u) (hrun : (present text).run u = .ok () v) :
    Prints s (text ++ matchedText s.showMatch texts) [] v := by
  -- Whether matched texts are shown is read behind the token; no text can be matched in between.
  have hpresent : (present text).run u =
      .ok () { (u.write text).write (matchedText u.showMatch u.matched) with matched := [] } := by
    have hrun : (present text).run u = (dumpMatched u.showMatch).run (u.write text) := rfl
    rw [hrun]
    cases u.showMatch with
    | true => rfl
    | false =>
      rw [matchedText, if_neg Bool.false_ne_true, Session.write_empty]
      rfl
  rw [hpresent] at hrun
  injection hrun with _ hrun
  have htexts : u.matched = texts := by rw [h.matched, hmatched, List.nil_append]
  obtain rfl := hrun
  refine ⟨?_, by rw [hmatched]; rfl, h.pending, h.expectEnabled, h.showMatch⟩
  show u.transcript ++ text ++ matchedText u.showMatch u.matched = _
  rw [h.transcript, h.showMatch, htexts, String.append_empty, String.append_assoc]

/-- What is matched first, and what is matched then. -/
theorem Expects.matchedBy_append {log : Log} (h : Expects link s log u) (log' : Log) :
    s.matchedBy (log ++ log') = s.matchedBy log ++ u.matchedBy log' := by
  -- The same client is active, with the output that the first log leaves.
  have hactive : u.activeClient? = s.activeClient?.map fun c => (actsOf c.name log).foldl Client.act c := by
    rw [Session.activeClient?, Session.activeClient?, h.active]
    cases s.active with
    | none => rfl
    | some name =>
      rw [Option.bind_some, Option.bind_some, h.client name]
      cases hc : s.client? name with
      | none => rfl
      | some c =>
        rw [Option.map_some, Option.map_some, Session.client?_name hc]
  rw [Session.matchedBy, Session.matchedBy, Session.matchedBy, hactive]
  cases hc : s.activeClient? with
  | none => rfl
  | some c =>
    dsimp only [Option.map_some]
    have hname : ((actsOf c.name log).foldl Client.act c).name = c.name := by
      have hu := (Session.active_of_activeClient? (hactive.trans (congrArg _ hc))).1
      rw [h.active, (Session.active_of_activeClient? hc).1] at hu
      exact (Option.some.inj hu).symm
    rw [hname, opsOf_append, outcomes_append, List.filterMap_append, output_foldl_act]
    rfl

/-- What an action has matched by what its log says, it has collected without showing anything. -/
def Collects (link : Link σ) (s : Session σ) (log : Log) (s' : Session σ) : Prop :=
  Expects link s log s' ∧ Prints s "" (s.matchedBy log) s'

theorem collects_refl (link : Link σ) (s : Session σ) : Collects link s [] s := by
  refine ⟨(Session.Quiet.refl s).expects link, ?_⟩
  rw [Session.matchedBy]
  cases s.activeClient? <;> exact .refl s

theorem Collects.check {log : Log} (h : Collects link s log u) (site : Site) (e : Expectation) :
    Collects link s (log ++ expectationLog u e) (endOf (check site .capture e) u) := by
  refine ⟨h.1.trans (check_expects link site .capture e u), ?_⟩
  have hcheck := h.2.trans (check_prints site .capture e u)
  rwa [u.shown_of_ne_literal (by simp), collected_capture, ← h.1.matchedBy_append] at hcheck

/-- The program of a block shows nothing, and what it matches is collected. -/
theorem evaluate_collects (link : Link σ) (site : Site) (source : String) (s : Session σ) :
    ∃ log u, Collects link s log u ∧
      ((∃ v, (evaluate site source).run s = .ok v u ∧
          blockLog site source s = log ++ resultLog u v) ∨
        ∃ f, (evaluate site source).run s = .error f u ∧ blockLog site source s = log) :=
  evaluate_logged (fun _ _ e h => h.check site e)
    (fun _ _ _ h => ⟨h.1.quiet ⟨rfl, rfl, rfl, rfl, rfl, rfl⟩, h.2.transcript, h.2.matched, h.2.pending,
      h.2.expectEnabled, h.2.showMatch⟩)
    source (collects_refl link s)

/-- The result of a block is collected if it is met. -/
theorem Collects.result {log : Log} {site : Site} {v : Value} (h : Collects link s log u)
    (hrun : (expectResult site v).run u = .ok () s') : Collects link s (log ++ resultLog u v) s' := by
  rw [expectResult] at hrun
  rw [resultLog]
  cases hresult : stringResult? v with
  | none =>
    rw [hresult] at hrun
    injection hrun with _ hrun
    obtain rfl := hrun
    exact (List.append_nil log).symm ▸ h
  | some text =>
    rw [hresult] at hrun
    obtain ⟨captures, w, hcheck, hrun⟩ := run_bind_eq_ok hrun
    injection hrun with _ hrun
    obtain rfl := hrun
    have hchecked := h.check site (.literal text)
    rwa [endOf_of_ok hcheck] at hchecked

/-- A block is shown as its program, with all that is matched for it. -/
theorem block_prints {site : Site} {t : Token} (hmatched : s.matched = []) (h : (block site t).run s = .ok () u) :
    ∃ source recorded, t.expressionParts? = some (source, recorded) ∧
      Prints s ("$\x7b" ++ source ++ "\x7d$" ++ matchedText s.showMatch (s.matchedBy (blockLog site source s)))
        [] u := by
  cases hparts : t.expressionParts? with
  | none =>
    rw [block_of_none hparts] at h
    injection h
  | some parts =>
    obtain ⟨source, recorded⟩ := parts
    refine ⟨source, recorded, rfl, ?_⟩
    -- An expectation sends nothing, so any link will do.
    let link : Link σ := ⟨fun _ _ state => (.ok "", state)⟩
    obtain ⟨v, w, hevaluate, h⟩ := run_bind_eq_ok (block_of_some hparts ▸ h)
    obtain ⟨_, w', hresult, hpresent⟩ := run_bind_eq_ok h
    obtain ⟨log, w₁, hcollects, ⟨v₁, hrun, hlog⟩ | ⟨f, hrun, -⟩⟩ := evaluate_collects link site source s
    · rw [hevaluate] at hrun
      obtain ⟨rfl, rfl⟩ : v = v₁ ∧ w = w₁ := by
        injection hrun with hv hw
        exact ⟨hv, hw⟩
      rw [hlog]
      exact present_prints hmatched (hcollects.result hresult).2 hpresent
    · rw [hevaluate] at hrun
      injection hrun

/-! ## Commands and what they leave -/

/-- Where nothing is left to show, or it can be shown, it is shown once. -/
theorem flushResidual_eq_ok (h : flushResidual.run s = .ok () u) :
    u = ({ s with pending := none } : Session σ).write (s.leftText (s.left? s.pending)) := by
  unfold flushResidual at h
  rw [EStateM.run_bind, EStateM.run_get] at h
  dsimp only at h
  cases hpending : s.pending with
  | none =>
    rw [hpending] at h
    injection h with _ h
    have hsame : ({ s with pending := none } : Session σ) = s := by rw [← hpending]
    rw [← h, hsame]
    exact s.write_empty.symm
  | some name =>
    rw [hpending] at h
    dsimp only at h
    rw [EStateM.run_bind, EStateM.run_set] at h
    dsimp only at h
    rw [Session.left?, Option.bind_some]
    cases hclient : s.client? name with
    | none =>
      rw [hclient] at h
      injection h with _ h
      rw [← h]
      exact (Session.write_empty _).symm
    | some c =>
      rw [hclient] at h
      obtain ⟨residual, w, hunread, h⟩ := run_bind_eq_ok h
      rw [Option.bind_some]
      rw [unread] at hunread
      cases hresidual : c.output.residual? with
      | none =>
        -- The program would have broken down here.
        rw [hresidual] at hunread
        injection hunread
      | some text =>
        rw [hresidual] at hunread
        injection hunread with htext hw
        obtain rfl := htext
        obtain rfl := hw
        dsimp only [Session.leftText] at h ⊢
        split at h
        · injection h with _ h
          rw [← h, if_pos ‹_›]
          exact (Session.write_empty _).symm
        · rw [if_neg ‹_›]
          split at h
          · rw [if_pos ‹_›]
            injection h with _ h
            exact h.symm
          · rw [if_neg ‹_›]
            injection h with _ h
            exact h.symm

/-- The command is the one that its client has answered last. -/
def Session.HasAnswered (s : Session σ) (call : String × String) : Prop :=
  ∃ c, s.client? call.1 = some c ∧ c.lastCommand = some call.2

theorem Session.HasAnswered.congr {call : String × String} (h : s.HasAnswered call) (hclients : u.clients = s.clients) :
    u.HasAnswered call := by
  rw [Session.HasAnswered, Session.client?, hclients]
  exact h

theorem lastCommand_foldl_act {acts : List Act} (h : ∀ act ∈ acts, act.command? = none) (c : Client) :
    (acts.foldl Client.act c).lastCommand = c.lastCommand := by
  induction acts generalizing c with
  | nil => rfl
  | cons act acts ih =>
    rw [List.foldl_cons, ih fun a ha => h a (List.mem_cons_of_mem _ ha)]
    cases act with
    | command text reply =>
      have hcommand := h _ List.mem_cons_self
      contradiction
    | expectation e => rfl

/-- Where nothing is sent, a client has answered the same command last. -/
theorem Moves.hasAnswered {log : Log} {call : String × String} (h : Moves link s log u) (hcalls : callsOf log = [])
    (hs : s.HasAnswered call) : u.HasAnswered call := by
  obtain ⟨c, hc, hcommand⟩ := hs
  refine ⟨_, (h.client call.1).trans (congrArg _ hc), ?_⟩
  rw [← hcommand]
  refine lastCommand_foldl_act (fun act hact => ?_) c
  obtain ⟨entry, hentry, rfl⟩ := List.mem_map.1 hact
  simpa using List.filterMap_eq_nil_iff.1 hcalls entry (List.mem_of_mem_filter hentry)

/-- What the end of a line leaves: nothing is shown, and if a command is sent, its client is the one whose output is
flushed next. -/
structure Closes (s : Session σ) (log : Log) (s' : Session σ) : Prop where
  transcript : s'.transcript = s.transcript
  matched : s'.matched = s.matched
  pending : s'.pending = ((callsOf log).head?.map (·.1)).or s.pending
  answered : ∀ call ∈ callsOf log, s'.HasAnswered call

/-- A command that is sent is answered. -/
theorem sendCommand_closes {command : String} {line : Nat} (h : (sendCommand link command line).run s = .ok () u) :
    Closes s
      (s.activeClient?.toList.map fun c => (c.name, .command command (link.send c.name command s.link).1.toOption))
      u := by
  cases hc : s.activeClient? with
  | none =>
    rw [sendCommand, EStateM.run_bind, run_activeClient_eq, hc] at h
    injection h
  | some c =>
    obtain ⟨-, hclient⟩ := Session.active_of_activeClient? hc
    cases hsend : link.send c.name command s.link with
    | mk answer state =>
      cases answer with
      | error f =>
        rw [run_sendCommand_of_error hc hsend] at h
        injection h
      | ok reply =>
        rw [run_sendCommand_of_ok hc hsend] at h
        injection h with _ h
        obtain rfl := h
        refine ⟨rfl, rfl, rfl, fun call hcall => ?_⟩
        obtain rfl := List.mem_singleton.1 hcall
        exact ⟨_, Session.client?_updateClient (f := fun c =>
          { c with output := c.output.reset reply, lastCommand := some command }) hclient fun _ h => h, rfl⟩

/-- The end of a line shows nothing. -/
theorem finish_closes {line : Option CommandLine} (h : (finish link file line).run s = .ok () u) :
    Closes s (lineLog link s line) u := by
  cases line with
  | none =>
    injection h with _ h
    obtain rfl := h
    exact ⟨rfl, rfl, rfl, fun _ hcall => absurd hcall List.not_mem_nil⟩
  | some l =>
    have h : (execute link file l).run s = .ok () u := h
    unfold lineLog
    unfold execute at h
    dsimp only at h ⊢
    split at h
    · rename_i hbang
      rw [if_pos hbang]
      rw [EStateM.run_bind, EStateM.run_get] at h
      dsimp only at h
      split at h
      · -- A directive only turns switches, and changes the client that is active.
        rename_i w hdirective
        obtain ⟨_, _, _, _, rfl⟩ := directive?_same hdirective
        injection h with _ h
        obtain rfl := h
        exact ⟨rfl, rfl, rfl, fun _ hcall => absurd hcall List.not_mem_nil⟩
      · injection h
    · rename_i hbang
      rw [if_neg hbang]
      exact sendCommand_closes h

/-- The number of a line is shown if lines are numbered. -/
theorem run_numberLine (n : Nat) (s : Session σ) :
    (numberLine n).run s = .ok () (s.write (if s.showLineNumbers then s!"L{n}: " else "")) := by
  rw [numberLine, EStateM.run_bind, EStateM.run_get]
  dsimp only
  split
  · rfl
  · rw [s.write_empty]
    rfl

end Conformance.Script
