import Conformance.Proofs.Output.Captures
import Conformance.Proofs.Script.Isolation

/-!
# What is matched does not steer a script

Two runs of a script, with different outputs to match, different replies, and expectations enabled in only one of them
or in both, do the same: they send the same commands, end alike, and leave the same variables (`runScript_alike`). The
scripts call no function that expects a text of a pattern, for only these give something back.

There is one way for the runs to part. A pattern of an earlier script may have left a cursor within a character, and
the program breaks down where such an output is read. The comparison gives such a run up, and says that it can happen
only if there was a cursor of this kind when the run began.
-/
namespace Conformance.Script

open Text Expr Output

variable {σ σ₁ σ₂ α β : Type}

/-! ## Runs side by side -/

/-- All outputs can be read. -/
def Session.CursorsValid (s : Session σ) : Prop := ∀ name c, s.client? name = some c → c.output.CursorValid

/-- The program is running, and outputs that could be read when it started still can. -/
structure Runs (s u : Session σ) : Prop where
  running : u.crashed = false
  valid : s.CursorsValid → u.CursorsValid

/-- The program has broken down, because there was an output that could not be read. -/
def BrokeDown (s u : Session σ) : Prop := u.crashed = true ∧ ¬s.CursorsValid

/-- Two runs, each from its own session, that have come to the same point. -/
structure Alongside (s₁ : Session σ₁) (s₂ : Session σ₂) (u₁ : Session σ₁) (u₂ : Session σ₂) : Prop where
  vars : u₁.vars = u₂.vars
  active : u₁.active = u₂.active
  names : u₁.clients.map (·.name) = u₂.clients.map (·.name)
  sent : ∃ calls, u₁.sent = s₁.sent ++ calls ∧ u₂.sent = s₂.sent ++ calls
  runs₁ : Runs s₁ u₁
  runs₂ : Runs s₂ u₂

/-- How the runs are compared. A run is given up when the program breaks down. If they are `served`, there is an active
client that is registered. -/
def course (served : Prop) (s₁ : Session σ₁) (s₂ : Session σ₂) : Likeness (Session σ₁) (Session σ₂) where
  alike u₁ u₂ := Alongside s₁ s₂ u₁ u₂ ∧ (served → u₁.activeClient?.isSome)
  gaveUp₁ _ u₁ := BrokeDown s₁ u₁
  gaveUp₂ _ u₂ := BrokeDown s₂ u₂

variable {s u v : Session σ} {s₁ u₁ v₁ : Session σ₁} {s₂ u₂ v₂ : Session σ₂} {served : Prop} {link : Link σ}
  {log : Log}

/-- Whether there is an active client that is registered depends on the names alone. -/
theorem isSome_activeClient?_iff (s : Session σ) :
    s.activeClient?.isSome ↔ ∃ name, s.active = some name ∧ name ∈ s.clients.map (·.name) := by
  rw [Option.isSome_iff_exists]
  constructor
  · rintro ⟨c, hc⟩
    obtain ⟨hactive, hclient⟩ := Session.active_of_activeClient? hc
    exact ⟨c.name, hactive, List.mem_map_of_mem (List.mem_of_find?_eq_some hclient)⟩
  · rintro ⟨name, hactive, hname⟩
    obtain ⟨c, hc, rfl⟩ := List.mem_map.1 hname
    obtain ⟨d, hd⟩ : ∃ d, s.client? c.name = some d :=
      Option.isSome_iff_exists.1 (Session.client?_isSome_iff.2 ⟨c, hc, rfl⟩)
    exact ⟨d, by rw [Session.activeClient?, hactive, Option.bind_some, hd]⟩

theorem Alongside.isSome_activeClient? (h : Alongside s₁ s₂ u₁ u₂) :
    u₁.activeClient?.isSome ↔ u₂.activeClient?.isSome := by
  rw [isSome_activeClient?_iff, isSome_activeClient?_iff, h.active, h.names]

/-- Outputs that can be read still can if all patterns whose texts were expected are sound. -/
theorem Moves.cursorsValid (h : Moves link u log v)
    (hlog : ∀ entry ∈ log, ∀ p, entry.2 = .expectation (.regex p) → Sound p) (hvalid : u.CursorsValid) :
    v.CursorsValid := by
  intro name c' hc'
  rw [h.client, Option.map_eq_some_iff] at hc'
  obtain ⟨c, hc, rfl⟩ := hc'
  rw [output_foldl_act]
  refine foldl_cursorValid (hvalid name c hc) fun front p back hops hfront => ?_
  -- A pattern comes from an entry of the log.
  have hmem : Output.Op.expect (.regex p) ∈ (actsOf name log).filterMap (·.op?) := by
    rw [hops]
    exact List.mem_append_right _ List.mem_cons_self
  obtain ⟨act, hact, hop⟩ := List.mem_filterMap.1 hmem
  obtain ⟨entry, hentry, rfl⟩ := List.mem_map.1 hact
  refine lands_of_sound (hlog entry (List.mem_filter.1 hentry).1 p ?_) hfront
  cases hkind : entry.2 with
  | command text reply =>
    rw [hkind] at hop
    cases reply <;> simp [Act.op?] at hop
  | expectation e =>
    rw [hkind] at hop
    rw [Output.Op.expect.inj (Option.some.inj hop)]

/-! ## Actions with the same result in any run -/

/-- What an action that neither sends anything nor sets variables makes of a session. -/
structure Keeps (s u v : Session σ) : Prop where
  vars : v.vars = u.vars
  active : v.active = u.active
  names : v.clients.map (·.name) = u.clients.map (·.name)
  sent : v.sent = u.sent
  runs : Runs s v

/-- From any session, the action has this result, unless the program breaks down. -/
def Answers (served : Prop) (s : Session σ) (x : Action σ α) (a : α) : Prop :=
  ∀ u, Runs s u → (served → u.activeClient?.isSome) →
    (∃ v, x.run u = .ok a v ∧ Keeps s u v) ∨ ∃ f v, x.run u = .error f v ∧ BrokeDown s v

theorem Runs.keeps_shows (h : Runs s u) (hshows : u.Shows v) : Keeps s u v := by
  obtain ⟨_, _, _, -, rfl⟩ := hshows
  exact ⟨rfl, rfl, rfl, rfl, h.running, h.valid⟩

theorem Alongside.keeps (h : Alongside s₁ s₂ u₁ u₂) (h₁ : Keeps s₁ u₁ v₁) (h₂ : Keeps s₂ u₂ v₂) :
    Alongside s₁ s₂ v₁ v₂ where
  vars := by rw [h₁.vars, h₂.vars, h.vars]
  active := by rw [h₁.active, h₂.active, h.active]
  names := by rw [h₁.names, h₂.names, h.names]
  sent := by
    rw [h₁.sent, h₂.sent]
    exact h.sent
  runs₁ := h₁.runs
  runs₂ := h₂.runs

theorem Keeps.isSome_activeClient? (h : Keeps s u v) : v.activeClient?.isSome ↔ u.activeClient?.isSome := by
  rw [isSome_activeClient?_iff, isSome_activeClient?_iff, h.active, h.names]

/-- Two actions with the same result act alike. -/
theorem actsAlike_of_answers {x : Action σ₁ α} {y : Action σ₂ α} {a : α} (hx : Answers served s₁ x a)
    (hy : Answers served s₂ y a) : ActsAlike (course served s₁ s₂) x y := by
  rintro u₁ u₂ ⟨halong, hserved⟩
  have hserved₂ : served → u₂.activeClient?.isSome := fun h => halong.isSome_activeClient?.1 (hserved h)
  obtain ⟨v₁, hx, hkeeps₁⟩ | ⟨f, v₁, hx, hbroke⟩ := hx u₁ halong.runs₁ hserved
  · obtain ⟨v₂, hy, hkeeps₂⟩ | ⟨f, v₂, hy, hbroke⟩ := hy u₂ halong.runs₂ hserved₂
    · rw [hx, hy]
      exact EndsAlike.value a (And.intro (halong.keeps hkeeps₁ hkeeps₂)
        fun h => hkeeps₁.isSome_activeClient?.2 (hserved h) : (course served s₁ s₂).alike v₁ v₂)
    · rw [hy]
      exact EndsAlike.gaveUp₂ _ (hbroke : (course served s₁ s₂).gaveUp₂ f v₂)
  · rw [hx]
    exact EndsAlike.gaveUp₁ _ (hbroke : (course served s₁ s₂).gaveUp₁ f v₁)

theorem answers_of_shows {x : Action σ α} {a : α} (h : OnlyShows x a) : Answers served s x a := by
  intro u hruns _
  obtain ⟨v, hrun, hshows⟩ := h u
  exact .inl ⟨v, hrun, hruns.keeps_shows hshows⟩

theorem actsAlike_of_shows {x : Action σ₁ α} {y : Action σ₂ α} {a : α} (hx : OnlyShows x a) (hy : OnlyShows y a) :
    ActsAlike (course served s₁ s₂) x y := actsAlike_of_answers (answers_of_shows hx) (answers_of_shows hy)

/-- What is left of an output is shown, if it can be read. -/
theorem answers_flushResidual : Answers served s flushResidual () := by
  intro u hruns _
  by_cases hreadable : u.Readable
  · obtain ⟨v, hrun, hshows, -⟩ := run_flushResidual hreadable
    exact .inl ⟨v, hrun, hruns.keeps_shows hshows⟩
  · obtain ⟨f, v, hrun, hcrashed⟩ := run_flushResidual_of_not_readable hreadable
    exact .inr ⟨f, v, hrun, hcrashed, fun hvalid => hreadable fun name c _ hc => hruns.valid hvalid name c hc⟩

/-- The outcome of an expectation is recorded, and the captures are given back. -/
theorem record_silent (site : Site) (echo : Echo) (c : Client) {outcome : Outcome}
    (h : ∀ text groups, outcome = .matched text groups → groups = []) (u : Session σ) :
    ∃ v, (record site echo c outcome).run u = .ok [] v ∧ v.vars = u.vars ∧ v.crashed = u.crashed := by
  cases outcome with
  | matched text groups =>
    obtain rfl := h text groups rfl
    cases echo <;> exact ⟨_, rfl, rfl, rfl⟩
  | mismatch expected actual => cases echo <;> exact ⟨_, rfl, rfl, rfl⟩

theorem expectationLog_ne_regex {e : Expectation} (he : ∀ p, e ≠ .regex p) :
    ∀ entry ∈ expectationLog u e, ∀ p, entry.2 ≠ .expectation (.regex p) := by
  intro entry hentry p hact
  obtain ⟨c, -, rfl⟩ := List.mem_map.1 hentry
  exact he p (Act.expectation.inj hact)

/-- An expectation gives nothing back, whether it is met, or fails, or is not checked at all. -/
theorem answers_check (site : Site) (echo : Echo) {e : Expectation} (he : ∀ p, e ≠ .regex p) :
    Answers True s (check site echo e) [] := by
  intro u hruns hserved
  cases hchecked : u.checkedClient? e with
  | none =>
    obtain ⟨-, hrun⟩ | ⟨hnone, -⟩ | ⟨c, f, hactive, hunread, hrun⟩ :=
      run_check_of_not_checked site echo hchecked
    · exact .inl ⟨_, hrun, hruns.keeps_shows (shows_write _ u)⟩
    · have hsome := hserved trivial
      rw [hnone] at hsome
      contradiction
    · refine .inr ⟨f, u.broken, hrun, rfl, fun hvalid => ?_⟩
      have hreadable := State.residual?_isSome_iff.2
        (hruns.valid hvalid c.name c (Session.active_of_activeClient? hactive).2)
      rw [hunread] at hreadable
      contradiction
  | some c =>
    obtain ⟨outcome, houtcome, hsilent⟩ := silent_check c.output he
    let w := u.updateClient c.name fun d => { d with output := (c.output.check e).2 }
    obtain ⟨v, hrun, hvars, hcrashed⟩ := record_silent site echo c hsilent w
    have hcheck : (check site echo e).run u = .ok [] v := by
      rw [run_check_of_checked site echo hchecked, houtcome]
      exact hrun
    let link : Link σ := ⟨fun _ _ state => (.ok "", state)⟩
    have hexpects := check_expects link site echo e u
    rw [endOf_of_ok hcheck] at hexpects
    refine .inl ⟨v, hcheck, hvars, hexpects.active, hexpects.names, ?_, hcrashed.trans hruns.running, fun hvalid => ?_⟩
    · rw [hexpects.sent, hexpects.calls, List.append_nil]
    · refine hexpects.toMoves.cursorsValid (fun entry hentry p hact => ?_) (hruns.valid hvalid)
      exact absurd hact (expectationLog_ne_regex he entry hentry p)

theorem check_alike (site : Site) (echo : Echo) {e : Expectation} (he : ∀ p, e ≠ .regex p) :
    ActsAlike (course True s₁ s₂) (check site echo e) (check site echo e) :=
  actsAlike_of_answers (answers_check site echo he) (answers_check site echo he)

/-! ## Blocks -/

/-- The names of the functions that an expression block calls. -/
def blockCalls (source : String) : List String :=
  match read source with
  | .ok program => program.flatMap Statement.calls
  | .error _ => []

/-- The expression block, if the token is one, calls no function that expects a text of a pattern. -/
def Token.CallsNoPattern (t : Token) : Prop :=
  t.kind = .expression → ∀ parts ∈ t.expressionParts?, ∀ name ∈ blockCalls parts.1,
    name ≠ "expect_regex" ∧ name ≠ "regex"

instance (t : Token) : Decidable t.CallsNoPattern :=
  inferInstanceAs (Decidable (t.kind = .expression → ∀ parts ∈ t.expressionParts?, ∀ name ∈ blockCalls parts.1,
    name ≠ "expect_regex" ∧ name ≠ "regex"))

theorem evaluate_alike (site : Site) {source : String}
    (hcalls : ∀ name ∈ blockCalls source, name ≠ "expect_regex" ∧ name ≠ "regex") :
    ActsAlike (course True s₁ s₂) (evaluate site source) (evaluate site source) := by
  rintro u₁ u₂ ⟨halong, hserved⟩
  have hhost : HostsAlike (course True s₁ s₂) False (check site .capture) (check site .capture) :=
    fun _ he => check_alike site .capture he
  have hends : EndsAlike (course True s₁ s₂).withEnv (Expr.eval (check site .capture) source (u₁.vars, u₁))
      (Expr.eval (check site .capture) source (u₂.vars, u₂)) := by
    refine eval_alike hhost (fun program hread name hname hpattern => ?_) (u₁.vars, u₁) (u₂.vars, u₂)
      ⟨halong.vars, halong, hserved⟩
    have hne : name ≠ "expect_regex" ∧ name ≠ "regex" := hcalls name (by rw [blockCalls, hread]; exact hname)
    exact not_expectsPattern hne.1 hne.2 hpattern
  show EndsAlike _ (evaluate site source u₁) (evaluate site source u₂)
  rw [evaluate, evaluate]
  generalize Expr.eval (check site .capture) source (u₁.vars, u₁) = r₁ at hends
  generalize Expr.eval (check site .capture) source (u₂.vars, u₂) = r₂ at hends
  -- The variables are put back into sessions that are alike.
  have hset : ∀ {vars : Env} {v₁ : Session σ₁} {v₂ : Session σ₂}, (course True s₁ s₂).alike v₁ v₂ →
      (course True s₁ s₂).alike { v₁ with vars } { v₂ with vars } := by
    rintro vars v₁ v₂ ⟨halong, hserved⟩
    exact ⟨⟨rfl, halong.active, halong.names, halong.sent, ⟨halong.runs₁.running, halong.runs₁.valid⟩,
      ⟨halong.runs₂.running, halong.runs₂.valid⟩⟩, hserved⟩
  cases hends with
  | @value p q v h =>
    obtain ⟨vars, v₁⟩ := p
    obtain ⟨vars', v₂⟩ := q
    obtain ⟨hvars, halike⟩ := h
    obtain rfl : vars = vars' := hvars
    exact .value v (hset halike)
  | @fault p q f h =>
    obtain ⟨vars, v₁⟩ := p
    obtain ⟨vars', v₂⟩ := q
    obtain ⟨hvars, halike⟩ := h
    obtain rfl : vars = vars' := hvars
    exact .fault _ (hset halike)
  | @gaveUp₁ f p r h => exact .gaveUp₁ _ h
  | @gaveUp₂ f q r h => exact .gaveUp₂ _ h

theorem expectResult_alike (site : Site) (v : Value) :
    ActsAlike (course True s₁ s₂) (expectResult site v) (expectResult site v) := by
  unfold expectResult
  cases stringResult? v with
  | none => exact actsAlike_pure ()
  | some text => exact (check_alike site .capture (by simp)).bind fun _ => actsAlike_pure ()

theorem block_alike (site : Site) {t : Token} (hk : t.kind = .expression) (hcalls : t.CallsNoPattern) :
    ActsAlike (course True s₁ s₂) (block site t) (block site t) := by
  cases hparts : t.expressionParts? with
  | none =>
    rw [block_of_none hparts, block_of_none hparts]
    exact actsAlike_throw _
  | some parts =>
    obtain ⟨source, recorded⟩ := parts
    rw [block_of_some hparts, block_of_some hparts]
    exact (evaluate_alike site (hcalls hk _ hparts)).bind fun v => (expectResult_alike site v).bind fun _ =>
      actsAlike_of_shows (onlyShows_present _) (onlyShows_present _)

/-! ## Command lines -/

/-- Whether a command was refused. -/
def Act.refused : Act → Bool
  | .command _ none => true
  | _ => false

variable {link₁ : Link σ₁} {link₂ : Link σ₂} {file : String}

/-- A directive says the same in both runs. -/
theorem directive?_alike (halong : Alongside s₁ s₂ u₁ u₂) (words : List String) :
    (directive? words u₁ = none ∧ directive? words u₂ = none) ∨
      ∃ v₁ v₂, directive? words u₁ = some v₁ ∧ directive? words u₂ = some v₂ ∧ Alongside s₁ s₂ v₁ v₂ := by
  obtain ⟨hvars, hactive, hnames, hsent, ⟨hrunning₁, hvalid₁⟩, ⟨hrunning₂, hvalid₂⟩⟩ := halong
  have hswitch : ∀ (word : String) {f₁ : Bool → Session σ₁} {f₂ : Bool → Session σ₂},
      (∀ on, Alongside s₁ s₂ (f₁ on) (f₂ on)) →
      ((switch? word).map f₁ = none ∧ (switch? word).map f₂ = none) ∨
        ∃ v₁ v₂, (switch? word).map f₁ = some v₁ ∧ (switch? word).map f₂ = some v₂ ∧ Alongside s₁ s₂ v₁ v₂ := by
    intro word f₁ f₂ h
    cases switch? word with
    | none => exact .inl ⟨rfl, rfl⟩
    | some on => exact .inr ⟨_, _, rfl, rfl, h on⟩
  unfold directive?
  split
  · exact .inr ⟨_, _, rfl, rfl, hvars, rfl, hnames, hsent, ⟨hrunning₁, hvalid₁⟩, ⟨hrunning₂, hvalid₂⟩⟩
  · exact hswitch _ fun _ => ⟨hvars, hactive, hnames, hsent, ⟨hrunning₁, hvalid₁⟩, ⟨hrunning₂, hvalid₂⟩⟩
  · exact hswitch _ fun _ => ⟨hvars, hactive, hnames, hsent, ⟨hrunning₁, hvalid₁⟩, ⟨hrunning₂, hvalid₂⟩⟩
  · exact hswitch _ fun _ => ⟨hvars, hactive, hnames, hsent, ⟨hrunning₁, hvalid₁⟩, ⟨hrunning₂, hvalid₂⟩⟩
  · exact hswitch _ fun _ => ⟨hvars, hactive, hnames, hsent, ⟨hrunning₁, hvalid₁⟩, ⟨hrunning₂, hvalid₂⟩⟩
  · exact .inl ⟨rfl, rfl⟩

/-- What an answered command makes of a session. -/
theorem run_sendCommand_answered {c : Client} (hclient : u.activeClient? = some c) {command reply : String}
    (hsend : (link.send c.name command u.link).1 = .ok reply) (line : Nat) (hruns : Runs s u) :
    ∃ v, (sendCommand link command line).run u = .ok () v ∧ v.vars = u.vars ∧ v.active = u.active ∧
      v.clients.map (·.name) = u.clients.map (·.name) ∧ v.sent = u.sent ++ [(c.name, command)] ∧ Runs s v := by
  have hrun : (sendCommand link command line).run u = _ := run_sendCommand_of_ok hclient (Prod.ext hsend rfl)
  have hdoes := sendCommand_does link command line u
  rw [endOf_of_ok hrun, hclient] at hdoes
  refine ⟨_, hrun, rfl, rfl, hdoes.names, rfl, hruns.running, fun hvalid => ?_⟩
  refine hdoes.toMoves.cursorsValid (fun entry hentry p hact => ?_) (hruns.valid hvalid)
  obtain rfl := List.mem_singleton.1 hentry
  contradiction

/-- An answered command is sent to the same client in both runs. -/
theorem sendCommand_alike (halong : Alongside s₁ s₂ u₁ u₂) (hclient : u₁.activeClient?.isSome) (command : String)
    (line : Nat) (hanswered₁ : ∀ c, u₁.activeClient? = some c → ∃ reply, (link₁.send c.name command u₁.link).1 = .ok reply)
    (hanswered₂ : ∀ c, u₂.activeClient? = some c → ∃ reply, (link₂.send c.name command u₂.link).1 = .ok reply) :
    EndsAlike (course False s₁ s₂) ((sendCommand link₁ command line).run u₁)
      ((sendCommand link₂ command line).run u₂) := by
  -- The clients are two records of one name, with outputs of their own.
  obtain ⟨c₁, hc₁⟩ := Option.isSome_iff_exists.1 hclient
  obtain ⟨c₂, hc₂⟩ := Option.isSome_iff_exists.1 (halong.isSome_activeClient?.1 hclient)
  have hname : c₁.name = c₂.name := by
    have hactive := halong.active
    rw [(Session.active_of_activeClient? hc₁).1, (Session.active_of_activeClient? hc₂).1] at hactive
    exact Option.some.inj hactive
  obtain ⟨reply₁, hsend₁⟩ := hanswered₁ c₁ hc₁
  obtain ⟨reply₂, hsend₂⟩ := hanswered₂ c₂ hc₂
  obtain ⟨v₁, hrun₁, hvars₁, hactive₁, hnames₁, hsent₁, hruns₁⟩ :=
    run_sendCommand_answered hc₁ hsend₁ line halong.runs₁
  obtain ⟨v₂, hrun₂, hvars₂, hactive₂, hnames₂, hsent₂, hruns₂⟩ :=
    run_sendCommand_answered hc₂ hsend₂ line halong.runs₂
  obtain ⟨calls, hcalls₁, hcalls₂⟩ := halong.sent
  have halong' : Alongside s₁ s₂ v₁ v₂ :=
    ⟨by rw [hvars₁, hvars₂, halong.vars], by rw [hactive₁, hactive₂, halong.active],
      by rw [hnames₁, hnames₂, halong.names],
      ⟨calls ++ [(c₁.name, command)], by rw [hsent₁, hcalls₁, List.append_assoc],
        by rw [hsent₂, hcalls₂, hname, List.append_assoc]⟩, hruns₁, hruns₂⟩
  rw [hrun₁, hrun₂]
  exact EndsAlike.value () (And.intro halong' (fun h => h.elim) : (course False s₁ s₂).alike v₁ v₂)

/-- All commands of the log were answered. -/
def Answered (log : Log) : Prop := ∀ entry ∈ log, entry.2.refused = false

instance (log : Log) : Decidable (Answered log) := inferInstanceAs (Decidable (∀ entry ∈ log, entry.2.refused = false))

theorem Answered.reply {l : CommandLine} (h : Answered (lineLog link u (some l)))
    (hbang : l.text.trimWhite.toList.head? ≠ some '!') {c : Client} (hc : u.activeClient? = some c) :
    ∃ reply, (link.send c.name l.text.trimWhite u.link).1 = .ok reply := by
  rw [lineLog, if_neg hbang, hc] at h
  have hrefused : Act.refused (.command l.text.trimWhite (link.send c.name l.text.trimWhite u.link).1.toOption) = false :=
    h _ List.mem_cons_self
  generalize (link.send c.name l.text.trimWhite u.link).1 = answer at hrefused ⊢
  cases answer with
  | error f => cases hrefused
  | ok reply => exact ⟨reply, rfl⟩

/-- A command line that ends does the same in both runs. -/
theorem finish_alike (halong : Alongside s₁ s₂ u₁ u₂) (hclient : u₁.activeClient?.isSome) {line : Option CommandLine}
    (hanswered₁ : Answered (lineLog link₁ u₁ line)) (hanswered₂ : Answered (lineLog link₂ u₂ line)) :
    EndsAlike (course False s₁ s₂) ((finish link₁ file line).run u₁) ((finish link₂ file line).run u₂) := by
  have hplain : ∀ {v₁ v₂}, Alongside s₁ s₂ v₁ v₂ → (course False s₁ s₂).alike v₁ v₂ := fun h => ⟨h, fun h => h.elim⟩
  cases line with
  | none => exact .value () (hplain halong)
  | some l =>
    rw [finish, finish, execute, execute]
    by_cases hbang : l.text.trimWhite.toList.head? = some '!'
    · rw [if_pos hbang, if_pos hbang, EStateM.run_bind, EStateM.run_bind, EStateM.run_get, EStateM.run_get]
      dsimp only
      obtain ⟨h₁, h₂⟩ | ⟨v₁, v₂, h₁, h₂, halong'⟩ := directive?_alike halong l.text.trimWhite.whiteWords
      · rw [h₁, h₂]
        exact .fault _ (hplain halong)
      · rw [h₁, h₂]
        exact .value () (hplain halong')
    · rw [if_neg hbang, if_neg hbang]
      exact sendCommand_alike halong hclient _ _ (fun _ => hanswered₁.reply hbang) (fun _ => hanswered₂.reply hbang)

/-! ## Steps and runs -/

theorem unserved_of_endsAlike {r₁ : EStateM.Result Fault (Session σ₁) α} {r₂ : EStateM.Result Fault (Session σ₂) α}
    (h : EndsAlike (course True s₁ s₂) r₁ r₂) : EndsAlike (course False s₁ s₂) r₁ r₂ := by
  cases h with
  | value a h => exact .value a ⟨h.1, fun h => h.elim⟩
  | fault f h => exact .fault f ⟨h.1, fun h => h.elim⟩
  | gaveUp₁ _ h => exact .gaveUp₁ _ h
  | gaveUp₂ _ h => exact .gaveUp₂ _ h

theorem expectText_alike (site : Site) (line : Option CommandLine) (text : String) :
    ActsAlike (course True s₁ s₂) (expectText site line text) (expectText site line text) := by
  cases line with
  | none => exact (check_alike site .literal (by simp)).bind fun _ => actsAlike_pure ()
  | some l => exact actsAlike_of_shows (onlyShows_write text) (onlyShows_write text)

theorem expectValue_alike (site : Site) (line : Option CommandLine) (value : String) :
    ActsAlike (course True s₁ s₂) (expectValue site line value) (expectValue site line value) := by
  cases line with
  | none => exact (check_alike site .silent (by simp)).bind fun _ => actsAlike_pure ()
  | some l => exact actsAlike_pure ()

theorem resolve_alike (site : Site) (name : String) :
    ActsAlike (course served s₁ s₂) (resolve site name) (resolve site name) := by
  rintro u₁ u₂ halike
  cases hvar : u₁.vars.get? name with
  | none =>
    rw [run_resolve_of_none site hvar, run_resolve_of_none site (halike.1.vars ▸ hvar)]
    exact .fault _ halike
  | some v =>
    rw [run_resolve_of_some site hvar, run_resolve_of_some site (halike.1.vars ▸ hvar)]
    exact .value _ halike

theorem write_alike (text : String) : ActsAlike (course served s₁ s₂) (write text) (write text) :=
  actsAlike_of_shows (onlyShows_write _) (onlyShows_write _)

/-- A blank does the same in both runs. Only where it ends a line may the active client be gone behind it. -/
theorem step_blank_alike (halong : Alongside s₁ s₂ u₁ u₂) (hclient : u₁.activeClient?.isSome)
    (line : Option CommandLine) {t : Token} (hk : t.kind = .newline ∨ t.kind = .whitespace)
    (hanswered₁ : Answered (tokenLog link₁ file u₁ line t)) (hanswered₂ : Answered (tokenLog link₂ file u₂ line t)) :
    EndsAlike (course False s₁ s₂) ((step link₁ file line t).run u₁) ((step link₂ file line t).run u₂) := by
  rw [step_of_blank link₁ file hk, step_of_blank link₂ file hk]
  by_cases hends : t.endsLine = true
  · rw [tokenLog_of_endsCommand _ _ _ _ ((endsCommand_of_blank hk).trans hends)] at hanswered₁ hanswered₂
    rw [if_pos hends, if_pos hends]
    exact (finish_alike halong hclient hanswered₁ hanswered₂).bind fun _ v₁ v₂ _ _ halike =>
      ((write_alike t.text).bind fun _ => actsAlike_pure none) v₁ v₂ halike
  · rw [if_neg hends, if_neg hends]
    exact unserved_of_endsAlike
      (((write_alike t.text).bind fun _ => actsAlike_pure _) u₁ u₂ ⟨halong, fun _ => hclient⟩)

theorem step_text_alike {line : Option CommandLine} {t : Token}
    (hk : t.kind = .literal ∨ t.kind = .commandMarker ∧ line.isSome) :
    ActsAlike (course True s₁ s₂) (step link₁ file line t) (step link₂ file line t) := by
  rw [step_of_text link₁ file hk, step_of_text link₂ file hk]
  have hdump : ActsAlike (course True s₁ s₂) (dumpMatched false) (dumpMatched false) :=
    actsAlike_of_shows (onlyShows_dumpMatched _) (onlyShows_dumpMatched _)
  split
  · exact actsAlike_throw _
  · exact (expectText_alike _ line _).bind fun _ => hdump.bind fun _ => actsAlike_pure _

theorem step_reference_alike {t : Token} (hk : t.kind = .reference) (line : Option CommandLine) :
    ActsAlike (course True s₁ s₂) (step link₁ file line t) (step link₂ file line t) := by
  rw [step_of_reference link₁ file hk, step_of_reference link₂ file hk]
  have hcollect : ∀ value, ActsAlike (course True s₁ s₂) (collect value) (collect value) := fun value =>
    actsAlike_of_shows (onlyShows_collect value) (onlyShows_collect value)
  have hpresent : ActsAlike (course True s₁ s₂) (present t.text) (present t.text) :=
    actsAlike_of_shows (onlyShows_present _) (onlyShows_present _)
  exact (resolve_alike _ _).bind fun value => (hcollect value).bind fun _ =>
    (expectValue_alike _ line value).bind fun _ => hpresent.bind fun _ => actsAlike_pure _

theorem step_opening_alike {t : Token} (hk : t.kind = .commandMarker) :
    ActsAlike (course True s₁ s₂) (step link₁ file none t) (step link₂ file none t) := by
  rw [step_of_opening link₁ file hk, step_of_opening link₂ file hk]
  have hflush : ActsAlike (course True s₁ s₂) flushResidual flushResidual :=
    actsAlike_of_answers answers_flushResidual answers_flushResidual
  have hnumber : ActsAlike (course True s₁ s₂) (numberLine t.place.line) (numberLine t.place.line) :=
    actsAlike_of_shows (onlyShows_numberLine _) (onlyShows_numberLine _)
  exact hflush.bind fun _ => hnumber.bind fun _ => (write_alike _).bind fun _ => actsAlike_pure _

/-- A token does the same in both runs. -/
theorem step_alike (halong : Alongside s₁ s₂ u₁ u₂) (hclient : u₁.activeClient?.isSome) (line : Option CommandLine)
    {t : Token} (hcalls : t.CallsNoPattern) (hanswered₁ : Answered (tokenLog link₁ file u₁ line t))
    (hanswered₂ : Answered (tokenLog link₂ file u₂ line t)) :
    EndsAlike (course False s₁ s₂) ((step link₁ file line t).run u₁) ((step link₂ file line t).run u₂) := by
  have hserved : ActsAlike (course True s₁ s₂) (step link₁ file line t) (step link₂ file line t) →
      EndsAlike (course False s₁ s₂) ((step link₁ file line t).run u₁) ((step link₂ file line t).run u₂) := fun h =>
    unserved_of_endsAlike (h u₁ u₂ ⟨halong, fun _ => hclient⟩)
  cases hk : t.kind with
  | newline => exact step_blank_alike halong hclient line (.inl hk) hanswered₁ hanswered₂
  | whitespace => exact step_blank_alike halong hclient line (.inr hk) hanswered₁ hanswered₂
  | literal => exact hserved (step_text_alike (.inl hk))
  | expression =>
    refine hserved ?_
    rw [step_of_expression link₁ file hk, step_of_expression link₂ file hk]
    exact (block_alike _ hk hcalls).bind fun _ => actsAlike_pure line
  | comment =>
    refine hserved ?_
    rw [step_of_comment link₁ file hk, step_of_comment link₂ file hk]
    exact (write_alike _).bind fun _ => actsAlike_pure line
  | reference => exact hserved (step_reference_alike hk line)
  | commandMarker =>
    cases line with
    | some l => exact hserved (step_text_alike (.inr ⟨hk, rfl⟩))
    | none => exact hserved (step_opening_alike hk)

/-- The rest of a script does the same in both runs. -/
theorem runTokens_alike {ts : List Token} (hcalls : ∀ t ∈ ts, t.CallsNoPattern) (line : Option CommandLine)
    (halong : Alongside s₁ s₂ u₁ u₂)
    (hclient : ∀ v ∈ visits link₁ file line u₁ ts, v.session.activeClient?.isSome)
    (hanswered₁ : Answered ((visits link₁ file line u₁ ts).flatMap (Visit.log link₁ file)))
    (hanswered₂ : Answered ((visits link₂ file line u₂ ts).flatMap (Visit.log link₂ file))) :
    EndsAlike (course False s₁ s₂) ((runTokens link₁ file line ts >>= conclude link₁ file).run u₁)
      ((runTokens link₂ file line ts >>= conclude link₂ file).run u₂) := by
  -- Over the tokens; the runs are at the same place with the same line open, since a step gives back the line.
  induction ts generalizing line u₁ u₂ with
  | nil =>
    have hflush : ActsAlike (course False s₁ s₂) flushResidual flushResidual :=
      actsAlike_of_answers answers_flushResidual answers_flushResidual
    rw [visits, List.flatMap_cons, List.flatMap_nil, List.append_nil] at hanswered₁ hanswered₂
    show EndsAlike _ ((conclude link₁ file line).run u₁) ((conclude link₂ file line).run u₂)
    rw [conclude, conclude]
    exact (finish_alike halong (hclient _ List.mem_cons_self) hanswered₁ hanswered₂).bind fun _ v₁ v₂ _ _ halike =>
      hflush v₁ v₂ halike
  | cons t ts ih =>
    obtain ⟨ht, hts⟩ := List.forall_mem_cons.1 hcalls
    have hstep : EndsAlike (course False s₁ s₂) ((step link₁ file line t).run u₁) ((step link₂ file line t).run u₂) := by
      refine step_alike halong (hclient ⟨u₁, line, some t⟩ ?_) line ht (fun entry hentry => hanswered₁ entry ?_)
        (fun entry hentry => hanswered₂ entry ?_)
      · rw [visits]
        exact List.mem_cons_self
      · rw [visits, List.flatMap_cons]
        exact List.mem_append_left _ hentry
      · rw [visits, List.flatMap_cons]
        exact List.mem_append_left _ hentry
    rw [runTokens, runTokens, bind_assoc, bind_assoc]
    refine hstep.bind fun line' v₁ v₂ h₁ h₂ halike => ?_
    rw [visits_cons_ok link₁ file h₁] at hclient hanswered₁
    rw [visits_cons_ok link₂ file h₂] at hanswered₂
    refine ih hts line' halike.1 (fun v hv => hclient v (List.mem_cons_of_mem _ hv)) (fun entry hentry => ?_)
      (fun entry hentry => ?_)
    · refine hanswered₁ entry ?_
      rw [List.flatMap_cons]
      exact List.mem_append_right _ hentry
    · refine hanswered₂ entry ?_
      rw [List.flatMap_cons]
      exact List.mem_append_right _ hentry

/-- Runs that end alike end with the same, unless the program breaks down. -/
theorem same_of_endsAlike {x : Action σ₁ α} {y : Action σ₂ α}
    (h : EndsAlike (course False s₁ s₂) (x.run s₁) (y.run s₂)) (h₁ : (endOf x s₁).crashed = false)
    (h₂ : (endOf y s₂).crashed = false) :
    resultOf x s₁ = resultOf y s₂ ∧ Alongside s₁ s₂ (endOf x s₁) (endOf y s₂) := by
  rw [endOf] at h₁ h₂
  rw [resultOf, resultOf, endOf, endOf]
  generalize x.run s₁ = r₁ at h h₁
  generalize y.run s₂ = r₂ at h h₂
  cases h with
  | value a h => exact ⟨rfl, h.1⟩
  | fault f h => exact ⟨rfl, h.1⟩
  | gaveUp₁ _ h =>
    have hcrashed := h.1.symm.trans h₁
    contradiction
  | gaveUp₂ _ h =>
    have hcrashed := h.1.symm.trans h₂
    contradiction

/-- The program does not break down if all outputs can be read at first. -/
theorem running_of_endsAlike {x : Action σ α} (h : EndsAlike (course False s s) (x.run s) (x.run s))
    (hvalid : s.CursorsValid) : (endOf x s).crashed = false := by
  rw [endOf]
  generalize x.run s = r at h
  cases h with
  | value a h => exact h.1.runs₁.running
  | fault f h => exact h.1.runs₁.running
  | gaveUp₁ _ h => exact absurd hvalid h.2
  | gaveUp₂ _ h => exact absurd hvalid h.2

/-- A script whose expressions expect no texts of patterns does the same from any two sessions with the same variables,
the same active client and clients of the same names, whatever their outputs, their switches and the replies are, as
long as all commands are answered and there is an active client throughout: unless the program breaks down, the
same commands are sent, the runs end with the same result or the same fault, and they leave the same variables and the
same active client. The program does not break down if all outputs can be read when the script begins. -/
theorem runScript_alike (link₁ : Link σ₁) (link₂ : Link σ₂) (file src : String) (s₁ : Session σ₁) (s₂ : Session σ₂)
    (hvars : s₁.vars = s₂.vars) (hactive : s₁.active = s₂.active)
    (hnames : s₁.clients.map (·.name) = s₂.clients.map (·.name))
    (hrunning₁ : s₁.crashed = false) (hrunning₂ : s₂.crashed = false) (hcalls : ∀ t ∈ tokens src, t.CallsNoPattern)
    (hanswered₁ : Answered (scriptLog link₁ file src s₁)) (hanswered₂ : Answered (scriptLog link₂ file src s₂))
    (hclient₁ : ∀ v ∈ scriptVisits link₁ file src s₁, v.session.activeClient?.isSome)
    (hclient₂ : ∀ v ∈ scriptVisits link₂ file src s₂, v.session.activeClient?.isSome) :
    let u₁ := endOf (runScript link₁ file src) s₁
    let u₂ := endOf (runScript link₂ file src) s₂
    (u₁.crashed = false → u₂.crashed = false →
      resultOf (runScript link₁ file src) s₁ = resultOf (runScript link₂ file src) s₂ ∧
      u₁.vars = u₂.vars ∧ u₁.active = u₂.active ∧
      ∃ calls, u₁.sent = s₁.sent ++ calls ∧ u₁.link = link₁.sendAll s₁.link calls ∧
        u₂.sent = s₂.sent ++ calls ∧ u₂.link = link₂.sendAll s₂.link calls) ∧
    (s₁.CursorsValid → u₁.crashed = false) ∧ (s₂.CursorsValid → u₂.crashed = false) := by
  intro u₁ u₂
  have hstart : ∀ {τ₁ τ₂ : Type} {t₁ : Session τ₁} {t₂ : Session τ₂}, t₁.vars = t₂.vars → t₁.active = t₂.active →
      t₁.clients.map (·.name) = t₂.clients.map (·.name) → t₁.crashed = false → t₂.crashed = false →
      Alongside t₁ t₂ t₁ t₂ := fun hvars hactive hnames h₁ h₂ =>
    ⟨hvars, hactive, hnames, ⟨[], (List.append_nil _).symm, (List.append_nil _).symm⟩, ⟨h₁, id⟩, ⟨h₂, id⟩⟩
  refine ⟨fun h₁ h₂ => ?_, fun hvalid => ?_, fun hvalid => ?_⟩
  · have hends := runTokens_alike hcalls none (hstart hvars hactive hnames hrunning₁ hrunning₂) hclient₁ hanswered₁ hanswered₂
    rw [← runScript_eq, ← runScript_eq] at hends
    obtain ⟨hresult, halong⟩ := same_of_endsAlike hends h₁ h₂
    obtain ⟨calls, hsent₁, hsent₂⟩ := halong.sent
    have hmoves₁ := runScript_moves link₁ file src s₁
    have hmoves₂ := runScript_moves link₂ file src s₂
    have hcalls₁ : calls = callsOf (scriptLog link₁ file src s₁) := List.append_cancel_left (hsent₁.symm.trans hmoves₁.sent)
    have hcalls₂ : calls = callsOf (scriptLog link₂ file src s₂) := List.append_cancel_left (hsent₂.symm.trans hmoves₂.sent)
    exact ⟨hresult, halong.vars, halong.active, calls, hsent₁, hcalls₁ ▸ hmoves₁.link, hsent₂, hcalls₂ ▸ hmoves₂.link⟩
  -- A run beside itself is given up only if it breaks down.
  · have hends := runTokens_alike hcalls none (hstart rfl rfl rfl hrunning₁ hrunning₁) hclient₁ hanswered₁ hanswered₁
    rw [← runScript_eq] at hends
    exact running_of_endsAlike hends hvalid
  · have hends := runTokens_alike hcalls none (hstart rfl rfl rfl hrunning₂ hrunning₂) hclient₂ hanswered₂ hanswered₂
    rw [← runScript_eq] at hends
    exact running_of_endsAlike hends hvalid

theorem Session.cursorsValid_of_forall (h : ∀ c ∈ s.clients, c.output.residual?.isSome) : s.CursorsValid :=
  fun _ c hc => State.residual?_isSome_iff.1 (h c (List.mem_of_find?_eq_some hc))

/-- With another reply, and an older output half read, an expectation fails and the script does the same. -/
theorem runScript_alike_other_reply :
    let link₁ : Link Unit := ⟨fun _ _ state => (.ok "yo", state)⟩
    let link₂ : Link Unit := ⟨fun _ _ state => (.ok "oh", state)⟩
    let s₁ : Session Unit := { active := some "alice", clients := [{ name := "alice" }], link := () }
    let s₂ : Session Unit :=
      { active := some "alice", clients := [{ name := "alice", output := { buffer := "old", cursor := 1 } }], link := () }
    let src := ">>> hi\n$\x7b expect_str(\"yo\") \x7d$\n>>> go\n"
    let u₁ := endOf (runScript link₁ "a.btstest" src) s₁
    let u₂ := endOf (runScript link₂ "a.btstest" src) s₂
    u₁.failures = [] ∧ u₂.failures.length = 1 ∧
      resultOf (runScript link₁ "a.btstest" src) s₁ = resultOf (runScript link₂ "a.btstest" src) s₂ ∧
      u₁.vars = u₂.vars ∧ u₁.active = u₂.active ∧ u₁.sent = u₂.sent := by
  intro link₁ link₂ s₁ s₂ src u₁ u₂
  obtain ⟨hsame, hrunning₁, hrunning₂⟩ := runScript_alike link₁ link₂ "a.btstest" src s₁ s₂ rfl rfl rfl rfl rfl
    (by decide +kernel) (by decide +kernel) (by decide +kernel) (by decide +kernel) (by decide +kernel)
  obtain ⟨hresult, hvars, hactive, calls, hsent₁, -, hsent₂, -⟩ :=
    hsame (hrunning₁ (Session.cursorsValid_of_forall (by decide +kernel)))
      (hrunning₂ (Session.cursorsValid_of_forall (by decide +kernel)))
  exact ⟨by decide +kernel, by decide +kernel, hresult, hvars, hactive, hsent₁.trans hsent₂.symm⟩

/-- A script can leave a cursor within a character. The next expectation then breaks the program down; from the session
with another output in its place it does not, and the script ends without a fault. -/
theorem runs_part_at_broken_cursor :
    let link : Link Unit := ⟨fun _ _ state => (.ok "éb", state)⟩
    let start : Session Unit := { active := some "alice", clients := [{ name := "alice" }], link := () }
    let s (output : Output.State) : Session Unit :=
      { active := some "alice", clients := [{ name := "alice", output, lastCommand := some "say" }], link := () }
    let s₁ := s { buffer := "éb", cursor := 1 }
    let s₂ := s { buffer := "éb" }
    (endOf (runScript link "01.btstest" ">>> say\n>>> !expect enable\n$\x7b regex(\"x)|(?:b\") \x7d$\n") start).clients =
        s₁.clients ∧
      (∀ t ∈ tokens "word\n", t.CallsNoPattern) ∧
      Answered (scriptLog link "02.btstest" "word\n" s₁) ∧ Answered (scriptLog link "02.btstest" "word\n" s₂) ∧
      (∀ v ∈ scriptVisits link "02.btstest" "word\n" s₁, v.session.activeClient?.isSome) ∧
      (∀ v ∈ scriptVisits link "02.btstest" "word\n" s₂, v.session.activeClient?.isSome) ∧
      (endOf (runScript link "02.btstest" "word\n") s₁).crashed = true ∧
      resultOf (runScript link "02.btstest" "word\n") s₁ ≠ resultOf (runScript link "02.btstest" "word\n") s₂ ∧
      resultOf (runScript link "02.btstest" "word\n") s₂ = .ok () := by
  decide +kernel

end Conformance.Script
