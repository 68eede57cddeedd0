import Conformance.Proofs.Script.Directives
import Conformance.Proofs.Script.Parts
import Conformance.Script.Suite

/-!
# Which clients scripts address

A script addresses the active client, and only a directive makes another one active. As long as none does, every
command and every expectation of a run finds its client, if there is one at all and it is registered
(`runScript_finds`, `runDir_finds`): no fault is that a client is missing.
-/
namespace Conformance.Script

open Text Expr Output

variable {σ α β : Type}

/-! ## Faults about clients -/

/-- A client is not registered, or that is what a command failed of. -/
def MissesClient : Fault → Prop
  | .unknownClient _ => True
  | .command _ _ source => MissesClient source
  | _ => False

/-- What scripts can rely on: the clients that are registered, the one that is active, and what holds of the
connections. -/
structure Roster (σ : Type) where
  names : List String
  active : Option String
  connected : σ → Prop

/-- The session is as the roster says. -/
structure Roster.Holds (r : Roster σ) (s : Session σ) : Prop where
  names_eq : s.clients.map (·.name) = r.names
  active_eq : s.active = r.active
  connected : r.connected s.link

/-- The active client is one of those registered, and all of these can be reached. -/
structure Roster.Sound (r : Roster σ) (link : Link σ) : Prop where
  active_mem : ∀ name, r.active = some name → name ∈ r.names
  reaches : ∀ name ∈ r.names, ∀ command state, r.connected state →
    r.connected (link.send name command state).2 ∧ ∀ f, (link.send name command state).1 = .error f → ¬ MissesClient f

/-- No fault but that no client is active, if none is. -/
def Roster.Excuses (r : Roster σ) (f : Fault) : Prop := ¬ MissesClient f ∧ (f = .noActiveClient → r.active = none)

/-- From this session the action leads to one as the roster says, and a fault that it ends with is none about
clients. -/
def FindsFrom (r : Roster σ) (x : Action σ α) (s : Session σ) : Prop :=
  r.Holds (endOf x s) ∧ ∀ f s', x.run s = .error f s' → r.Excuses f

/-- From any session as the roster says, the action finds its clients. -/
def Finds (r : Roster σ) (x : Action σ α) : Prop := ∀ s, r.Holds s → FindsFrom r x s

variable {link : Link σ} {file : String} {r : Roster σ} {site : Site} {echo : Echo} {e : Expectation} {t : Token}
  {line : Option CommandLine} {s u : Session σ}

theorem Roster.Holds.quiet (h : r.Holds s) (hquiet : s.Quiet u) : r.Holds u where
  names_eq := hquiet.clients ▸ h.names_eq
  active_eq := hquiet.active.trans h.active_eq
  connected := hquiet.link ▸ h.connected

/-- Expectations send nothing. -/
theorem Roster.Holds.expects {log : Log} (h : r.Holds s) (hexpects : Expects link s log u) : r.Holds u where
  names_eq := hexpects.names.trans h.names_eq
  active_eq := hexpects.active.trans h.active_eq
  connected := by
    have hlink := hexpects.link
    rw [hexpects.calls] at hlink
    have hsame : u.link = s.link := hlink
    exact hsame ▸ h.connected

/-- A session that has an active client finds it. -/
theorem Roster.Holds.active_of_none (h : r.Holds s) (hsound : r.Sound link) (hnone : s.activeClient? = none) :
    r.active = none := by
  rw [Session.activeClient?, h.active_eq] at hnone
  cases hactive : r.active with
  | none => rfl
  | some name =>
    have hmem := hsound.active_mem name hactive
    rw [← h.names_eq] at hmem
    obtain ⟨c, hc, hname⟩ := List.mem_map.1 hmem
    have hfound : (s.client? name).isSome := Session.client?_isSome_iff.2 ⟨c, hc, hname⟩
    rw [hactive, Option.bind_some] at hnone
    rw [hnone] at hfound
    cases hfound

/-! ## Actions -/

theorem finds_of_quiet {x : Action σ α} (hquiet : IsQuiet x) (hfault : ∀ s f s', x.run s = .error f s' → r.Excuses f) :
    Finds r x := fun s hs => ⟨hs.quiet (hquiet s), hfault s⟩

theorem NeverFails.finds {x : Action σ α} (hnever : NeverFails x) (hquiet : IsQuiet x) : Finds r x :=
  finds_of_quiet hquiet fun s f s' h => absurd h (hnever s f s')

theorem OnlyShows.finds {x : Action σ α} {a : α} (h : OnlyShows x a) : Finds r x := by
  refine h.neverFails.finds fun s => ?_
  obtain ⟨s', hrun, hshows⟩ := h s
  rw [endOf_of_ok hrun]
  exact hshows.quiet

theorem finds_pure (a : α) : Finds r (pure a : Action σ α) := (neverFails_pure a).finds (isQuiet_pure a)

theorem finds_throw {f : Fault} (hf : r.Excuses f) : Finds r (throw f : Action σ α) := by
  refine finds_of_quiet (isQuiet_throw f) fun s f' s' h => ?_
  obtain ⟨rfl, -⟩ := EStateM.Result.error.inj h
  exact hf

theorem FindsFrom.of_ok {x : Action σ α} {a : α} (hrun : x.run s = .ok a u) (hu : r.Holds u) : FindsFrom r x s := by
  refine ⟨endOf_of_ok hrun ▸ hu, fun f s' h => ?_⟩
  rw [hrun] at h
  cases h

theorem FindsFrom.of_error {x : Action σ α} {f : Fault} (hrun : x.run s = .error f u) (hu : r.Holds u)
    (hf : r.Excuses f) : FindsFrom r x s := by
  refine ⟨endOf_of_error hrun ▸ hu, fun f' s' h => ?_⟩
  rw [hrun] at h
  obtain ⟨rfl, -⟩ := EStateM.Result.error.inj h
  exact hf

theorem FindsFrom.bind_ok {x : Action σ α} {g : α → Action σ β} {a : α} (hrun : x.run s = .ok a u)
    (hg : FindsFrom r (g a) u) : FindsFrom r (x >>= g) s := by
  rw [FindsFrom, endOf_bind_ok hrun, run_bind_ok hrun]
  exact hg

theorem FindsFrom.bind_error {x : Action σ α} {g : α → Action σ β} {f : Fault} (hrun : x.run s = .error f u)
    (hx : FindsFrom r x s) : FindsFrom r (x >>= g) s := by
  obtain ⟨hend, hfault⟩ := hx
  refine ⟨?_, fun f' s' h => ?_⟩
  · rw [endOf_bind_error hrun, ← endOf_of_error hrun]
    exact hend
  · rw [EStateM.run_bind, hrun] at h
    obtain ⟨rfl, rfl⟩ := EStateM.Result.error.inj h
    exact hfault _ _ hrun

theorem FindsFrom.holds {x : Action σ α} {a : α} (h : FindsFrom r x s) (hrun : x.run s = .ok a u) : r.Holds u :=
  endOf_of_ok hrun ▸ h.1

theorem FindsFrom.bind {x : Action σ α} {g : α → Action σ β} (hx : FindsFrom r x s)
    (hg : ∀ a u, x.run s = .ok a u → r.Holds u → FindsFrom r (g a) u) : FindsFrom r (x >>= g) s := by
  cases hrun : x.run s with
  | ok a u => exact .bind_ok hrun (hg a u hrun (hx.holds hrun))
  | error f u => exact .bind_error hrun hx

theorem finds_bind {x : Action σ α} {g : α → Action σ β} (hx : Finds r x) (hg : ∀ a, Finds r (g a)) :
    Finds r (x >>= g) := fun s hs => (hx s hs).bind fun a u _ hu => hg a u hu

theorem composes_finds : Composes fun _ (x : Action σ _) => Finds r x where
  get _ hs := .of_ok rfl hs
  shows := OnlyShows.finds
  bind := finds_bind

/-- The breakdown of the program is no fault about clients. -/
theorem finds_unread (c : Client) : Finds r (unread c : Action σ String) := by
  refine finds_of_quiet (isQuiet_unread c) fun s f s' h => ?_
  rw [unread] at h
  split at h
  · cases h
  · obtain ⟨rfl, -⟩ := EStateM.Result.error.inj h
    exact ⟨id, fun h => by cases h⟩

theorem finds_flushResidual : Finds r (flushResidual : Action σ Unit) := by
  refine finds_of_quiet isQuiet_flushResidual fun s f s' h => ?_
  have hfault : ∀ c : Client, ∀ g : String → Action σ Unit, (∀ residual, NeverFails (g residual)) →
      (unread c >>= g).run { s with pending := none } = .error f s' → r.Excuses f := by
    intro c g hg h
    have hunread := run_error_of_bind h hg
    rw [unread] at hunread
    split at hunread
    · cases hunread
    · obtain ⟨rfl, -⟩ := EStateM.Result.error.inj hunread
      exact ⟨id, fun h => by cases h⟩
  rw [flushResidual, EStateM.run_bind, EStateM.run_get] at h
  dsimp only at h
  split at h
  · cases h
  · rw [EStateM.run_bind, EStateM.run_set] at h
    dsimp only at h
    split at h
    · cases h
    · refine hfault _ _ (fun residual => ?_) h
      split
      · exact neverFails_pure ()
      · split
        · exact (onlyShows_write _).neverFails
        · exact (onlyShows_write _).neverFails

theorem excuses_fault (p : Problem) : r.Excuses p.fault := ⟨id, fun h => by cases h⟩

section Found

variable (hsound : r.Sound link)

include hsound

/-- Where a client is missing, none is active. -/
theorem excuses_noClientFault (hs : r.Holds s) (hnone : s.activeClient? = none) : r.Excuses s.noClientFault := by
  have hactive := hs.active_of_none hsound hnone
  rw [Session.noClientFault, hs.active_eq, hactive]
  exact ⟨id, fun _ => hactive⟩

theorem finds_check (site : Site) (echo : Echo) (e : Expectation) : Finds r (check site echo e : Action σ Captures) := by
  intro s hs
  refine ⟨hs.expects (check_expects link site echo e s), fun f s' h => ?_⟩
  rw [check, EStateM.run_bind, EStateM.run_get] at h
  dsimp only at h
  split at h
  · split at h <;> cases h
  · split at h
    · cases h
    · rw [EStateM.run_bind, run_activeClient_eq] at h
      cases hclient : s.activeClient? with
      | none =>
        rw [hclient] at h
        obtain ⟨rfl, -⟩ := EStateM.Result.error.inj h
        exact excuses_noClientFault hsound hs hclient
      | some c =>
        rw [hclient] at h
        rcases run_bind_eq_error h with h | ⟨_, u, hread, h⟩
        · have hu : r.Holds s := hs
          exact (finds_unread c s hu).2 f s' h
        · obtain h | ⟨_, w, -, h⟩ := run_bind_eq_error h
          · cases h
          · split at h
            · obtain ⟨rfl, -⟩ := EStateM.Result.error.inj h
              exact excuses_fault _
            · exact absurd h (neverFails_record site echo c _ w f s')

/-- Nothing changes for clients while a block asks its expectations. -/
theorem holds_of_serves {granted : List (Expectation × Captures)} (h : Serves (check site .capture) s granted u)
    (hs : r.Holds s) : r.Holds u := by
  induction h with
  | nil s => exact hs
  | @cons s s₁ u e captures granted hcheck _ ih =>
    have hfirst := (finds_check hsound site .capture e s hs).1
    rw [endOf_of_ok (x := check site .capture e) hcheck] at hfirst
    exact ih hfirst

theorem finds_evaluate (site : Site) (source : String) : Finds r (evaluate site source : Action σ Value) := by
  intro s hs
  constructor
  · obtain ⟨log, u, hexpects, ⟨v, hrun, -⟩ | ⟨f, hrun, -⟩⟩ := evaluate_expects link site source s
    · rw [endOf_of_ok hrun]
      exact hs.expects hexpects
    · rw [endOf_of_error hrun]
      exact hs.expects hexpects
  · intro f s' h
    obtain ⟨f', env, w, heval, -, hexpression, hother⟩ := evaluate_error h
    have hexcused : r.Excuses f' := by
      cases hread : read source with
      | error p =>
        rw [eval_of_error _ hread] at heval
        injection heval with hf'
        exact hf' ▸ excuses_fault p
      | ok ss =>
        obtain ⟨_, _, _, _, _, _, -, -, -, hends⟩ := eval_error _ hread heval
        cases hends with
        | problem p => exact excuses_fault p
        | refused hserves hcheck =>
          exact (finds_check hsound site .capture _ _ (holds_of_serves hsound hserves hs)).2 _ _ hcheck
    -- The fault of an expression becomes one of the script.
    by_cases hf' : ∃ message, f' = .expression message
    · obtain ⟨message, rfl⟩ := hf'
      rw [hexpression message rfl]
      exact ⟨id, fun h => by cases h⟩
    · rwa [hother fun message h => hf' ⟨message, h⟩]

/-! ## Command lines -/

theorem finds_sendCommand (command : String) (n : Nat) : Finds r (sendCommand link command n) := by
  intro s hs
  cases hclient : s.activeClient? with
  | none =>
    have hrun : (sendCommand link command n).run s = .error s.noClientFault s := by
      rw [sendCommand, EStateM.run_bind, run_activeClient_eq, hclient]
    exact .of_error hrun hs (excuses_noClientFault hsound hs hclient)
  | some c =>
    obtain ⟨hactive, -⟩ := Session.active_of_activeClient? hclient
    have hmem := hsound.active_mem c.name (hs.active_eq.symm.trans hactive)
    obtain ⟨hstate, hanswer⟩ := hsound.reaches c.name hmem command s.link hs.connected
    cases hsend : link.send c.name command s.link with
    | mk answer state =>
      rw [hsend] at hstate hanswer
      cases answer with
      | ok reply =>
        have hrun : (sendCommand link command n).run s = _ := run_sendCommand_of_ok hclient hsend
        have hnames := (sendCommand_does link command n s).names
        rw [endOf_of_ok hrun] at hnames
        exact .of_ok hrun ⟨hnames.trans hs.names_eq, hs.active_eq, hstate⟩
      | error source =>
        have hrun : (sendCommand link command n).run s = _ := run_sendCommand_of_error hclient hsend
        exact .of_error hrun ⟨hs.names_eq, hs.active_eq, hstate⟩ ⟨hanswer source rfl, fun h => by cases h⟩

/-- A line in which no client is chosen. -/
def Chooses (line : Option CommandLine) : Prop :=
  ∃ l name, line = some l ∧ (Directive.client name).WrittenIn l.text

theorem finds_finish (hline : ¬ Chooses line) : Finds r (finish link file line) := by
  cases line with
  | none => exact finds_pure ()
  | some l =>
    intro s hs
    rw [finish]
    by_cases hbang : l.text.trimWhite.toList.head? = some '!'
    · cases hrun : (execute link file l).run s with
      | ok a u =>
        obtain ⟨d, hwritten, rfl⟩ := (run_execute_eq_ok_iff hbang).1 hrun
        refine .of_ok hrun ?_
        cases d with
        | client name => exact absurd ⟨l, name, rfl, hwritten⟩ hline
        | turn switch on => cases switch <;> exact ⟨hs.names_eq, hs.active_eq, hs.connected⟩
      | error f u =>
        obtain ⟨-, rfl, rfl⟩ := (run_execute_eq_error_iff hbang).1 hrun
        exact .of_error hrun hs ⟨id, fun h => by cases h⟩
    · rw [execute, if_neg hbang]
      exact finds_sendCommand hsound _ _ s hs

theorem finds_conclude (hline : ¬ Chooses line) : Finds r (conclude link file line) :=
  finds_bind (finds_finish hsound hline) fun _ => finds_flushResidual

theorem finds_step (hline : t.endsCommand = true → ¬ Chooses line) : Finds r (step link file line t) := by
  refine composes_finds.step (fun _ _ => finds_check hsound _ _ _) finds_flushResidual (fun _ => ?_) (fun hk => ?_)
    (fun hk hends => ?_) fun _ _ => finds_throw ⟨id, fun h => by cases h⟩
  · exact composes_finds.resolve (finds_throw ⟨id, fun h => by cases h⟩)
  · exact composes_finds.block hk (finds_evaluate hsound _) fun _ => finds_check hsound _ _ _
  · exact finds_finish hsound (hline ((endsCommand_of_blank hk).trans hends))

end Found

/-! ## Runs -/

/-- A directive that chooses a client is carried out at this place. -/
def Visit.ChoosesClient (v : Visit σ) : Prop := v.endsCommand = true ∧ Chooses v.line

variable (link) in
/-- The places that the scripts in these files come to. Each is read when its turn comes. -/
def fileVisits (disk : σ → Files.Disk) : List String → Session σ → List (Visit σ)
  | [], _ => []
  | path :: rest, s =>
    match (disk s.link).readText path with
    | .error _ => []
    | .ok src =>
      scriptVisits link path src s ++
        match (runScript link path src).run s with
        | .ok _ s' => fileVisits disk rest s'
        | .error _ _ => []

variable (link) in
/-- The places that the scripts of a directory come to. -/
def dirVisits (disk : σ → Files.Disk) (dir extension : String) (s : Session σ) : List (Visit σ) :=
  match scriptFiles (disk s.link) dir extension with
  | .error _ => []
  | .ok paths => fileVisits link disk paths s

theorem runScript_finds (hsound : r.Sound link) (hs : r.Holds s) {src : String}
    (hno : ∀ v ∈ scriptVisits link file src s, ¬ v.ChoosesClient) : FindsFrom r (runScript link file src) s := by
  rw [runScript_eq]
  rw [scriptVisits] at hno
  -- from place to place, with any line open at the first of them
  generalize tokens src = ts at hno ⊢
  generalize (none : Option CommandLine) = line at hno ⊢
  induction ts generalizing line s with
  | nil =>
    have hline : ¬ Chooses line := fun h => hno ⟨s, line, none⟩ (List.mem_singleton_self _) ⟨rfl, h⟩
    exact finds_conclude hsound hline s hs
  | cons t ts ih =>
    have hline : t.endsCommand = true → ¬ Chooses line := fun hends h =>
      hno ⟨s, line, some t⟩ List.mem_cons_self ⟨hends, h⟩
    have hfirst : FindsFrom r (step link file line t) s := finds_step hsound hline s hs
    rw [runTokens, bind_assoc]
    refine hfirst.bind fun line' u hrun hu => ih hu line' fun v hv => hno v ?_
    rw [visits_cons_ok link file hrun]
    exact List.mem_cons_of_mem _ hv

theorem runFiles_finds (hsound : r.Sound link) (disk : σ → Files.Disk) (paths : List String) (hs : r.Holds s)
    (hno : ∀ v ∈ fileVisits link disk paths s, ¬ v.ChoosesClient) : FindsFrom r (runFiles link disk paths) s := by
  induction paths generalizing s with
  | nil => exact finds_pure () s hs
  | cons path rest ih =>
    rw [fileVisits] at hno
    rw [runFiles, runFile, bind_assoc]
    refine .bind_ok (EStateM.run_get s) ?_
    cases hread : (disk s.link).readText path with
    | error e => exact (finds_throw ⟨id, fun h => by cases h⟩ s hs).bind fun a u hrun => by cases hrun
    | ok src =>
      rw [hread] at hno
      have hfirst := runScript_finds hsound hs fun v hv => hno v (List.mem_append_left _ hv)
      refine hfirst.bind fun a u hrun hu => ih hu fun v hv => hno v (List.mem_append_right _ ?_)
      rw [hrun]
      exact hv

/-- As long as no script chooses a client, every one of them finds its clients. -/
theorem runDir_finds (hsound : r.Sound link) (disk : σ → Files.Disk) (dir extension : String) (hs : r.Holds s)
    (hno : ∀ v ∈ dirVisits link disk dir extension s, ¬ v.ChoosesClient) :
    FindsFrom r (runDir link disk dir extension) s := by
  rw [dirVisits] at hno
  rw [runDir]
  refine .bind_ok (EStateM.run_get s) ?_
  cases hfiles : scriptFiles (disk s.link) dir extension with
  | error f =>
    refine finds_throw ?_ s hs
    rw [scriptFiles] at hfiles
    split at hfiles
    · cases hfiles
      exact ⟨id, fun h => by cases h⟩
    · cases hfiles
  | ok paths =>
    rw [hfiles] at hno
    exact (runFiles_finds hsound disk paths hs hno).bind fun _ u _ hu => finds_pure paths u hu

end Conformance.Script
