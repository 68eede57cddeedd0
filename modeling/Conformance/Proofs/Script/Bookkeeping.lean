import Mathlib.Data.List.Nodup
import Conformance.Proofs.Script.Moves

/-!
# The records of failures agree

A mismatch is recorded twice: the output of the client counts it, and the session lists it. Both records are brought
up to date in different places, and neither is read to make the other. Over any history of registrations and scripts
they agree with each other and with the mismatches that the outputs have produced (`failures_agree`).
-/
namespace Conformance.Script

open Text Expr Output

variable {σ : Type} {s s' u : Session σ} {log log' : Log}

/-- A history of the first session, which leads to the second: clients are registered under new names, scripts are
run to whatever end, and anything but clients and failures is set from outside. The log is what the scripts do. -/
inductive Evolves (s : Session σ) : Log → Session σ → Prop where
  | refl : Evolves s [] s
  | enlist {log : Log} {u : Session σ} (h : Evolves s log u) (name : String) (hnew : u.client? name = none) :
      Evolves s log (u.register { name })
  | script {log : Log} {u : Session σ} (h : Evolves s log u) (link : Link σ) (file src : String) :
      Evolves s (log ++ scriptLog link file src u) (endOf (runScript link file src) u)
  | adjust {log : Log} {u : Session σ} (h : Evolves s log u) {v : Session σ} (hclients : v.clients = u.clients)
      (hfailures : v.failures = u.failures) : Evolves s log v

/-- What is counted of each client, and the failures that are listed. -/
def Session.counts (s : Session σ) : List (String × Nat) × List Failure :=
  (s.clients.map fun c => (c.name, c.output.failureCount), s.failures)

/-! ## The invariant -/

/-- The clients and the failures are those that the log makes of clients that were new. -/
structure Recorded (s : Session σ) (log : Log) : Prop where
  nodup : (s.clients.map (·.name)).Nodup
  known : ∀ entry ∈ log, (s.client? entry.1).isSome
  output : ∀ name c, s.client? name = some c → c.output = Output.run (opsOf name log)
  clients : ∀ f ∈ s.failures, (s.client? f.client).isSome
  failures : ∀ name c, s.client? name = some c →
    (s.failures.filter (·.client = name)).map (fun f => (f.expected, f.actual)) =
      Output.State.new.mismatches (opsOf name log)

theorem recorded_nil (hclients : s.clients = []) (hfailures : s.failures = []) : Recorded s [] where
  nodup := by simp [hclients]
  known := by simp
  output name c hc := by simp [Session.client?, hclients] at hc
  clients := by simp [hfailures]
  failures name c hc := by simp [Session.client?, hclients] at hc

theorem Recorded.congr (h : Recorded s log) (hclients : u.clients = s.clients) (hfailures : u.failures = s.failures) :
    Recorded u log := by
  have hclient : ∀ name, u.client? name = s.client? name := fun name => by
    rw [Session.client?, Session.client?, hclients]
  constructor
  · rw [hclients]
    exact h.nodup
  · simpa only [hclient] using h.known
  · simpa only [hclient] using h.output
  · simpa only [hclient, hfailures] using h.clients
  · simpa only [hclient, hfailures] using h.failures

/-- Nothing has been done with a client that is new. -/
theorem Recorded.register {name : String} (h : Recorded s log) (hnew : s.client? name = none) :
    Recorded (s.register { name }) log := by
  -- The log and the failures are those of clients that have been registered before.
  have hne : ∀ {other : String}, (s.client? other).isSome → other ≠ name := by
    rintro other hother rfl
    rw [hnew] at hother
    contradiction
  have hold : ∀ other, other ≠ name → (s.register { name }).client? other = s.client? other := fun _ hother =>
    Session.client?_register_of_ne s hother
  have hops : opsOf name log = [] := by
    rw [opsOf, actsOf_eq_nil fun entry hentry => hne (h.known entry hentry)]
    rfl
  constructor
  · rw [Session.register_of_new hnew, List.map_append, List.nodup_append]
    refine ⟨h.nodup, by simp, ?_⟩
    simpa [Session.client?] using hnew
  · intro entry hentry
    rw [hold _ (hne (h.known entry hentry))]
    exact h.known entry hentry
  · intro other c hc
    by_cases hother : other = name
    · obtain rfl := hother
      obtain rfl : { name := other } = c := Option.some.inj ((Session.client?_register_self s other).symm.trans hc)
      rw [hops]
      rfl
    · rw [hold other hother] at hc
      exact h.output other c hc
  · intro f hf
    rw [hold _ (hne (h.clients f hf))]
    exact h.clients f hf
  · intro other c hc
    by_cases hother : other = name
    · obtain rfl := hother
      have hnone : s.failures.filter (·.client = other) = [] :=
        List.filter_eq_nil_iff.2 fun f hf => by simpa using hne (h.clients f hf)
      rw [show (s.register { name := other }).failures = s.failures from rfl, hnone, hops]
      rfl
    · rw [hold other hother] at hc
      exact h.failures other c hc

/-- What is done with the clients is recorded. -/
theorem Recorded.moves {link : Link σ} (h : Recorded s log) (hmoves : Moves link s log' u) :
    Recorded u (log ++ log') := by
  -- moves change clients and make none
  have hbefore : ∀ name c', u.client? name = some c' →
      ∃ c, s.client? name = some c ∧ c.output = Output.run (opsOf name log) ∧
        c' = (actsOf name log').foldl Client.act c := by
    intro name c' hc'
    rw [hmoves.client, Option.map_eq_some_iff] at hc'
    obtain ⟨c, hc, rfl⟩ := hc'
    exact ⟨c, hc, h.output name c hc, rfl⟩
  obtain ⟨added, hfailures, hclients, hmismatches⟩ := hmoves.failures
  constructor
  · rw [hmoves.names]
    exact h.nodup
  · intro entry hentry
    rw [hmoves.isSome_client?]
    rcases List.mem_append.1 hentry with hentry | hentry
    · exact h.known entry hentry
    · exact hmoves.known entry hentry
  · intro name c' hc'
    obtain ⟨c, -, hc, rfl⟩ := hbefore name c' hc'
    rw [output_foldl_act, hc, opsOf_append, Output.run, Output.run, List.foldl_append]
    rfl
  · intro f hf
    rw [hmoves.isSome_client?]
    rw [hfailures] at hf
    rcases List.mem_append.1 hf with hf | hf
    · exact h.clients f hf
    · exact hclients f hf
  · intro name c' hc'
    obtain ⟨c, hclient, hc, -⟩ := hbefore name c' hc'
    rw [hfailures, List.filter_append, List.map_append, h.failures name c hclient, hmismatches name c hclient, hc,
      opsOf_append, mismatches_append]
    rfl

/-- The records agree over every history. -/
theorem Evolves.recorded (h : Evolves s log u) (hclients : s.clients = []) (hfailures : s.failures = []) :
    Recorded u log := by
  induction h with
  | refl => exact recorded_nil hclients hfailures
  | enlist _ name hnew ih => exact ih.register hnew
  | script _ link file src ih => exact ih.moves (runScript_moves link file src _)
  | adjust _ hclients hfailures ih => exact ih.congr hclients hfailures

/-! ## Counting -/

/-- Failures are counted name by name. -/
theorem foldl_filter_length {names : List String} (hnodup : names.Nodup) {failures : List Failure}
    (h : ∀ f ∈ failures, f.client ∈ names) (n : Nat) :
    (names.map fun name => (failures.filter (·.client = name)).length).foldl Nat.add n = n + failures.length := by
  induction names generalizing failures n with
  | nil =>
    obtain rfl : failures = [] := List.eq_nil_iff_forall_not_mem.2 fun f hf => List.not_mem_nil (h f hf)
    rfl
  | cons name names ih =>
    obtain ⟨hname, hnodup⟩ := List.nodup_cons.1 hnodup
    let others := failures.filter fun f => !decide (f.client = name)
    have hothers : ∀ f ∈ others, f.client ∈ names := by
      intro f hf
      obtain ⟨hf, hne⟩ := List.mem_filter.1 hf
      exact List.mem_of_ne_of_mem (by simpa using hne) (h f hf)
    -- The failures of the names behind are among those of other clients.
    have hrest : (names.map fun name => (failures.filter (·.client = name)).length) =
        names.map fun name => (others.filter (·.client = name)).length := by
      refine List.map_congr_left fun other hother => congrArg List.length ?_
      rw [List.filter_filter]
      refine List.filter_congr fun f _ => ?_
      by_cases hf : f.client = other
      · have hne : ¬ f.client = name := fun heq => hname (heq ▸ hf ▸ hother)
        simp [hf, hf ▸ hne]
      · simp [hf]
    have hsplit := List.length_eq_length_filter_add (l := failures) (fun f => decide (f.client = name))
    rw [List.map_cons, List.foldl_cons, hrest, ih hnodup hothers]
    have hlength : (failures.filter fun f => decide (f.client = name)).length + others.length = failures.length :=
      hsplit.symm
    rw [← hlength, Nat.add_eq, Nat.add_assoc]

theorem Session.client?_of_mem (h : (s.clients.map (·.name)).Nodup) {c : Client} (hc : c ∈ s.clients) :
    s.client? c.name = some c := by
  obtain ⟨d, hd⟩ : ∃ d, s.client? c.name = some d := Option.isSome_iff_exists.1 (Session.client?_isSome_iff.2 ⟨c, hc, rfl⟩)
  obtain rfl : d = c := List.inj_on_of_nodup_map h (List.mem_of_find?_eq_some hd) hc (Session.client?_name hd)
  exact hd

/-- The count of each client is that of the mismatches of its output, and that of its failures. -/
theorem Recorded.failureCount (h : Recorded s log) {c : Client} (hc : c ∈ s.clients) :
    c.output.failureCount = (State.new.mismatches (opsOf c.name log)).length ∧
      c.output.failureCount = (s.failures.filter (·.client = c.name)).length := by
  have hclient := Session.client?_of_mem h.nodup hc
  have hcount : c.output.failureCount = (State.new.mismatches (opsOf c.name log)).length := by
    rw [h.output c.name c hclient, Output.run, failureCount_foldl]
    exact Nat.zero_add _
  refine ⟨hcount, ?_⟩
  rw [hcount, ← h.failures c.name c hclient, List.length_map]

theorem Recorded.failureCount_eq (h : Recorded s log) : s.failureCount = s.failures.length := by
  have hcounts : s.clients.map (·.output.failureCount) =
      (s.clients.map (·.name)).map fun name => (s.failures.filter (·.client = name)).length := by
    rw [List.map_map]
    exact List.map_congr_left fun c hc => (h.failureCount hc).2
  have hclients : ∀ f ∈ s.failures, f.client ∈ s.clients.map (·.name) := by
    intro f hf
    obtain ⟨c, hc⟩ := Option.isSome_iff_exists.1 (h.clients f hf)
    exact List.mem_map.2 ⟨c, List.mem_of_find?_eq_some hc, Session.client?_name hc⟩
  rw [Session.failureCount, hcounts, foldl_filter_length h.nodup hclients, Nat.zero_add]

/-! ## What is not counted -/

theorem counts_eq_map (h : (s.clients.map (·.name)).Nodup) :
    s.clients.map (fun c => (c.name, c.output.failureCount)) =
      (s.clients.map (·.name)).map fun name => (name, ((s.client? name).map (·.output.failureCount)).getD 0) := by
  rw [List.map_map]
  refine List.map_congr_left fun c hc => ?_
  rw [Function.comp, Session.client?_of_mem h hc]
  rfl

/-- Where no failure is added, nothing is counted. -/
theorem Moves.counts {link : Link σ} (hmoves : Moves link s log u) (h : (s.clients.map (·.name)).Nodup)
    (hfailures : u.failures = s.failures) : u.counts = s.counts := by
  obtain ⟨added, hadded, -, hmismatches⟩ := hmoves.failures
  obtain rfl : added = [] := List.self_eq_append_right.1 (hfailures ▸ hadded)
  have hcount : ∀ name, (u.client? name).map (·.output.failureCount) = (s.client? name).map (·.output.failureCount) := by
    intro name
    rw [hmoves.client name, Option.map_map]
    refine Option.map_congr fun c hc => ?_
    have hnone := hmismatches name c hc
    rw [Function.comp, output_foldl_act, failureCount_foldl]
    rw [opsOf] at hnone
    rw [← hnone]
    rfl
  have hnodup : (u.clients.map (·.name)).Nodup := by rwa [hmoves.names]
  refine Prod.ext ?_ hfailures
  show u.clients.map _ = s.clients.map _
  simp only [counts_eq_map hnodup, counts_eq_map h, hmoves.names, hcount]

/-- The reply to a command resets an output, but not its count. -/
theorem counts_sendCommand (h : (s.clients.map (·.name)).Nodup) (link : Link σ) (command : String) (line : Nat) :
    (endOf (sendCommand link command line) s).counts = s.counts := by
  refine (sendCommand_does link command line s).counts h ?_
  cases hc : s.activeClient? with
  | none => rw [sendCommand, endOf_bind, run_activeClient_eq, hc]
  | some c =>
    cases hsend : link.send c.name command s.link with
    | mk answer state =>
      cases answer with
      | error f =>
        rw [endOf_of_error (run_sendCommand_of_error hc hsend)]
        rfl
      | ok reply =>
        rw [endOf_of_ok (run_sendCommand_of_ok hc hsend)]
        rfl

theorem Session.Quiet.counts (h : s.Quiet u) : u.counts = s.counts := by
  rw [Session.counts, Session.counts, h.clients, h.failures]

/-- A pattern that cannot be read ends the script, and is no failure of the output. -/
theorem counts_check_invalid (h : (s.clients.map (·.name)).Nodup) (link : Link σ) (site : Site) (echo : Echo)
    {pattern : String} (hpattern : Regex.Program.read? (State.anchored pattern) = none) :
    (endOf (check site echo (.regex pattern)) s).counts = s.counts := by
  refine (check_expects link site echo (.regex pattern) s).counts h ?_
  cases hchecked : s.checkedClient? (.regex pattern) with
  | none => exact (check_of_not_checked site echo hchecked).failures
  | some c =>
    rw [endOf, run_check_of_checked site echo hchecked, State.check, State.matchRegex, hpattern]
    rfl

theorem check_disabled (site : Site) (echo : Echo) (e : Expectation) (h : s.expectEnabled = false) :
    s.Quiet (endOf (check site echo e) s) := by
  refine check_of_not_checked site echo ?_
  rw [Session.checkedClient?, h]
  rfl

/-! ## All histories -/

/-- Failures are only added, behind those that are there. -/
theorem Evolves.failures_prefix (h : Evolves s log u) : s.failures <+: u.failures := by
  induction h with
  | refl => exact List.prefix_rfl
  | enlist _ name hnew ih => exact ih
  | script _ link file src ih =>
    obtain ⟨added, hadded, -⟩ := (runScript_moves link file src _).failures
    exact ih.trans ⟨added, hadded.symm⟩
  | adjust _ hclients hfailures ih => rwa [hfailures]

/-- Over any history that begins without clients and failures, in which clients are registered once each and any
scripts are run to any end, both records of the mismatches agree: the output of each client is the one behind what has
been done with it, its count is the number of mismatches that this has produced, and the number of its failures; all
counts together are the number of failures; and a client has failed exactly if there was a mismatch since its last
reply. Failures are only added, behind those that are there. Replies, the showing of what is left, disabled
expectations and patterns that cannot be read are not counted, in the middle of a script or outside. -/
theorem failures_agree (hclients : s.clients = []) (hfailures : s.failures = []) (h : Evolves s log u) :
    (∀ c ∈ u.clients,
      c.output = Output.run (opsOf c.name log) ∧
      c.output.failureCount = (State.new.mismatches (opsOf c.name log)).length ∧
      c.output.failureCount = (u.failures.filter (·.client = c.name)).length ∧
      (c.output.hasFailed = true ↔ mismatchesSinceReset (opsOf c.name log) ≠ [])) ∧
    u.failureCount = u.failures.length ∧
    (∀ (log' : Log) (v : Session σ), Evolves u log' v → u.failures <+: v.failures) ∧
    (∀ (link : Link σ) (file : String) (v : Visit σ), v.session.failures <+: (v.after link file).failures) ∧
    ∀ v : Session σ, v.clients.map (·.name) = u.clients.map (·.name) →
      (∀ (link : Link σ) (command : String) (line : Nat), (endOf (sendCommand link command line) v).counts = v.counts) ∧
      (endOf flushResidual v).counts = v.counts ∧
      (∀ (site : Site) (echo : Echo) (e : Expectation), v.expectEnabled = false →
        (endOf (check site echo e) v).counts = v.counts) ∧
      ∀ (site : Site) (echo : Echo) (pattern : String), Regex.Program.read? (State.anchored pattern) = none →
        (endOf (check site echo (.regex pattern)) v).counts = v.counts := by
  have hrecorded := h.recorded hclients hfailures
  refine ⟨fun c hc => ?_, hrecorded.failureCount_eq, fun log' v hv => hv.failures_prefix, fun link file v => ?_,
    fun v hnames => ?_⟩
  · have houtput := hrecorded.output c.name c (Session.client?_of_mem hrecorded.nodup hc)
    obtain ⟨hmismatches, hlisted⟩ := hrecorded.failureCount hc
    refine ⟨houtput, hmismatches, hlisted, ?_⟩
    rw [houtput]
    exact hasFailed_run_iff _
  · obtain ⟨added, hadded, -⟩ := (after_does link file v).failures
    exact ⟨added, hadded.symm⟩
  · have hnodup : (v.clients.map (·.name)).Nodup := hnames ▸ hrecorded.nodup
    refine ⟨fun link command line => counts_sendCommand hnodup link command line, (isQuiet_flushResidual v).counts,
      fun site echo e hdisabled => (check_disabled site echo e hdisabled).counts, fun site echo pattern hpattern => ?_⟩
    -- Any link does, since an expectation sends nothing.
    exact counts_check_invalid hnodup ⟨fun _ _ state => (.ok "", state)⟩ site echo hpattern

/-- One mismatch stays counted when a later script captures another reply and ends with a fault. -/
theorem failures_agree_later_fault :
    let link : Link Unit := ⟨fun _ _ s => (.ok "hello world", s)⟩
    let s : Session Unit := { link := () }
    let t := s.register { name := "alice" }
    let u := endOf (runScript link "a.btstest" ">>> greet\nhello there\n") t
    let v := endOf (runScript link "b.btstest" ">>> greet\n$nobody\n") u
    let log := [] ++ scriptLog link "a.btstest" ">>> greet\nhello there\n" t ++
      scriptLog link "b.btstest" ">>> greet\n$nobody\n" u
    Evolves s log v ∧ v.failures = [⟨"a.btstest", 2, 7, "alice", some "greet", "there", "world"⟩] ∧
      v.failureCount = v.failures.length ∧ mismatchesSinceReset (opsOf "alice" log) = [] ∧
      ∀ c ∈ v.clients, c.output.hasFailed = true ↔ mismatchesSinceReset (opsOf c.name log) ≠ [] := by
  intro link s t u v log
  have h : Evolves s log v := .script (.script (.enlist .refl "alice" rfl) link _ _) link _ _
  obtain ⟨hclients, hcount, -⟩ := failures_agree rfl rfl h
  exact ⟨h, by decide +kernel, hcount, by decide +kernel, fun c hc => (hclients c hc).2.2.2⟩

end Conformance.Script
