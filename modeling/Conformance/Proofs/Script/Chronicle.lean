import Conformance.Proofs.Script.Completion

/-!
# Mismatches in the order of a run

A log says what is done with all clients, in order, and so which expectations mismatch, in order (`chronicle`). The
failures that a step records are exactly these (`after_tells`): all that a step does it does with one client. So they are
those of a script, whether it comes to its end or not (`runScript_tells`), and of the scripts of a directory that run
through one after the other (`RunsThrough.tells`).
-/
namespace Conformance.Script

open Output

variable {σ : Type} {link : Link σ} {file : String} {s u v : Session σ} {log log' : Log}

/-! ## The chronicle of a log -/

/-- The output of each client behind a log, from the one in front of it. -/
def behind (output : String → State) (log : Log) (name : String) : State :=
  (opsOf name log).foldl State.apply (output name)

/-- The mismatches that a log brings about, in order: what was expected and what was there instead, with the client. -/
def chronicle (output : String → State) : Log → List (String × String × String)
  | [] => []
  | entry :: log =>
    ((output entry.1).mismatches (opsOf entry.1 [entry])).map (entry.1, ·) ++ chronicle (behind output [entry]) log

theorem behind_append (output : String → State) (log log' : Log) :
    behind output (log ++ log') = behind (behind output log) log' := by
  funext name
  rw [behind, opsOf_append, List.foldl_append]
  rfl

theorem chronicle_append (output : String → State) (log log' : Log) :
    chronicle output (log ++ log') = chronicle output log ++ chronicle (behind output log) log' := by
  induction log generalizing output with
  | nil => rfl
  | cons entry log ih =>
    have hbehind : behind output (entry :: log) = behind (behind output [entry]) log := behind_append output [entry] log
    rw [List.cons_append, chronicle, chronicle, ih, hbehind, List.append_assoc]

/-- What is done with one client alone mismatches as its operations do. -/
theorem chronicle_of_own (output : String → State) {name : String} {log : Log} (h : ∀ entry ∈ log, entry.1 = name) :
    chronicle output log = ((output name).mismatches (opsOf name log)).map (name, ·) := by
  induction log generalizing output with
  | nil => rfl
  | cons entry log ih =>
    obtain ⟨rfl, hlog⟩ := List.forall_mem_cons.1 h
    have hops : opsOf entry.1 (entry :: log) = opsOf entry.1 [entry] ++ opsOf entry.1 log := opsOf_append _ [entry] log
    rw [chronicle, ih _ hlog, hops, mismatches_append, List.map_append]
    rfl

/-- The mismatches of one client are those of its own operations. -/
theorem filter_chronicle (output : String → State) (name : String) (log : Log) :
    (chronicle output log).filter (·.1 = name) = ((output name).mismatches (opsOf name log)).map (name, ·) := by
  induction log generalizing output with
  | nil => rfl
  | cons entry log ih =>
    have hops : opsOf name (entry :: log) = opsOf name [entry] ++ opsOf name log := opsOf_append _ [entry] log
    rw [chronicle, List.filter_append, ih, hops, mismatches_append, List.map_append]
    congr 1
    by_cases hname : entry.1 = name
    · obtain rfl := hname
      rw [List.filter_eq_self]
      intro m hm
      obtain ⟨_, -, rfl⟩ := List.mem_map.1 hm
      exact decide_eq_true rfl
    · have hnone : opsOf name [entry] = [] := by
        rw [opsOf, actsOf_eq_nil (by simpa using hname)]
        rfl
      rw [hnone, List.filter_eq_nil_iff.2]
      · rfl
      · intro m hm
        obtain ⟨_, -, rfl⟩ := List.mem_map.1 hm
        simpa using hname

/-! ## What a session tells of a log -/

/-- The output of each client that is registered. -/
def Session.outputs (s : Session σ) (name : String) : State := ((s.client? name).map (·.output)).getD {}

/-- The failures of the second session are those of the first and, behind them, the mismatches of the log. -/
structure Tells (link : Link σ) (s : Session σ) (log : Log) (s' : Session σ) : Prop extends Moves link s log s' where
  told : ∃ added, s'.failures = s.failures ++ added ∧
    added.map (fun f => (f.client, f.expected, f.actual)) = chronicle s.outputs log

/-- What a log makes of the outputs. -/
theorem Moves.outputs (h : Moves link s log u) : u.outputs = behind s.outputs log := by
  funext name
  rw [Session.outputs, h.client, behind, Session.outputs]
  cases hclient : s.client? name with
  | some c => exact output_foldl_act c (actsOf name log)
  | none =>
    -- nothing is done with a client that is not registered
    have hacts : actsOf name log = [] := by
      refine actsOf_eq_nil fun entry hentry heq => ?_
      have hknown := h.known entry hentry
      rw [heq, hclient] at hknown
      cases hknown
    rw [opsOf, hacts]
    rfl

theorem Tells.trans (h : Tells link s log u) (h' : Tells link u log' v) : Tells link s (log ++ log') v where
  toMoves := h.toMoves.trans h'.toMoves
  told := by
    obtain ⟨added, hfailures, htold⟩ := h.told
    obtain ⟨added', hfailures', htold'⟩ := h'.told
    refine ⟨added ++ added', by rw [hfailures', hfailures, List.append_assoc], ?_⟩
    rw [List.map_append, htold, htold', h.toMoves.outputs, chronicle_append]

/-- All that a step does it does with the active client, so its failures are in order. -/
theorem Does.tells (h : Does link s log u) : Tells link s log u := by
  obtain ⟨added, hfailures, hknown, hmismatches⟩ := h.failures
  refine ⟨h.toMoves, added, hfailures, ?_⟩
  -- no failure is that of a client with which nothing is done
  have hown : ∀ f ∈ added, s.active = some f.client := by
    intro f hf
    obtain ⟨c, hc⟩ := Option.isSome_iff_exists.1 (hknown f hf)
    by_contra hne
    have hops : opsOf f.client log = [] := by
      rw [opsOf, actsOf_eq_nil fun entry hentry heq => hne ((h.own entry hentry).trans (congrArg some heq))]
      rfl
    have hfiltered := hmismatches f.client c hc
    rw [hops] at hfiltered
    have hmem : f ∈ added.filter (·.client = f.client) := List.mem_filter.2 ⟨hf, decide_eq_true rfl⟩
    rw [List.map_eq_nil_iff.1 hfiltered] at hmem
    cases hmem
  cases hactive : s.active with
  | none =>
    have hadded : added = [] := List.eq_nil_iff_forall_not_mem.2 fun f hf => by
      have hf' := hown f hf
      rw [hactive] at hf'
      cases hf'
    have hlog : log = [] := List.eq_nil_iff_forall_not_mem.2 fun entry hentry => by
      have hentry' := h.own entry hentry
      rw [hactive] at hentry'
      cases hentry'
    rw [hadded, hlog]
    rfl
  | some name =>
    have hclient : ∀ f ∈ added, f.client = name := fun f hf => Option.some.inj ((hown f hf).symm.trans hactive)
    have hlog : ∀ entry ∈ log, entry.1 = name :=
      fun entry hentry => Option.some.inj ((h.own entry hentry).symm.trans hactive)
    rw [chronicle_of_own _ hlog]
    cases hc : s.client? name with
    | none =>
      have hadded : added = [] := List.eq_nil_iff_forall_not_mem.2 fun f hf => by
        have hf' := hknown f hf
        rw [hclient f hf, hc] at hf'
        cases hf'
      have hnil : log = [] := List.eq_nil_iff_forall_not_mem.2 fun entry hentry => by
        have hentry' := h.known entry hentry
        rw [hlog entry hentry, hc] at hentry'
        cases hentry'
      rw [hadded, hnil]
      rfl
    | some c =>
      have houtput : s.outputs name = c.output := by
        rw [Session.outputs, hc]
        rfl
      have hall : added.filter (·.client = name) = added :=
        List.filter_eq_self.2 fun f hf => decide_eq_true (hclient f hf)
      rw [houtput, ← hmismatches name c hc, hall, List.map_map]
      exact List.map_congr_left fun f hf => by rw [Function.comp_apply, hclient f hf]

variable (link file) in
theorem after_tells (v : Visit σ) : Tells link v.session (v.log link file) (v.after link file) :=
  (after_does link file v).tells

variable (link file) in
/-- The failures that a script records are the mismatches of its log, also if it ends with a fault. -/
theorem runScript_tells (src : String) (s : Session σ) :
    Tells link s (scriptLog link file src s) (endOf (runScript link file src) s) := by
  rw [runScript_eq]
  exact run_of_steps link file Tells.trans (after_tells link file) none s (tokens src)

/-! ## Scripts that run through -/

/-- Each of these scripts is read when its turn comes and runs to its end. The log is what is done with the clients from
the first session to the second. -/
inductive RunsThrough (link : Link σ) (disk : σ → Files.Disk) : List String → Session σ → Log → Session σ → Prop
  | nil (s : Session σ) : RunsThrough link disk [] s [] s
  | cons {path src : String} {rest : List String} {s u v : Session σ} {log : Log}
      (hread : (disk s.link).readText path = .ok src) (hrun : (runScript link path src).run s = .ok () u)
      (h : RunsThrough link disk rest u log v) :
      RunsThrough link disk (path :: rest) s (scriptLog link path src s ++ log) v

variable {disk : σ → Files.Disk} {paths : List String} {Q : σ → Prop}

/-- Running files ends with a result exactly if all of them run through. -/
theorem run_runFiles_eq_ok : (runFiles link disk paths).run s = .ok () v ↔ ∃ log, RunsThrough link disk paths s log v := by
  induction paths generalizing s with
  | nil =>
    constructor
    · intro h
      injection h with _ hs
      exact ⟨[], hs ▸ .nil s⟩
    · rintro ⟨log, h⟩
      cases h
      rfl
  | cons path rest ih =>
    -- a file that cannot be read has no run
    have hfile : ∀ u, (runFile link disk path).run s = .ok () u ↔
        ∃ src, (disk s.link).readText path = .ok src ∧ (runScript link path src).run s = .ok () u := by
      intro u
      rw [runFile, EStateM.run_bind, EStateM.run_get]
      dsimp only
      cases hread : (disk s.link).readText path with
      | ok src => simp
      | error e =>
        constructor
        · intro h
          injection h
        · rintro ⟨src, h, -⟩
          cases h
    rw [runFiles]
    constructor
    · intro h
      obtain ⟨_, u, hu, hrest⟩ := run_bind_eq_ok h
      obtain ⟨src, hread, hrun⟩ := (hfile u).1 hu
      obtain ⟨log, hlog⟩ := ih.1 hrest
      exact ⟨_, .cons hread hrun hlog⟩
    · rintro ⟨_, h⟩
      cases h with
      | cons hread hrun h =>
        rw [run_bind_ok ((hfile _).2 ⟨_, hread, hrun⟩)]
        exact ih.2 ⟨_, h⟩

/-- Scripts that run through leave things in order. -/
theorem RunsThrough.inOrder (h : RunsThrough link disk paths s log v) (hlink : link.Keeps Q) (hs : s.InOrder Q) :
    v.InOrder Q := by
  induction h with
  | nil s => exact hs
  | cons hread hrun h ih => exact ih (completes_runScript hlink _ _ _ _ _ hs hrun)

/-- The failures that scripts record as they run through are the mismatches of what is done. -/
theorem RunsThrough.tells (h : RunsThrough link disk paths s log v) : Tells link s log v := by
  induction h with
  | nil s => exact (((Session.Quiet.refl s).expects link).toDoes).tells
  | @cons path src rest s u v log hread hrun h ih =>
    have hfirst := runScript_tells link path src s
    rw [endOf_of_ok hrun] at hfirst
    exact hfirst.trans ih

end Conformance.Script
