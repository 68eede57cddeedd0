import Conformance.Proofs.Script.Faults
import Conformance.Proofs.Script.Parts

/-!
# Syntax faults

A fault of the syntax of a script names a place and says what is wrong there. A program that has a problem says so with
the message of the problem, and none of these messages speaks of blocks (`problem_message_ne`). So if a run ends with
such a fault that no problem has the message of, it has come to a literal that opens a block without an end, and nothing
has been done with this literal (`runScript_error`).
-/
namespace Conformance.Script

open Text Expr

variable {σ α β : Type} {link : Link σ} {file : String} {site : Site} {t : Token} {line : Option CommandLine}
  {s s' : Session σ} {m : String}

/-! ## Messages -/

section Messages

variable {a : String}

private theorem infix_append (h : a.toList <:+: m.toList) (r : String) : a.toList <:+: (m ++ r).toList := by
  rw [String.toList_append]
  exact h.trans (List.prefix_append _ _).isInfix

private theorem infix_behind (l a : String) : a.toList <:+: (l ++ a).toList := by
  rw [String.toList_append]
  exact (List.suffix_append _ _).isInfix

/-- A text in which another stands that does not stand in what is said about blocks is none of this. -/
private theorem ne_of_infix (h : a.toList <:+: m.toList)
    (hblocks : ∀ said ∈ [unterminated, malformed], ¬a.toList <:+: said.toList) : m ≠ unterminated ∧ m ≠ malformed := by
  constructor
  · rintro rfl
    exact hblocks _ List.mem_cons_self h
  · rintro rfl
    exact hblocks _ (List.mem_cons_of_mem _ List.mem_cons_self) h

/-- No problem has the message of a block that has no end, or that cannot be taken apart. -/
theorem problem_message_ne (p : Problem) : p.message ≠ unterminated ∧ p.message ≠ malformed := by
  -- Of each message, the text in front of what it shows, or else behind it.
  cases p with
  | literalTooLarge digits =>
    exact ne_of_infix (a := "integer literal out of range: ") (infix_append List.infix_rfl _) (by decide +kernel)
  | unexpectedCharacter c =>
    exact ne_of_infix (a := "unexpected character '") (infix_append (infix_append List.infix_rfl _) _) (by decide +kernel)
  | unterminatedString => decide
  | expected o found =>
    exact ne_of_infix (a := "', found ") (infix_append (infix_behind _ _) _) (by decide +kernel)
  | afterStatement t => exact ne_of_infix (a := " after statement") (infix_behind _ _) (by decide +kernel)
  | notCallable => decide
  | unexpected t => exact ne_of_infix (a := "unexpected ") (infix_append List.infix_rfl _) (by decide +kernel)
  | unexpectedEnd => decide
  | undefined name =>
    exact ne_of_infix (a := "undefined variable '") (infix_append (infix_append List.infix_rfl _) _) (by decide +kernel)
  | overflow => decide
  | divisionByZero => decide
  | operand o type => exact ne_of_infix (a := "' to ") (infix_append (infix_behind _ _) _) (by decide +kernel)
  | operands o left right =>
    exact ne_of_infix (a := " and ") (infix_append (infix_behind _ _) _) (by decide +kernel)
  | missingKey key =>
    exact ne_of_infix (a := "no element '") (infix_append (infix_append List.infix_rfl _) _) (by decide +kernel)
  | missingIndex i =>
    exact ne_of_infix (a := "no element at index ") (infix_append List.infix_rfl _) (by decide +kernel)
  | notIndexable target index =>
    exact ne_of_infix (a := " with ") (infix_append (infix_behind _ _) _) (by decide +kernel)
  | arity name takes got =>
    exact ne_of_infix (a := " argument(s), got ") (infix_append (infix_behind _ _) _) (by decide +kernel)
  | notInteger text => exact ne_of_infix (a := "' to int") (infix_behind _ _) (by decide +kernel)
  | noInteger type => exact ne_of_infix (a := " to int") (infix_behind _ _) (by decide +kernel)
  | noLength type => exact ne_of_infix (a := " has no length") (infix_behind _ _) (by decide +kernel)
  | lengthTooLarge => decide
  | patternType name => exact ne_of_infix (a := "() expects a string pattern") (infix_behind _ _) (by decide +kernel)
  | unknownFunction name =>
    exact ne_of_infix (a := "unknown function '") (infix_append (infix_append List.infix_rfl _) _) (by decide +kernel)
  | invalidPattern pattern detail =>
    exact ne_of_infix (a := "': ") (infix_append (infix_behind _ _) _) (by decide +kernel)

end Messages

/-! ## Actions -/

/-- The fault says `m` of an expression, or of a place in a script. -/
inductive Says (m : String) : Fault → Prop
  | expression : Says m (.expression m)
  | scriptSyntax (file : String) (line column : Nat) : Says m (.scriptSyntax file line column m)

/-- The action does not end with a fault that says `m`. -/
def NeverSays (m : String) (x : Action σ α) : Prop := ∀ (s : Session σ) f s', x.run s = .error f s' → ¬Says m f

theorem NeverFails.neverSays {x : Action σ α} (h : NeverFails x) : NeverSays m x := by
  intro s f s' hrun
  exact absurd hrun (h s f s')

theorem neverSays_pure (a : α) : NeverSays m (pure a : Action σ α) := (neverFails_pure a).neverSays

theorem neverSays_throw {f : Fault} (h : ¬Says m f) : NeverSays m (throw f : Action σ α) := by
  intro s f' s' hrun
  obtain ⟨rfl, -⟩ := EStateM.Result.error.inj hrun
  exact h

theorem neverSays_bind {x : Action σ α} {g : α → Action σ β} (hx : NeverSays m x) (hg : ∀ a, NeverSays m (g a)) :
    NeverSays m (x >>= g) := by
  intro s f s' hrun
  rcases run_bind_eq_error hrun with hrun | ⟨a, u, -, hrun⟩
  · exact hx s f s' hrun
  · exact hg a u f s' hrun

theorem neverSays_modify (change : Session σ → Session σ) : NeverSays m (modify change : Action σ Unit) := by
  intro s f s' hrun
  injection hrun

theorem OnlyShows.neverSays {x : Action σ α} {a : α} (h : OnlyShows x a) : NeverSays m x := h.neverFails.neverSays

theorem composes_neverSays : Composes fun _ (x : Action σ _) => NeverSays m x where
  get _ _ _ hrun := by injection hrun
  shows := OnlyShows.neverSays
  bind := neverSays_bind

theorem neverSays_activeClient : NeverSays m (activeClient : Action σ Client) :=
  composes_neverSays.activeClient (neverSays_throw fun h => by cases h) fun _ => neverSays_throw fun h => by cases h

theorem neverSays_unread (c : Client) : NeverSays m (unread c : Action σ String) := by
  rw [unread]
  split
  · exact neverSays_pure _
  · exact neverSays_bind (neverSays_modify _) fun _ => neverSays_throw fun h => by cases h

theorem not_says_fault {p : Problem} (h : p.message ≠ m) : ¬Says m p.fault := by
  rw [Problem.fault]
  intro hsaid
  cases hsaid
  exact h rfl

theorem neverSays_check (hm : ∀ p : Problem, p.message ≠ m) (site : Site) (echo : Echo) (e : Expectation) :
    NeverSays m (check site echo e : Action σ Captures) :=
  composes_neverSays.check neverSays_activeClient neverSays_unread (fun _ _ => neverSays_modify _)
    (fun p => neverSays_throw (not_says_fault (hm p))) (fun c _ => (neverFails_record site echo c _).neverSays) e

theorem neverSays_flushResidual : NeverSays m (flushResidual : Action σ Unit) := by
  refine composes_neverSays.get_bind fun u => ?_
  split
  · exact neverSays_pure ()
  · refine neverSays_bind (fun s f s' hrun => by injection hrun) fun _ => ?_
    split
    · exact neverSays_pure ()
    · refine neverSays_bind (neverSays_unread _) fun residual => ?_
      dsimp only
      split
      · exact neverSays_pure ()
      · split
        · exact (onlyShows_write _).neverSays
        · exact (onlyShows_write _).neverSays

theorem neverSays_sendCommand (command : String) (line : Nat) : NeverSays m (sendCommand link command line) := by
  refine neverSays_bind neverSays_activeClient fun client => composes_neverSays.get_bind fun u => ?_
  dsimp only
  refine neverSays_bind (fun s f s' hrun => by injection hrun) fun _ => ?_
  split
  · exact neverSays_throw fun h => by cases h
  · exact neverSays_bind (neverSays_modify _) fun _ => neverSays_modify _

theorem neverSays_finish (line : Option CommandLine) : NeverSays m (finish link file line) := by
  cases line with
  | none => exact neverSays_pure ()
  | some line =>
    rw [finish, execute]
    split
    · refine composes_neverSays.get_bind fun u => ?_
      split
      · exact fun s f s' hrun => by injection hrun
      · exact neverSays_throw fun h => by cases h
    · exact neverSays_sendCommand _ _

theorem neverSays_conclude (line : Option CommandLine) : NeverSays m (conclude link file line) :=
  neverSays_bind (neverSays_finish line) fun _ => neverSays_flushResidual

/-! ## Blocks -/

section Blocks

variable (hm : ∀ p : Problem, p.message ≠ m)

include hm

theorem not_says_of_ends {granted : List (Expectation × Captures)} {failure : EvalFailure} {f : Fault} {u : Session σ}
    (h : Ends (check site .capture) s granted (.error failure : Except EvalFailure Value) (.error f u)) :
    ¬Says m f := by
  cases h with
  | problem p => exact not_says_fault (hm p)
  | refused _ hcheck => exact neverSays_check hm site .capture _ _ _ _ hcheck

theorem neverSays_evaluate (site : Site) (source : String) : NeverSays m (evaluate site source : Action σ Value) := by
  intro s f u h
  obtain ⟨f', env, w, heval, rfl, hexpression, hother⟩ := evaluate_error h
  have hsaid : ¬Says m f' := by
    cases hread : read source with
    | error p =>
      rw [eval_of_error _ hread] at heval
      injection heval with hf'
      exact hf' ▸ not_says_fault (hm p)
    | ok ss =>
      obtain ⟨_, _, _, _, _, _, -, -, -, hends⟩ := eval_error _ hread heval
      exact not_says_of_ends hm hends
  -- The fault of an expression becomes one of the script, and says the same.
  by_cases hf' : ∃ message, f' = .expression message
  · obtain ⟨message, rfl⟩ := hf'
    rw [hexpression message rfl]
    intro h
    cases h
    exact hsaid .expression
  · rwa [hother fun message h => hf' ⟨message, h⟩]

end Blocks

/-! ## Steps and runs -/

/-- A literal that opens a block is not looked at any further. -/
theorem step_of_opens (link : Link σ) (file : String) (line : Option CommandLine) (hk : t.kind = .literal)
    (hopens : occurs ['$', '\x7b'] t.text.toList = true) :
    step link file line t = throw (Site.syntaxFault ⟨file, t.place⟩ unterminated) := by
  rw [step_of_text link file (.inl hk), if_pos hopens]

section Runs

variable (hm : ∀ p : Problem, p.message ≠ m)

include hm

/-- A step says nothing that no problem says, unless it comes to a literal that opens a block. -/
theorem neverSays_step (line : Option CommandLine)
    (hliteral : t.kind = .literal → occurs ['$', '\x7b'] t.text.toList = false) :
    NeverSays m (step link file line t) := by
  refine composes_neverSays.step (fun _ _ => neverSays_check hm _ _ _) neverSays_flushResidual (fun _ => ?_)
    (fun hk => ?_) (fun _ _ => neverSays_finish line) fun hk hopens => ?_
  · exact composes_neverSays.resolve (neverSays_throw fun h => by cases h)
  · exact composes_neverSays.block hk (neverSays_evaluate hm _) fun _ => neverSays_check hm _ _ _
  · exact absurd hopens (by simp [hliteral hk])

/-- A step that ends with a fault that no problem has the message of has come to a literal that opens a block. -/
theorem step_error {f : Fault} (h : (step link file line t).run s = .error f s') (hsaid : Says m f) :
    t.kind = .literal ∧ occurs ['$', '\x7b'] t.text.toList = true ∧
      f = Site.syntaxFault ⟨file, t.place⟩ unterminated ∧ s' = s := by
  by_cases hliteral : t.kind = .literal → occurs ['$', '\x7b'] t.text.toList = false
  · exact absurd hsaid (neverSays_step hm line hliteral s f s' h)
  · obtain ⟨hk, hopens⟩ := Classical.not_imp.1 hliteral
    have hopens := eq_true_of_ne_false hopens
    rw [step_of_opens link file line hk hopens] at h
    obtain ⟨rfl, rfl⟩ := EStateM.Result.error.inj h
    exact ⟨hk, hopens, rfl, rfl⟩

/-- So has a run, which carries out the tokens in front of the literal and no more. -/
theorem runScript_error {src : String} {f : Fault} (h : (runScript link file src).run s = .error f s')
    (hsaid : Says m f) :
    ∃ front t back line, tokens src = front ++ t :: back ∧ t.kind = .literal ∧
      occurs ['$', '{'] t.text.toList = true ∧ f = Site.syntaxFault ⟨file, t.place⟩ unterminated ∧
      (runTokens link file none front).run s = .ok line s' := by
  obtain ⟨front, v, -, hrun, hnext, hfaults⟩ := scriptVisits_of_error link file h
  rw [Visit.Faults] at hfaults
  cases hv : v.next with
  | none =>
    rw [hv] at hfaults
    exact absurd hsaid (neverSays_conclude v.line v.session f s' hfaults)
  | some t =>
    rw [hv] at hfaults hnext
    obtain ⟨hkind, hopens, rfl, rfl⟩ := step_error hm hfaults hsaid
    obtain ⟨hlt, ht⟩ := List.getElem?_eq_some_iff.1 hnext.symm
    refine ⟨(tokens src).take front.length, t, (tokens src).drop (front.length + 1), v.line, ?_, hkind, hopens, rfl,
      hrun⟩
    rw [← ht, ← List.drop_eq_getElem_cons hlt, List.take_append_drop]

end Runs

end Conformance.Script
