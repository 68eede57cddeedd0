import Conformance.Expr.Eval
import Conformance.Proofs.Expr.Hosts
import Conformance.Proofs.Expr.Newlines
import Conformance.Proofs.Text.Words

/-!
# Names in expressions

Only a name can be assigned to (`isName_of_assigned`), and a program that holds nothing but a name has the value of the
variable of that name, unless the name is a keyword (`eval_name`).

* `step_eq_ident_iff` says which characters make a name;
* `Reads` is what every reader of the parser does: it takes tokens from the front, so that what is assigned to stands
  among the tokens of the program.
-/
namespace Conformance.Expr

open Text

variable {cs r rest behind : List Char} {c : Char} {name : String} {ts rest' : List Token}

/-! ## The characters of a name -/

/-- The character opens a name: no other token is tried before it. -/
structure OpensName (c : Char) : Prop where
  newline : c ≠ '\n'
  blank : isWhite c = false
  digit : c.isDigit = false
  begins : beginsName c = true

/-- The characters are a name. -/
def IsName (cs : List Char) : Prop := ∃ c r, cs = c :: r ∧ OpensName c ∧ ∀ d ∈ r, continuesName d = true

theorem opening_eq_name_iff : opening c = .name ↔ OpensName c := by
  constructor
  · intro h
    unfold opening at h
    repeat' split at h
    all_goals first | contradiction | skip
    exact ⟨‹_›, by simpa using ‹¬ isWhite c = true›, by simpa using ‹¬ c.isDigit = true›, ‹_›⟩
  · intro h
    rw [opening, if_neg h.newline, if_neg (by simp [h.blank]), if_neg (by simp [h.digit]), if_pos h.begins]

theorem OpensName.step_eq (h : OpensName c) (r : List Char) :
    step c r = .ok (some (.ident (String.ofList (c :: r.takeWhile continuesName))), r.dropWhile continuesName) := by
  rw [Expr.step_eq, opening_eq_name_iff.2 h]

/-- A name is a character that opens one, and all that continue it. -/
theorem step_eq_ident_iff :
    step c r = .ok (some (.ident name), rest) ↔
      OpensName c ∧ name = String.ofList (c :: r.takeWhile continuesName) ∧ rest = r.dropWhile continuesName := by
  constructor
  · intro h
    rw [step_eq] at h
    cases hopening : opening c with
    | name =>
      rw [hopening] at h
      cases h
      exact ⟨opening_eq_name_iff.1 hopening, rfl, rfl⟩
    | newline | blank | semicolon =>
      rw [hopening] at h
      cases h
    | integer =>
      rw [hopening] at h
      cases hn : (nat? (c :: r.takeWhile Char.isDigit)).filter (· < Nat.pow 2 63) <;> simp [hn] at h
    | string =>
      rw [hopening] at h
      cases hbody : stringBody? c r <;> simp [hbody] at h
    | operator =>
      rw [hopening] at h
      cases ho : operator? (c :: r) <;> simp [ho] at h
  · rintro ⟨hopens, rfl, rfl⟩
    exact hopens.step_eq r

theorem isName_of_step (h : step c r = .ok (some (.ident name), rest)) : IsName name.toList := by
  obtain ⟨hopens, rfl, -⟩ := step_eq_ident_iff.1 h
  rw [String.toList_ofList]
  exact ⟨c, _, rfl, hopens, List.all_eq_true.1 List.all_takeWhile⟩

/-- The names among the tokens of a text are names by their characters. -/
theorem isName_of_mem_lex (h : lex cs = .ok ts) (hmem : .ident name ∈ ts) : IsName name.toList := by
  induction cs using lex.induct generalizing ts with
  | case1 =>
    rw [lex] at h
    cases h
    contradiction
  | case2 c r p hstep =>
    rw [lex_of_error hstep] at h
    cases h
  | case3 c r t rest hstep p hrest ih =>
    rw [lex_of_ok hstep, hrest] at h
    cases h
  | case4 c r t rest hstep ts' hrest ih =>
    rw [lex_of_ok hstep, hrest] at h
    cases h
    rcases List.mem_append.1 hmem with hmem | hmem
    · rw [Option.mem_toList.1 hmem] at hstep
      exact isName_of_step hstep
    · exact ih hrest hmem

/-- A name is one token if nothing behind it continues it. -/
theorem IsName.lex_append (h : IsName name.toList) (hbehind : ∀ d ∈ behind.head?, continuesName d = false) :
    lex (name.toList ++ behind) = (lex behind).map (Token.ident name :: ·) := by
  obtain ⟨c, r, hname, hopens, hr⟩ := h
  obtain ⟨htake, hdrop⟩ := takeWhile_dropWhile_iff.2 ⟨rfl, hr, hbehind⟩
  have hstep := hopens.step_eq (r ++ behind)
  rw [htake, hdrop, ← hname, String.ofList_toList] at hstep
  rw [hname, List.cons_append, lex_of_ok hstep]
  rfl

/-! ## Readers take tokens from the front -/

/-- What the reader leaves of the tokens is an end of them. -/
def Reads {α : Type} (x : Except Problem (α × List Token)) (ts : List Token) : Prop :=
  ∀ a rest, x = .ok (a, rest) → rest <:+ ts

section Readers

variable {α β : Type} {x : Except Problem (α × List Token)} {ts ts' : List Token}

theorem reads_ok {a : α} {rest : List Token} (h : rest <:+ ts) : Reads (.ok (a, rest)) ts := by
  intro b rest' heq
  cases heq
  exact h

theorem reads_error (p : Problem) : Reads (.error p : Except Problem (α × List Token)) ts := by
  intro a rest heq
  cases heq

theorem Reads.mono (h : Reads x ts') (hts : ts' <:+ ts) : Reads x ts :=
  fun a rest heq => (h a rest heq).trans hts

theorem Reads.bind {f : α × List Token → Except Problem (β × List Token)} (hx : Reads x ts)
    (hf : ∀ a rest, rest <:+ ts → Reads (f (a, rest)) ts) : Reads (x >>= f) ts := by
  cases hx' : x with
  | error p => exact reads_error p
  | ok p => exact hf p.1 p.2 (hx p.1 p.2 hx')

theorem reads_closing {o : Op} {f : List Token → Except Problem (β × List Token)} (hts : ts' <:+ ts)
    (hf : ∀ rest, rest <:+ ts → Reads (f rest) ts) : Reads (closing o ts' >>= f) ts := by
  cases ts' with
  | nil => exact reads_error _
  | cons t r =>
    rw [closing]
    split
    · exact hf r ((List.suffix_cons t r).trans hts)
    · exact reads_error _

/-- All readers of operands take tokens from the front. -/
structure OperandsRead (fuel : Nat) : Prop where
  operand : ∀ level ts, Reads (operand fuel level ts) ts
  chain : ∀ level left ts, Reads (chain fuel level left ts) ts
  suffixes : ∀ e ts, Reads (suffixes fuel e ts) ts
  arguments : ∀ ts, Reads (arguments fuel ts) ts
  someArguments : ∀ ts, Reads (someArguments fuel ts) ts
  primary : ∀ ts, Reads (primary fuel ts) ts

variable {fuel : Nat} (ih : OperandsRead fuel)
include ih

theorem reads_operand (level : Nat) (ts : List Token) : Reads (operand (fuel + 1) level ts) ts := by
  unfold operand
  split
  · exact (ih.operand _ ts).bind fun e rest hrest => (ih.chain level e rest).mono hrest
  · split
    next r => exact ((ih.operand level r).mono (List.suffix_cons _ r)).bind fun e rest hrest => reads_ok hrest
    next r => exact ((ih.operand level r).mono (List.suffix_cons _ r)).bind fun e rest hrest => reads_ok hrest
    next => exact (ih.primary ts).bind fun e rest hrest => (ih.suffixes e rest).mono hrest

theorem reads_chain (level : Nat) (left : Tree) (ts : List Token) : Reads (chain (fuel + 1) level left ts) ts := by
  unfold chain
  split
  next o r =>
    split
    next b hb =>
      refine ((ih.operand (level + 1) r).mono (List.suffix_cons _ r)).bind fun right rest hrest => ?_
      exact (ih.chain level (.binary b left right) rest).mono hrest
    · exact reads_ok List.suffix_rfl
  · exact reads_ok List.suffix_rfl

theorem reads_suffixes (e : Tree) (ts : List Token) : Reads (suffixes (fuel + 1) e ts) ts := by
  unfold suffixes
  split
  next r =>
    split
    next name =>
      refine ((ih.arguments r).mono (List.suffix_cons _ r)).bind fun args rest hrest => ?_
      exact reads_closing hrest fun rest hrest => (ih.suffixes (.call name args) rest).mono hrest
    · exact reads_error _
  next r =>
    refine ((ih.operand 0 r).mono (List.suffix_cons _ r)).bind fun i rest hrest => ?_
    exact reads_closing hrest fun rest hrest => (ih.suffixes (.index e i) rest).mono hrest
  · exact reads_ok List.suffix_rfl

theorem reads_arguments (ts : List Token) : Reads (arguments (fuel + 1) ts) ts := by
  unfold arguments
  split
  · exact reads_ok List.suffix_rfl
  · exact ih.someArguments ts

theorem reads_someArguments (ts : List Token) : Reads (someArguments (fuel + 1) ts) ts := by
  unfold someArguments
  refine (ih.operand 0 ts).bind fun e rest hrest => ?_
  dsimp only
  split
  next r =>
    refine ((ih.someArguments r).mono ((List.suffix_cons _ r).trans hrest)).bind fun es rest hrest => ?_
    exact reads_ok hrest
  · exact reads_ok hrest

theorem reads_primary (ts : List Token) : Reads (primary (fuel + 1) ts) ts := by
  unfold primary
  split
  · exact reads_error _
  next n r => exact reads_ok (List.suffix_cons _ r)
  next s r => exact reads_ok (List.suffix_cons _ r)
  next name r => exact reads_ok (List.suffix_cons _ r)
  next r =>
    refine ((ih.operand 0 r).mono (List.suffix_cons _ r)).bind fun e rest hrest => ?_
    exact reads_closing hrest fun rest hrest => reads_ok hrest
  · exact reads_error _

end Readers

theorem operandsRead (fuel : Nat) : OperandsRead fuel := by
  induction fuel with
  | zero =>
    refine ⟨fun _ _ => ?_, fun _ _ _ => ?_, fun _ _ => ?_, fun _ => ?_, fun _ => ?_, fun _ => ?_⟩
    · rw [operand]
      exact reads_error _
    · rw [chain]
      exact reads_error _
    · rw [suffixes]
      exact reads_error _
    · rw [arguments]
      exact reads_error _
    · rw [someArguments]
      exact reads_error _
    · rw [primary]
      exact reads_error _
  | succ fuel ih =>
    exact ⟨reads_operand ih, reads_chain ih, reads_suffixes ih, reads_arguments ih, reads_someArguments ih,
      reads_primary ih⟩

/-! ## What is assigned to -/

theorem reads_statement (ts : List Token) : Reads (statement ts) ts := by
  unfold statement
  split
  next name r =>
    have hr : r <:+ .ident name :: .op .assign :: r := (List.suffix_cons _ r).trans (List.suffix_cons _ _)
    exact (((operandsRead _).operand 0 r).mono hr).bind fun e rest hrest => reads_ok hrest
  · exact ((operandsRead _).operand 0 ts).bind fun e rest hrest => reads_ok hrest

theorem bind_eq_ok {ε α β : Type} {x : Except ε α} {f : α → Except ε β} {b : β} (h : x >>= f = .ok b) :
    ∃ a, x = .ok a ∧ f a = .ok b := by
  cases x with
  | error p => cases h
  | ok a => exact ⟨a, rfl, h⟩

theorem mem_of_statement {e : Tree} (h : statement ts = .ok (.assign name e, rest')) : .ident name ∈ ts := by
  unfold statement at h
  split at h
  next name' r =>
    obtain ⟨_, -, heq⟩ := bind_eq_ok h
    cases heq
    exact List.mem_cons_self
  next =>
    obtain ⟨_, -, heq⟩ := bind_eq_ok h
    cases heq

/-- What a program assigns to stands among its tokens. -/
theorem mem_of_mem_statements {e : Tree} {fuel : Nat} {program : List Statement}
    (h : statements fuel ts = .ok program) (hmem : .assign name e ∈ program) : .ident name ∈ ts := by
  induction fuel generalizing ts program with
  | zero =>
    rw [statements] at h
    cases h
    contradiction
  | succ fuel ih =>
    rw [statements] at h
    have hdrop : ts.dropWhile (· = .sep) <:+ ts := List.dropWhile_suffix _
    split at h
    next =>
      cases h
      contradiction
    next t r hts =>
      rw [hts] at hdrop
      obtain ⟨⟨s, rest⟩, hs, h⟩ := bind_eq_ok h
      have hrest : rest <:+ ts := (reads_statement (t :: r) s rest hs).trans hdrop
      -- The assignment is the first statement, or one of those behind the separator.
      have hfirst : s = .assign name e → .ident name ∈ ts := by
        rintro rfl
        exact hdrop.subset (mem_of_statement hs)
      dsimp only at h
      split at h
      next =>
        cases h
        exact hfirst (List.mem_singleton.1 hmem).symm
      next r' =>
        obtain ⟨more, hmore, heq⟩ := bind_eq_ok h
        cases heq
        rcases List.mem_cons.1 hmem with heq | hmem
        · exact hfirst heq.symm
        · exact ((List.suffix_cons _ r').trans hrest).subset (ih hmore hmem)
      next => cases h

/-- Only names are assigned to. -/
theorem isName_of_assigned {src : String} {program : List Statement} {e : Tree} (h : read src = .ok program)
    (hmem : .assign name e ∈ program) : IsName name.toList := by
  obtain ⟨ts, hts, h⟩ := bind_eq_ok h
  exact isName_of_mem_lex hts (mem_of_mem_statements h hmem)

/-! ## The value of a name -/

/-- The value of a keyword. -/
def keyword? (name : String) : Option Value :=
  if name = "true" then some (.bool true)
  else if name = "false" then some (.bool false)
  else if name = "null" then some .null
  else none

/-- A name is an operand of its own. -/
theorem operand_ident {rest : List Token} (hrest : ∀ t ∈ rest.head?, t = .sep) (fuel : Nat) :
    operand (fuel + 5) 0 (.ident name :: rest) = .ok (named name, rest) := by
  have hsuffixes : suffixes (fuel + 1) (named name) rest = .ok (named name, rest) := by
    cases rest with
    | nil => simp [suffixes]
    | cons t rest =>
      obtain rfl := hrest t rfl
      simp [suffixes]
  have hchain : ∀ fuel level, chain (fuel + 1) level (named name) rest = .ok (named name, rest) := by
    intro fuel level
    cases rest with
    | nil => simp [chain]
    | cons t rest =>
      obtain rfl := hrest t rfl
      simp [chain]
  have htightest : operand (fuel + 2) 3 (.ident name :: rest) = .ok (named name, rest) := by
    simp [operand, tightest, primary, bind, Except.bind, hsuffixes]
  -- From the tightest level on, no operator follows.
  have hlevel : ∀ {fuel level}, level < tightest →
      operand (fuel + 1) (level + 1) (.ident name :: rest) = .ok (named name, rest) →
      operand (fuel + 2) level (.ident name :: rest) = .ok (named name, rest) := by
    intro fuel level hlevel h
    unfold operand
    rw [if_pos hlevel, h]
    exact hchain fuel level
  exact hlevel (by decide) (hlevel (by decide) (hlevel (by decide) htightest))

theorem dropWhile_replicate_sep (n : Nat) (ts : List Token) :
    (List.replicate n Token.sep ++ ts).dropWhile (· = .sep) = ts.dropWhile (· = .sep) :=
  List.dropWhile_append_of_pos fun _ ht => decide_eq_true (List.eq_of_mem_replicate ht)

/-- A program that holds a name and separators evaluates the name. -/
theorem program_ident (m n : Nat) (name : String) :
    program (List.replicate m .sep ++ .ident name :: List.replicate n .sep) = .ok [.eval (named name)] := by
  have hseps : ∀ fuel n, statements fuel (List.replicate n .sep) = .ok [] := by
    intro fuel n
    cases fuel with
    | zero => rw [statements]
    | succ fuel =>
      have hdrop := dropWhile_replicate_sep n []
      rw [List.append_nil] at hdrop
      rw [statements, hdrop]
      rfl
  have hstatement : statement (.ident name :: List.replicate n .sep) =
      .ok (.eval (named name), List.replicate n .sep) := by
    have hoperand : operand (8 * n + 11 + 5) 0 (.ident name :: List.replicate n .sep) =
        .ok (named name, List.replicate n .sep) :=
      operand_ident (fun t ht => List.eq_of_mem_replicate (List.mem_of_mem_head? ht)) _
    -- there is fuel for the readers between an operand and a name
    have hfuel : fuelFor (.ident name :: List.replicate n .sep) = 8 * n + 11 + 5 := by
      rw [fuelFor, List.length_cons, List.length_replicate]
      omega
    unfold statement
    split
    next heq =>
      cases n <;> cases heq
    next =>
      rw [hfuel, hoperand]
      rfl
  rw [program, statements, dropWhile_replicate_sep]
  have hident : (Token.ident name :: List.replicate n .sep).dropWhile (· = .sep) =
      .ident name :: List.replicate n .sep := rfl
  rw [hident]
  dsimp only
  rw [hstatement]
  dsimp only [bind, Except.bind]
  cases n with
  | zero => rfl
  | succ n =>
    rw [List.replicate_succ]
    dsimp only
    rw [hseps]
    rfl

theorem isOutputBlank_cases (h : isOutputBlank c = true) :
    c = ' ' ∨ c = '\t' ∨ c = '\x0c' ∨ c = '\x0b' ∨ c = '\r' ∨ c = '\n' := by
  simpa [isOutputBlank, isInlineBlank, or_assoc] using h

theorem isWhite_of_isOutputBlank (h : isOutputBlank c = true) : isWhite c = true := by
  rcases isOutputBlank_cases h with rfl | rfl | rfl | rfl | rfl | rfl <;> decide

theorem continuesName_of_isOutputBlank (h : isOutputBlank c = true) : continuesName c = false := by
  rcases isOutputBlank_cases h with rfl | rfl | rfl | rfl | rfl | rfl <;> decide +kernel

/-- Blanks give no token, and newlines separators. -/
theorem lex_blanks_append {blanks : List Char} (h : ∀ c ∈ blanks, isOutputBlank c = true) (cs : List Char) :
    ∃ n, lex (blanks ++ cs) = (lex cs).map (List.replicate n .sep ++ ·) := by
  induction blanks with
  | nil =>
    refine ⟨0, ?_⟩
    rw [List.nil_append]
    cases lex cs <;> rfl
  | cons c blanks ih =>
    obtain ⟨hc, hblanks⟩ := List.forall_mem_cons.1 h
    obtain ⟨n, hn⟩ := ih hblanks
    rw [List.cons_append]
    by_cases hlf : c = '\n'
    · refine ⟨n + 1, ?_⟩
      rw [hlf, lex_lf, hn]
      cases lex cs <;> rfl
    · exact ⟨n, (lex_blank hlf (isWhite_of_isOutputBlank hc) _).trans hn⟩

/-- A program that holds nothing but a name evaluates it. -/
theorem read_name {before behind : List Char} (hname : IsName name.toList)
    (hbefore : ∀ c ∈ before, isOutputBlank c = true) (hbehind : ∀ c ∈ behind, isOutputBlank c = true) :
    read (String.ofList (before ++ name.toList ++ behind)) = .ok [.eval (named name)] := by
  obtain ⟨m, hm⟩ := lex_blanks_append hbefore (name.toList ++ behind)
  obtain ⟨n, hn⟩ := lex_blanks_append hbehind []
  have hstop : ∀ c ∈ behind.head?, continuesName c = false := fun c hc =>
    continuesName_of_isOutputBlank (hbehind c (List.mem_of_mem_head? hc))
  have hseps : lex behind = .ok (List.replicate n .sep) := by
    rw [List.append_nil, lex] at hn
    rw [hn, Except.map, List.append_nil]
  have hlex : lex (before ++ name.toList ++ behind) =
      .ok (List.replicate m .sep ++ .ident name :: List.replicate n .sep) := by
    rw [List.append_assoc, hm, hname.lex_append hstop, hseps]
    rfl
  rw [read, String.toList_ofList, hlex]
  exact program_ident m n name

section Evaluation

variable {σ : Type} (host : Host σ)

theorem evalTree_named {env : Env} {v : Value} (h : env.get? name = some v) (s : σ) :
    evalTree host env (named name) s = .ok ((keyword? name).getD v) s := by
  unfold named keyword?
  repeat' split
  · rw [evalTree]
    rfl
  · rw [evalTree]
    rfl
  · rw [evalTree]
    rfl
  · rw [evalTree, h]
    rfl

/-- A program that holds nothing but a name has the value of its variable, or that of the keyword that the name is. -/
theorem eval_name {env : Env} {v : Value} (h : env.get? name = some v) {before behind : List Char}
    (hname : IsName name.toList) (hbefore : ∀ c ∈ before, isOutputBlank c = true)
    (hbehind : ∀ c ∈ behind, isOutputBlank c = true) (s : σ) :
    (eval host (String.ofList (before ++ name.toList ++ behind))).run (env, s) =
      .ok ((keyword? name).getD v) (env, s) := by
  have hbeside : (evalBeside host (named name)).run (env, s) = .ok ((keyword? name).getD v) (env, s) := by
    rw [run_evalBeside, evalTree_named host h]
  rw [eval, read_name hname hbefore hbehind]
  simp only [runStatements, runStatement, bind_pure]
  exact hbeside

end Evaluation

end Conformance.Expr
