import Conformance.Proofs.Expr.Evaluation
import Conformance.Proofs.Expr.Parsing

/-!
# Programs behind one another

A line feed ends the token in front of it and separates the statements around it. So a program on the lines behind
another has the tokens and the statements of the two (`lex_append_lf`, `read_append_lf`), and its evaluation is that of
the one and then that of the other (`eval_append_lf`).
-/
namespace Conformance.Expr

open Text

variable {cs r rest : List Char} {c quote : Char} {t : Option Token} {ts ts' : List Token} {ss ss' : List Statement}

/-! ## Tokens -/

theorem takeWhile_append_lf {p : Char → Bool} (hlf : p '\n' = false) (cs behind : List Char) :
    (cs ++ '\n' :: behind).takeWhile p = cs.takeWhile p ∧
      (cs ++ '\n' :: behind).dropWhile p = cs.dropWhile p ++ '\n' :: behind := by
  induction cs with
  | nil => simp [hlf]
  | cons c cs ih => by_cases hc : p c <;> simp [hc, ih]

theorem stringBody?_append {s : List Char} (h : stringBody? quote cs = some (s, rest)) (behind : List Char) :
    stringBody? quote (cs ++ behind) = some (s, rest ++ behind) := by
  fun_induction stringBody? quote cs generalizing s rest with
  | case1 => cases h
  | case2 c hc =>
    cases h
    simp only [Bool.and_eq_true, decide_eq_true_eq] at hc
    obtain ⟨rfl, hb⟩ := hc
    exact stringBody?_quote hb behind
  | case3 c hc => cases h
  | case4 d r ih =>
    obtain ⟨⟨s', rest'⟩, h', he⟩ := Option.map_eq_some_iff.1 h
    cases he
    rw [List.cons_append, List.cons_append, stringBody?_escape, ih h']
    rfl
  | case5 d r hb =>
    cases h
    rw [List.cons_append, List.cons_append, stringBody?_quote hb]
  | case6 c d r hb hq ih =>
    obtain ⟨⟨s', rest'⟩, h', he⟩ := Option.map_eq_some_iff.1 h
    cases he
    rw [List.cons_append, stringBody?_cons hb hq, ih h']
    rfl

/-- What begins with none of a line feed does not run over one. -/
theorem dropPrefix?_append_lf {pat : List Char} (hpat : '\n' ∉ pat) (cs behind : List Char) :
    dropPrefix? pat (cs ++ '\n' :: behind) = (dropPrefix? pat cs).map (· ++ '\n' :: behind) := by
  induction pat generalizing cs with
  | nil => simp [dropPrefix?]
  | cons q pat ih =>
    obtain ⟨hq, hpat⟩ := List.ne_and_not_mem_of_not_mem_cons hpat
    cases cs with
    | nil => simp [dropPrefix?, hq.symm]
    | cons c cs =>
      rw [List.cons_append, dropPrefix?, dropPrefix?, ih hpat]
      split <;> rfl

theorem operator?_append_lf (cs behind : List Char) :
    operator? (cs ++ '\n' :: behind) = (operator? cs).map (Prod.map id (· ++ '\n' :: behind)) := by
  rw [operator?, operator?, List.map_findSome?]
  refine congrArg (List.findSome? · operators) (funext fun o => ?_)
  rw [dropPrefix?_append_lf (parting_lf.operator o), Function.comp_apply, Option.map_map, Option.map_map]
  rfl

/-- A token, or a blank, is the same with a line feed behind all the text. -/
theorem step_append_lf (h : step c r = .ok (t, rest)) (behind : List Char) :
    step c (r ++ '\n' :: behind) = .ok (t, rest ++ '\n' :: behind) := by
  -- a line feed ends a number and a name, so neither takes anything from behind it
  have hdigits := takeWhile_append_lf parting_lf.digit r behind
  have hname := takeWhile_append_lf parting_lf.name r behind
  rw [step_eq] at h ⊢
  cases hopening : opening c with
  | newline | blank | semicolon =>
    rw [hopening] at h
    cases h
    rfl
  | integer =>
    rw [hopening] at h
    dsimp only at h ⊢
    rw [hdigits.1, hdigits.2]
    cases hn : (nat? (c :: r.takeWhile Char.isDigit)).filter (· < Nat.pow 2 63) with
    | none =>
      rw [hn] at h
      cases h
    | some n =>
      rw [hn] at h
      cases h
      rfl
  | name =>
    rw [hopening] at h
    cases h
    dsimp only
    rw [hname.1, hname.2]
  | string =>
    rw [hopening] at h
    cases hbody : stringBody? c r with
    | none =>
      rw [hbody] at h
      cases h
    | some body =>
      rw [hbody] at h
      cases h
      dsimp only
      rw [stringBody?_append hbody]
      rfl
  | operator =>
    rw [hopening] at h
    dsimp only
    rw [← List.cons_append, operator?_append_lf]
    cases ho : operator? (c :: r) with
    | none =>
      rw [ho] at h
      cases h
    | some found =>
      rw [ho] at h
      cases h
      rfl

/-- The tokens of a text, a separator, and those of the text on the lines behind it. -/
theorem lex_append_lf (h : lex cs = .ok ts) (behind : List Char) :
    lex (cs ++ '\n' :: behind) = (lex behind).map (ts ++ Token.sep :: ·) := by
  induction cs using lex.induct generalizing ts with
  | case1 =>
    rw [lex] at h
    cases h
    rw [List.nil_append, lex_lf]
    rfl
  | case2 c r p hstep =>
    rw [lex_of_error hstep] at h
    cases h
  | case3 c r t rest hstep p hrest ih =>
    rw [lex_of_ok hstep, hrest] at h
    cases h
  | case4 c r t rest hstep ts' hrest ih =>
    rw [lex_of_ok hstep, hrest] at h
    cases h
    rw [List.cons_append, lex_of_ok (step_append_lf hstep behind), ih hrest]
    cases lex behind with
    | error p => rfl
    | ok ts => simp only [Except.map, List.append_assoc]

/-! ## Statements -/

/-- A program, a separator and a program are a program. -/
theorem WritesProgram.append (h : WritesProgram ts ss) (h' : WritesProgram ts' ss') :
    WritesProgram (ts ++ .sep :: ts') (ss ++ ss') := by
  induction h with
  | empty => exact .sep h'
  | sep h ih => exact .sep ih
  | last h => exact .more h h'
  | more h hrest ih =>
    rw [List.append_assoc]
    exact .more h ih

theorem read_of_lex {src : String} (h : (lex src.toList).toOption = some ts) : read src = program ts := by
  rw [read]
  cases hlex : lex src.toList with
  | error p =>
    rw [hlex] at h
    cases h
  | ok ts' =>
    rw [hlex] at h
    cases h
    rfl

/-- A program on the lines behind another has the statements of both. -/
theorem read_append_lf {p q : String} {sp sq : List Statement} (hp : read p = .ok sp) (hq : read q = .ok sq) :
    read (p ++ "\n" ++ q) = .ok (sp ++ sq) := by
  obtain ⟨tp, htp, hp⟩ := bind_eq_ok hp
  obtain ⟨tq, htq, hq⟩ := bind_eq_ok hq
  have hlex : lex (p ++ "\n" ++ q).toList = .ok (tp ++ .sep :: tq) := by
    have htext : (p ++ "\n" ++ q).toList = p.toList ++ '\n' :: q.toList := by simp
    rw [htext, lex_append_lf htp, htq]
    rfl
  have hwrites := (writesProgram_of_program hp).append (writesProgram_of_program hq)
  rw [read, hlex]
  exact program_of_writesProgram hwrites

section Evaluation

variable {σ : Type} (host : Host σ)

theorem runStatements_append (last : Value) (ss ss' : List Statement) :
    runStatements host last (ss ++ ss') = runStatements host last ss >>= fun v => runStatements host v ss' := by
  induction ss generalizing last with
  | nil => rw [runStatements, pure_bind, List.nil_append]
  | cons s ss ih =>
    rw [List.cons_append, runStatements, runStatements, bind_assoc]
    exact bind_congr fun v => ih v

/-- Statements make nothing of the value in front of them, but hand it on if there are none of them. -/
theorem runStatements_last (last : Value) (ss : List Statement) :
    runStatements host last ss = do
      let w ← runStatements host .null ss
      return if ss.isEmpty then last else w := by
  cases ss with
  | nil =>
    rw [runStatements, runStatements, pure_bind]
    rfl
  | cons s ss =>
    rw [runStatements, runStatements]
    exact (bind_pure _).symm

theorem eval_of_ok {src : String} (h : read src = .ok ss) : eval host src = runStatements host .null ss := by
  rw [eval, h]

theorem eval_of_error {src : String} {p : Problem} (h : read src = .error p) : eval host src = throw p.fault := by
  rw [eval, h]

/-- A program on the lines behind another is evaluated behind it. -/
theorem eval_append_lf {p q : String} {sp sq : List Statement} (hp : read p = .ok sp) (hq : read q = .ok sq) :
    eval host (p ++ "\n" ++ q) = do
      let v ← eval host p
      let w ← eval host q
      return if sq.isEmpty then v else w := by
  rw [eval_of_ok host (read_append_lf hp hq), eval_of_ok host hp, eval_of_ok host hq, runStatements_append]
  exact bind_congr fun v => runStatements_last host v sq

/-- A program that fails stops at one of its statements: the variables are those that the statements in front of it
leave, and the host was asked what they expect and what the statement expects in front of its failure. -/
theorem eval_error {src : String} {env env' : Env} {s s' : σ} {f : Fault} (hread : read src = .ok ss)
    (h : (eval host src).run (env, s) = .error f (env', s')) :
    ∃ before stmt after granted granted' failure, ss = before ++ stmt :: after ∧ Performs env before granted env' ∧
      Raises env' stmt.expression granted' (.error failure) ∧
        Ends host s (granted ++ granted') (.error failure : Except EvalFailure Value) (.error f s') := by
  rw [eval_of_ok host hread] at h
  obtain ⟨before, stmt, after, granted, granted', failure, s₁, rfl, hperforms, hserves, hraises, hends⟩ :=
    runStatements_error h
  exact ⟨before, stmt, after, granted, granted', failure, rfl, hperforms, hraises, hends.behind hserves⟩

/-- Only what is assigned to changes, whether the program fails or not. -/
theorem eval_get? {src name : String} {env env' : Env} {s s' : σ}
    (hname : ∀ ss e, read src = .ok ss → .assign name e ∉ ss)
    (h : (∃ v, (eval host src).run (env, s) = .ok v (env', s')) ∨
      ∃ f, (eval host src).run (env, s) = .error f (env', s')) :
    env'.get? name = env.get? name := by
  cases hread : read src with
  | error p =>
    rw [eval_of_error host hread] at h
    rcases h with ⟨v, h⟩ | ⟨f, h⟩
    · cases h
    · cases h
      rfl
  | ok ss =>
    rcases h with ⟨v, h⟩ | ⟨f, h⟩
    · rw [eval_of_ok host hread] at h
      obtain ⟨granted, hperforms, -⟩ := runStatements_ok h
      exact hperforms.get?_eq fun e => hname ss e hread
    · obtain ⟨before, stmt, after, granted, -, -, rfl, hperforms, -⟩ := eval_error host hread h
      exact hperforms.get?_eq fun e hmem => hname _ e hread (List.mem_append_left _ hmem)

/-- Programs compose, and fail at a statement as a whole. This holds under every host, also under one whose state is the
list of what it was asked:

* a program on the lines behind another is evaluated behind it, and only if that succeeded;
* a statement that fails leaves the variables and the host as the statements in front of it and the expectations that it
  raised itself leave them;
* a text that is no program changes nothing, whatever statements stand in it;
* only variables that are assigned to change. -/
theorem eval_composes :
    (∀ p q sp sq, read p = .ok sp → read q = .ok sq →
      eval host (p ++ "\n" ++ q) = do
        let v ← eval host p
        let w ← eval host q
        return if sq.isEmpty then v else w) ∧
    (∀ src ss env s f env' s', read src = .ok ss → (eval host src).run (env, s) = .error f (env', s') →
      ∃ before stmt after granted granted' failure, ss = before ++ stmt :: after ∧ Performs env before granted env' ∧
        Raises env' stmt.expression granted' (.error failure) ∧
          Ends host s (granted ++ granted') (.error failure : Except EvalFailure Value) (.error f s')) ∧
    (∀ src problem env s, read src = .error problem → (eval host src).run (env, s) = .error problem.fault (env, s)) ∧
    ∀ src name env s env' s', (∀ ss e, read src = .ok ss → .assign name e ∉ ss) →
      ((∃ v, (eval host src).run (env, s) = .ok v (env', s')) ∨
        ∃ f, (eval host src).run (env, s) = .error f (env', s')) →
        env'.get? name = env.get? name := by
  refine ⟨fun p q sp sq hp hq => eval_append_lf host hp hq,
    fun src ss env s f env' s' hread h => eval_error host hread h, fun src problem env s hread => ?_,
    fun src name env s env' s' hname h => eval_get? host hname h⟩
  rw [eval_of_error host hread]
  rfl

end Evaluation

/-- A host that grants all but JSON, and lists what it was asked. -/
def withoutJson : Host (List Expectation) := fun e asked =>
  if e = .json then .error (.expression "no JSON") (asked ++ [e]) else .ok [] (asked ++ [e])

/-- A program behind another is refused what it expects: the variables of both are assigned by then. -/
theorem eval_composes_refused :
    read "x = 1\nexpect_str(x)" = .ok [.assign "x" (.literal (.int 1)), .eval (.call "expect_str" [.var "x"])] ∧
    read "y = x;expect_json()" = .ok [.assign "y" (.var "x"), .eval (.call "expect_json" [])] ∧
    (eval withoutJson ("x = 1\nexpect_str(x)" ++ "\n" ++ "y = x;expect_json()") = do
      let _ ← eval withoutJson "x = 1\nexpect_str(x)"
      eval withoutJson "y = x;expect_json()") ∧
    (∃ before stmt after granted granted' failure,
      [.assign "y" (.var "x"), .eval (.call "expect_json" [])] = before ++ stmt :: after ∧
        Performs ⟨[("x", .int 1)]⟩ before granted ⟨[("x", .int 1), ("y", .int 1)]⟩ ∧
          Raises ⟨[("x", .int 1), ("y", .int 1)]⟩ stmt.expression granted' (.error failure) ∧
            Ends withoutJson [] (granted ++ granted') (.error failure : Except EvalFailure Value)
              (.error (.expression "no JSON") [.json])) ∧
    (eval withoutJson "x = 1; (").run (.empty, []) = .error (.expression "unexpected end of expression") (.empty, []) ∧
    (⟨[("x", .int 1), ("y", .int 1)]⟩ : Env).get? "x" = (⟨[("x", .int 1)]⟩ : Env).get? "x" := by
  have hp : read "x = 1\nexpect_str(x)" =
      .ok [.assign "x" (.literal (.int 1)), .eval (.call "expect_str" [.var "x"])] := by
    have hlex : (lex "x = 1\nexpect_str(x)".toList).toOption =
        some [.ident "x", .op .assign, .int 1, .sep, .ident "expect_str", .op .lparen, .ident "x", .op .rparen] := by
      decide +kernel
    exact (read_of_lex hlex).trans rfl
  have hq : read "y = x;expect_json()" = .ok [.assign "y" (.var "x"), .eval (.call "expect_json" [])] := by
    have hlex : (lex "y = x;expect_json()".toList).toOption =
        some [.ident "y", .op .assign, .ident "x", .sep, .ident "expect_json", .op .lparen, .op .rparen] := by
      decide +kernel
    exact (read_of_lex hlex).trans rfl
  have hbad : read "x = 1; (" = .error .unexpectedEnd := by
    have hlex : (lex "x = 1; (".toList).toOption = some [.ident "x", .op .assign, .int 1, .sep, .op .lparen] := by
      decide +kernel
    exact (read_of_lex hlex).trans rfl
  have hrun : (eval withoutJson "y = x;expect_json()").run (⟨[("x", .int 1)]⟩, []) =
      .error (.expression "no JSON") (⟨[("x", .int 1), ("y", .int 1)]⟩, [.json]) := by
    rw [eval_of_ok withoutJson hq]
    rfl
  have hname : ∀ ss e, read "y = x;expect_json()" = .ok ss → Statement.assign "x" e ∉ ss := by
    intro ss e hread hmem
    rw [hq] at hread
    cases hread
    simp at hmem
  obtain ⟨hcompose, hfails, hwrong, hkeeps⟩ := eval_composes withoutJson
  exact ⟨hp, hq, (hcompose _ _ _ _ hp hq).trans (bind_congr fun _ => bind_pure _),
    hfails _ _ _ _ _ _ _ hq hrun, hwrong _ _ .empty [] hbad,
    hkeeps _ "x" _ _ _ _ hname (.inr ⟨_, hrun⟩)⟩

end Conformance.Expr
