import Conformance.Proofs.Expr.Hosts

/-!
# What an evaluation expects

An evaluation reaches its host by the expectations that it raises, and goes on with what the host answers. `Raises` says
which expectations an expression raises, in which order, and how its evaluation comes out, without a host: operands and
arguments from left to right, those of a call before its own, and none behind a failure. `Performs` says the same of
statements that all succeed, with the variables that they leave.

* `evalTree_ends` says that under every host an evaluation is one of these, and that the host is left as the
  expectations leave it;
* `runStatements_ok` and `runStatements_error` say it of programs: a failure leaves the variables of the statements in
  front of it.
-/
namespace Conformance.Expr

variable {σ α β : Type} {host : Host σ} {s s' s₁ : σ} {env env' : Env}

/-! ## Functions -/

namespace Builtin

/-- The expectation that the function raises for these arguments. -/
def expectation? (f : Builtin) (args : List Value) : Option Expectation :=
  match f, args with
  | expectStr, [v] => some (.literal v.text)
  | expectRegex, [.str pattern] => some (.regex pattern)
  | expectJson, [] => some .json
  | expectRelativeTime, [] => some .relativeTime
  | expectIsoTime, [] => some .isoTime
  | _, _ => none

/-- The value of the function once its expectation is met. -/
def answer (f : Builtin) (captures : Captures) : Value := if f = expectRegex then capturesObject captures else .null

/-- What the function, called by `name`, makes of arguments for which it expects nothing. -/
def compute (f : Builtin) (name : String) (args : List Value) : Except Problem Value :=
  match f, args with
  | str, [v] => .ok (.str v.text)
  | int, [v] => toInt v
  | len, [v] => lengthOf v
  | expectRegex, [_] => .error (.patternType name)
  | f, args => .error (.arity name f.arity args.length)

end Builtin

theorem applyBuiltin_of_some {f : Builtin} {args : List Value} {e : Expectation} (h : f.expectation? args = some e)
    (name : String) : applyBuiltin host f name args = do let c ← host e; return f.answer c := by
  unfold Builtin.expectation? at h
  split at h <;> cases h <;> rfl

theorem applyBuiltin_of_none {f : Builtin} {args : List Value} (h : f.expectation? args = none) (name : String) :
    applyBuiltin host f name args = orFail (f.compute name args) := by
  unfold applyBuiltin
  split
  · rfl
  · rfl
  · rfl
  · cases h
  · cases h
  · rfl
  · cases h
  · cases h
  · cases h
  · rw [Builtin.compute]
    · rfl
    all_goals assumption

/-! ## Expectations of an expression -/

/-- How an evaluation fails. -/
inductive EvalFailure where
  | problem (p : Problem)
  /-- The host did not grant the expectation. -/
  | refused (e : Expectation)

/-- The problem, as a failure of the evaluation. -/
def failing {α : Type} (r : Except Problem α) : Except EvalFailure α := r.mapError .problem

mutual

/-- In this environment the evaluation of the expression raises these expectations one after another, comes out so if
they are granted with these captures, and raises no other. -/
inductive Raises (env : Env) : Tree → List (Expectation × Captures) → Except EvalFailure Value → Prop where
  | literal (v : Value) : Raises env (.literal v) [] (.ok v)
  | var {name : String} {v : Value} (h : env.get? name = some v) : Raises env (.var name) [] (.ok v)
  | undefined {name : String} (h : env.get? name = none) :
    Raises env (.var name) [] (.error (.problem (.undefined name)))
  | sign (o : Sign) {e : Tree} {granted : List (Expectation × Captures)} {r : Except EvalFailure Value}
    (h : Raises env e granted r) : Raises env (.sign o e) granted (r >>= fun v => failing (applySign o v))
  | left (o : Binary) {l : Tree} (r : Tree) {granted : List (Expectation × Captures)} {f : EvalFailure}
    (h : Raises env l granted (.error f)) : Raises env (.binary o l r) granted (.error f)
  | binary (o : Binary) {l r : Tree} {granted granted' : List (Expectation × Captures)} {a : Value}
    {b : Except EvalFailure Value} (hl : Raises env l granted (.ok a)) (hr : Raises env r granted' b) :
    Raises env (.binary o l r) (granted ++ granted') (b >>= fun b => failing (applyBinary o a b))
  | target {t : Tree} (i : Tree) {granted : List (Expectation × Captures)} {f : EvalFailure}
    (h : Raises env t granted (.error f)) : Raises env (.index t i) granted (.error f)
  | index {t i : Tree} {granted granted' : List (Expectation × Captures)} {a : Value} {b : Except EvalFailure Value}
    (ht : Raises env t granted (.ok a)) (hi : Raises env i granted' b) :
    Raises env (.index t i) (granted ++ granted') (b >>= fun b => failing (applyIndex a b))
  | argument (name : String) {args : List Tree} {granted : List (Expectation × Captures)} {f : EvalFailure}
    (h : RaisesAll env args granted (.error f)) : Raises env (.call name args) granted (.error f)
  | unknown {name : String} {args : List Tree} {granted : List (Expectation × Captures)} {vs : List Value}
    (h : RaisesAll env args granted (.ok vs)) (hf : Builtin.ofName? name = none) :
    Raises env (.call name args) granted (.error (.problem (.unknownFunction name)))
  | computed {name : String} {args : List Tree} {granted : List (Expectation × Captures)} {vs : List Value}
    {f : Builtin} (h : RaisesAll env args granted (.ok vs)) (hf : Builtin.ofName? name = some f)
    (he : f.expectation? vs = none) :
    Raises env (.call name args) granted (failing (f.compute name vs))
  | granted {name : String} {args : List Tree} {granted : List (Expectation × Captures)} {vs : List Value} {f : Builtin}
    {e : Expectation} (h : RaisesAll env args granted (.ok vs)) (hf : Builtin.ofName? name = some f)
    (he : f.expectation? vs = some e) (captures : Captures) :
    Raises env (.call name args) (granted ++ [(e, captures)]) (.ok (f.answer captures))
  | refused {name : String} {args : List Tree} {granted : List (Expectation × Captures)} {vs : List Value} {f : Builtin}
    {e : Expectation} (h : RaisesAll env args granted (.ok vs)) (hf : Builtin.ofName? name = some f)
    (he : f.expectation? vs = some e) : Raises env (.call name args) granted (.error (.refused e))

/-- The same of expressions that are evaluated from left to right. -/
inductive RaisesAll (env : Env) :
    List Tree → List (Expectation × Captures) → Except EvalFailure (List Value) → Prop where
  | nil : RaisesAll env [] [] (.ok [])
  | head {e : Tree} (es : List Tree) {granted : List (Expectation × Captures)} {f : EvalFailure}
    (h : Raises env e granted (.error f)) : RaisesAll env (e :: es) granted (.error f)
  | cons {e : Tree} {es : List Tree} {granted granted' : List (Expectation × Captures)} {v : Value}
    {vs : Except EvalFailure (List Value)} (h : Raises env e granted (.ok v)) (hs : RaisesAll env es granted' vs) :
    RaisesAll env (e :: es) (granted ++ granted') (vs.map (v :: ·))

end

/-! ## Hosts -/

/-- From one state to the other, the host was asked these expectations and no other, and granted them with these
captures. -/
inductive Serves (host : Host σ) : σ → List (Expectation × Captures) → σ → Prop where
  | nil (s : σ) : Serves host s [] s
  | cons {s s₁ s' : σ} {e : Expectation} {captures : Captures} {granted : List (Expectation × Captures)}
    (h : host e s = .ok captures s₁) (hs : Serves host s₁ granted s') : Serves host s ((e, captures) :: granted) s'

theorem Serves.append {granted granted' : List (Expectation × Captures)} (h : Serves host s granted s₁)
    (h' : Serves host s₁ granted' s') : Serves host s (granted ++ granted') s' := by
  induction h with
  | nil => exact h'
  | cons he hs ih => exact .cons he (ih h')

/-- Granted these expectations, a run that comes out so under the host ends with this. -/
inductive Ends (host : Host σ) (s : σ) (granted : List (Expectation × Captures)) :
    Except EvalFailure α → EStateM.Result Fault σ α → Prop where
  | value {s' : σ} (a : α) (h : Serves host s granted s') : Ends host s granted (.ok a) (.ok a s')
  | problem {s' : σ} (p : Problem) (h : Serves host s granted s') :
    Ends host s granted (.error (.problem p)) (.error p.fault s')
  | refused {s₁ s' : σ} {e : Expectation} {f : Fault} (h : Serves host s granted s₁) (he : host e s₁ = .error f s') :
    Ends host s granted (.error (.refused e)) (.error f s')

/-- What ends behind expectations that were granted. -/
theorem Ends.behind {granted granted' : List (Expectation × Captures)} {out : Except EvalFailure α}
    {r : EStateM.Result Fault σ α} (hs : Serves host s granted s₁) (h : Ends host s₁ granted' out r) :
    Ends host s (granted ++ granted') out r := by
  cases h with
  | value a h => exact .value a (hs.append h)
  | problem p h => exact .problem p (hs.append h)
  | refused h he => exact .refused (hs.append h) he

theorem Ends.orFail {granted : List (Expectation × Captures)} (h : Serves host s granted s') (r : Except Problem α) :
    Ends host s granted (failing r) ((Expr.orFail r : EStateM Fault σ α).run s') := by
  cases r with
  | ok a => exact .value a h
  | error p => exact .problem p h

/-- A run that goes on with its value, if it comes to one. -/
theorem Ends.bind {granted : List (Expectation × Captures)} {out : Except EvalFailure α} {x : EStateM Fault σ α}
    {f : α → EStateM Fault σ β} (h : Ends host s granted out (x.run s)) :
    (∃ failure, out = .error failure ∧ Ends host s granted (.error failure) ((x >>= f).run s)) ∨
      ∃ a s₁, out = .ok a ∧ Serves host s granted s₁ ∧ (x >>= f).run s = (f a).run s₁ := by
  rw [EStateM.run_bind]
  generalize x.run s = r at h
  cases h with
  | value a h => exact .inr ⟨a, _, rfl, h, rfl⟩
  | problem p h => exact .inl ⟨_, rfl, .problem p h⟩
  | refused h he => exact .inl ⟨_, rfl, .refused h he⟩

/-- A run that goes on without its host. -/
theorem Ends.bind_orFail {granted : List (Expectation × Captures)} {out : Except EvalFailure α} {x : EStateM Fault σ α}
    (h : Ends host s granted out (x.run s)) (f : α → Except Problem β) :
    Ends host s granted (out >>= fun a => failing (f a)) ((x >>= fun a => Expr.orFail (f a)).run s) := by
  obtain ⟨failure, rfl, hends⟩ | ⟨a, s₁, rfl, hs, hrun⟩ := h.bind (f := fun a => Expr.orFail (f a))
  · exact hends
  · rw [hrun]
    exact .orFail hs (f a)

/-! ## Expressions -/

theorem applyBuiltin_ends (host : Host σ) {env : Env} {name : String} {args : List Tree} {f : Builtin}
    {vs : List Value} {granted : List (Expectation × Captures)} (hargs : RaisesAll env args granted (.ok vs))
    (hf : Builtin.ofName? name = some f) (hs : Serves host s granted s₁) :
    ∃ granted' out, Raises env (.call name args) granted' out ∧
      Ends host s granted' out ((applyBuiltin host f name vs).run s₁) := by
  cases he : f.expectation? vs with
  | none =>
    rw [applyBuiltin_of_none he]
    exact ⟨_, _, .computed hargs hf he, .orFail hs _⟩
  | some e =>
    rw [applyBuiltin_of_some he, EStateM.run_bind]
    cases hasked : (host e).run s₁ with
    | ok captures s' => exact ⟨_, _, .granted hargs hf he captures, .value _ (hs.append (.cons hasked (.nil s')))⟩
    | error fault s' => exact ⟨_, _, .refused hargs hf he, .refused hs hasked⟩

mutual

/-- Every evaluation raises its expectations and comes out as they are granted. -/
theorem evalTree_ends (host : Host σ) (env : Env) (s : σ) :
    (t : Tree) → ∃ granted out, Raises env t granted out ∧ Ends host s granted out ((evalTree host env t).run s)
  | .literal v => by
    rw [evalTree]
    exact ⟨_, _, .literal v, .value v (.nil s)⟩
  | .var name => by
    rw [evalTree]
    cases h : env.get? name with
    | some v => exact ⟨_, _, .var h, .value v (.nil s)⟩
    | none => exact ⟨_, _, .undefined h, .problem _ (.nil s)⟩
  | .sign o e => by
    rw [evalTree]
    obtain ⟨granted, out, hraises, hends⟩ := evalTree_ends host env s e
    exact ⟨_, _, hraises.sign o, hends.bind_orFail _⟩
  | .binary o l r => by
    rw [evalTree]
    obtain ⟨granted, out, hraises, hends⟩ := evalTree_ends host env s l
    obtain ⟨failure, rfl, hends⟩ | ⟨a, s₁, rfl, hs, hrun⟩ := hends.bind
    · exact ⟨_, _, hraises.left o r, hends⟩
    · obtain ⟨granted', out', hraises', hends'⟩ := evalTree_ends host env s₁ r
      rw [hrun]
      exact ⟨_, _, hraises.binary o hraises', .behind hs (hends'.bind_orFail _)⟩
  | .index t i => by
    rw [evalTree]
    obtain ⟨granted, out, hraises, hends⟩ := evalTree_ends host env s t
    obtain ⟨failure, rfl, hends⟩ | ⟨a, s₁, rfl, hs, hrun⟩ := hends.bind
    · exact ⟨_, _, hraises.target i, hends⟩
    · obtain ⟨granted', out', hraises', hends'⟩ := evalTree_ends host env s₁ i
      rw [hrun]
      exact ⟨_, _, hraises.index hraises', .behind hs (hends'.bind_orFail _)⟩
  | .call name args => by
    rw [evalTree]
    obtain ⟨granted, out, hraises, hends⟩ := evalTrees_ends host env s args
    obtain ⟨failure, rfl, hends⟩ | ⟨vs, s₁, rfl, hs, hrun⟩ := hends.bind
    · exact ⟨_, _, .argument name hraises, hends⟩
    · rw [hrun]
      cases hf : Builtin.ofName? name with
      | none => exact ⟨_, _, .unknown hraises hf, .problem _ hs⟩
      | some f => exact applyBuiltin_ends host hraises hf hs

theorem evalTrees_ends (host : Host σ) (env : Env) (s : σ) :
    (ts : List Tree) →
      ∃ granted out, RaisesAll env ts granted out ∧ Ends host s granted out ((evalTrees host env ts).run s)
  | [] => by
    rw [evalTrees]
    exact ⟨_, _, .nil, .value [] (.nil s)⟩
  | e :: es => by
    rw [evalTrees]
    obtain ⟨granted, out, hraises, hends⟩ := evalTree_ends host env s e
    obtain ⟨failure, rfl, hends⟩ | ⟨v, s₁, rfl, hs, hrun⟩ := hends.bind
    · exact ⟨_, _, .head es hraises, hends⟩
    · obtain ⟨granted', out', hraises', hends'⟩ := evalTrees_ends host env s₁ es
      rw [hrun]
      refine ⟨_, _, .cons hraises hraises', .behind hs ?_⟩
      obtain ⟨failure, rfl, hends'⟩ | ⟨vs, s', rfl, hs', hrun'⟩ := hends'.bind
      · exact hends'
      · rw [hrun']
        exact .value (v :: vs) hs'

end

/-! ## Statements -/

/-- The expression of a statement. -/
def Statement.expression : Statement → Tree
  | assign _ e => e
  | eval e => e

/-- The variables behind a statement whose expression has this value. -/
def Statement.assigned (stmt : Statement) (env : Env) (v : Value) : Env :=
  match stmt with
  | assign name _ => env.set name v
  | eval _ => env

/-- The statements raise these expectations one after another, all succeed if they are granted with these captures, and
leave these variables. -/
inductive Performs : Env → List Statement → List (Expectation × Captures) → Env → Prop where
  | nil (env : Env) : Performs env [] [] env
  | cons {env env' : Env} {stmt : Statement} {ss : List Statement} {granted granted' : List (Expectation × Captures)}
    {v : Value} (h : Raises env stmt.expression granted (.ok v))
    (hs : Performs (stmt.assigned env v) ss granted' env') :
    Performs env (stmt :: ss) (granted ++ granted') env'

/-- A variable that the statements do not assign to keeps its value. -/
theorem Performs.get?_eq {ss : List Statement} {granted : List (Expectation × Captures)}
    (h : Performs env ss granted env') {name : String} (hname : ∀ e, .assign name e ∉ ss) :
    env'.get? name = env.get? name := by
  induction h with
  | nil env => rfl
  | @cons env env' stmt ss granted granted' v hraises hs ih =>
    rw [ih fun e hmem => hname e (List.mem_cons_of_mem _ hmem)]
    cases stmt with
    | assign other e =>
      refine Env.get?_set_of_ne env v ?_
      rintro rfl
      exact hname e List.mem_cons_self
    | eval e => rfl

/-- The value of a statement whose expression has this value. -/
def Statement.result (stmt : Statement) (v : Value) : Value :=
  match stmt with
  | assign _ _ => .null
  | eval _ => v

theorem run_evalBeside_of_ok {e : Tree} {v : Value} (h : evalTree host env e s = .ok v s') :
    (evalBeside host e).run (env, s) = .ok v (env, s') := by
  rw [run_evalBeside, h]

theorem run_evalBeside_of_error {e : Tree} {f : Fault} (h : evalTree host env e s = .error f s') :
    (evalBeside host e).run (env, s) = .error f (env, s') := by
  rw [run_evalBeside, h]

theorem run_runStatement_of_ok {stmt : Statement} {v : Value}
    (h : (evalTree host env stmt.expression).run s = .ok v s') :
    (runStatement host stmt).run (env, s) = .ok (stmt.result v) (stmt.assigned env v, s') := by
  cases stmt with
  | assign name e =>
    rw [runStatement, EStateM.run_bind, run_evalBeside_of_ok (e := e) h]
    rfl
  | eval e => exact run_evalBeside_of_ok h

theorem run_runStatement_of_error {stmt : Statement} {f : Fault}
    (h : (evalTree host env stmt.expression).run s = .error f s') :
    (runStatement host stmt).run (env, s) = .error f (env, s') := by
  cases stmt with
  | assign name e => rw [runStatement, EStateM.run_bind, run_evalBeside_of_error (e := e) h]
  | eval e => exact run_evalBeside_of_error h

/-- A program that succeeds carries out all its statements. -/
theorem runStatements_ok {ss : List Statement} {last v : Value}
    (h : (runStatements host last ss).run (env, s) = .ok v (env', s')) :
    ∃ granted, Performs env ss granted env' ∧ Serves host s granted s' := by
  induction ss generalizing last env s with
  | nil =>
    cases h
    exact ⟨[], .nil _, .nil _⟩
  | cons stmt ss ih =>
    rw [runStatements, EStateM.run_bind] at h
    obtain ⟨granted, out, hraises, hends⟩ := evalTree_ends host env s stmt.expression
    cases hrun : (evalTree host env stmt.expression).run s with
    | ok a s₁ =>
      rw [run_runStatement_of_ok hrun] at h
      rw [hrun] at hends
      obtain ⟨granted', hperforms, hserves⟩ := ih h
      cases hends with
      | value _ hs => exact ⟨granted ++ granted', .cons hraises hperforms, hs.append hserves⟩
    | error f s₁ =>
      rw [run_runStatement_of_error hrun] at h
      cases h

/-- A program that fails does so at one of its statements, with the variables as those in front of it leave them. -/
theorem runStatements_error {ss : List Statement} {last : Value} {f : Fault}
    (h : (runStatements host last ss).run (env, s) = .error f (env', s')) :
    ∃ before stmt after granted granted' failure s₁, ss = before ++ stmt :: after ∧ Performs env before granted env' ∧
      Serves host s granted s₁ ∧ Raises env' stmt.expression granted' (.error failure) ∧
        Ends host s₁ granted' (.error failure : Except EvalFailure Value) (.error f s') := by
  induction ss generalizing last env s with
  | nil => cases h
  | cons stmt ss ih =>
    rw [runStatements, EStateM.run_bind] at h
    obtain ⟨granted, out, hraises, hends⟩ := evalTree_ends host env s stmt.expression
    cases hrun : (evalTree host env stmt.expression).run s with
    | ok a s₁ =>
      rw [run_runStatement_of_ok hrun] at h
      rw [hrun] at hends
      obtain ⟨before, stmt', after, granted', granted'', failure, s₂, rfl, hperforms, hserves, hfails⟩ := ih h
      cases hends with
      | value _ hs =>
        exact ⟨stmt :: before, stmt', after, granted ++ granted', granted'', failure, s₂, rfl, .cons hraises hperforms,
          hs.append hserves, hfails⟩
    | error g s₁ =>
      rw [run_runStatement_of_error hrun] at h
      rw [hrun] at hends
      cases h
      cases hends with
      | problem p hs => exact ⟨[], stmt, ss, [], granted, _, s, rfl, .nil _, .nil s, hraises, .problem p hs⟩
      | refused hs he => exact ⟨[], stmt, ss, [], granted, _, s, rfl, .nil _, .nil s, hraises, .refused hs he⟩

end Conformance.Expr
