import Conformance.Expr.Eval

/-!
# Programs and the hosts that serve them

A program learns nothing of the state of its host but the captures that it is given back. So two hosts that answer
alike make the runs of a program alike: they end with the same value, or with the same fault, and with the same
variables, whatever else the hosts do.

* `EndsAlike` compares the ends of two runs, `ActsAlike` two actions from all states that are alike;
* `ActsAlike.bind` carries a comparison on from one action to the next;
* `eval_alike` is the comparison of a whole program under two hosts.
-/
namespace Conformance.Expr

variable {σ₁ σ₂ α β : Type}

/-! ## Runs that are alike -/

/-- How two runs are compared: which of their states are alike, and with which faults a run counts as given up, so
that it is compared no further. -/
structure Likeness (σ₁ σ₂ : Type) where
  alike : σ₁ → σ₂ → Prop
  gaveUp₁ : Fault → σ₁ → Prop := fun _ _ => False
  gaveUp₂ : Fault → σ₂ → Prop := fun _ _ => False

/-- Two runs end with the same value or the same fault, and in states that are alike, unless one was given up. -/
inductive EndsAlike (L : Likeness σ₁ σ₂) :
    EStateM.Result Fault σ₁ α → EStateM.Result Fault σ₂ α → Prop where
  | value {s₁ : σ₁} {s₂ : σ₂} (a : α) (h : L.alike s₁ s₂) : EndsAlike L (.ok a s₁) (.ok a s₂)
  | fault {s₁ : σ₁} {s₂ : σ₂} (f : Fault) (h : L.alike s₁ s₂) : EndsAlike L (.error f s₁) (.error f s₂)
  | gaveUp₁ {f : Fault} {s₁ : σ₁} (r : EStateM.Result Fault σ₂ α) (h : L.gaveUp₁ f s₁) :
    EndsAlike L (.error f s₁) r
  | gaveUp₂ {f : Fault} {s₂ : σ₂} (r : EStateM.Result Fault σ₁ α) (h : L.gaveUp₂ f s₂) :
    EndsAlike L r (.error f s₂)

/-- From states that are alike, the two actions end alike. -/
def ActsAlike (L : Likeness σ₁ σ₂) (x : EStateM Fault σ₁ α) (y : EStateM Fault σ₂ α) : Prop :=
  ∀ s₁ s₂, L.alike s₁ s₂ → EndsAlike L (x.run s₁) (y.run s₂)

variable {L L' : Likeness σ₁ σ₂}

/-- Runs that end alike do so under a comparison that asks for less. -/
theorem EndsAlike.mono {r₁ : EStateM.Result Fault σ₁ α} {r₂ : EStateM.Result Fault σ₂ α} (h : EndsAlike L r₁ r₂)
    (halike : ∀ s₁ s₂, L.alike s₁ s₂ → L'.alike s₁ s₂) (h₁ : ∀ f s, L.gaveUp₁ f s → L'.gaveUp₁ f s)
    (h₂ : ∀ f s, L.gaveUp₂ f s → L'.gaveUp₂ f s) : EndsAlike L' r₁ r₂ := by
  cases h with
  | value a h => exact .value a (halike _ _ h)
  | fault f h => exact .fault f (halike _ _ h)
  | gaveUp₁ _ h => exact .gaveUp₁ _ (h₁ _ _ h)
  | gaveUp₂ _ h => exact .gaveUp₂ _ (h₂ _ _ h)

/-- What follows two runs that end alike is compared from states that are alike. -/
theorem EndsAlike.bind {x : EStateM Fault σ₁ α} {y : EStateM Fault σ₂ α} {f : α → EStateM Fault σ₁ β}
    {g : α → EStateM Fault σ₂ β} {s₁ : σ₁} {s₂ : σ₂} (h : EndsAlike L (x.run s₁) (y.run s₂))
    (hfg : ∀ a u₁ u₂, x.run s₁ = .ok a u₁ → y.run s₂ = .ok a u₂ → L.alike u₁ u₂ →
      EndsAlike L ((f a).run u₁) ((g a).run u₂)) :
    EndsAlike L ((x >>= f).run s₁) ((y >>= g).run s₂) := by
  rw [EStateM.run_bind, EStateM.run_bind]
  generalize x.run s₁ = r₁ at h hfg
  generalize y.run s₂ = r₂ at h hfg
  cases h with
  | value a h => exact hfg a _ _ rfl rfl h
  | fault f h => exact .fault f h
  | gaveUp₁ r h => exact .gaveUp₁ _ h
  | gaveUp₂ r h => exact .gaveUp₂ _ h

theorem ActsAlike.bind {x : EStateM Fault σ₁ α} {y : EStateM Fault σ₂ α} {f : α → EStateM Fault σ₁ β}
    {g : α → EStateM Fault σ₂ β} (h : ActsAlike L x y) (hfg : ∀ a, ActsAlike L (f a) (g a)) :
    ActsAlike L (x >>= f) (y >>= g) :=
  fun s₁ s₂ hs => (h s₁ s₂ hs).bind fun a u₁ u₂ _ _ hu => hfg a u₁ u₂ hu

theorem actsAlike_pure (a : α) : ActsAlike L (pure a : EStateM Fault σ₁ α) (pure a) :=
  fun _ _ hs => .value a hs

theorem actsAlike_throw (f : Fault) : ActsAlike L (throw f : EStateM Fault σ₁ α) (throw f) :=
  fun _ _ hs => .fault f hs

theorem actsAlike_orFail (r : Except Problem α) : ActsAlike L (orFail r : EStateM Fault σ₁ α) (orFail r) := by
  cases r with
  | ok v => exact actsAlike_pure v
  | error p => exact actsAlike_throw p.fault

/-! ## Functions that a program calls -/

mutual

/-- The names of the functions that an expression calls. -/
def Tree.calls : Tree → List String
  | .literal _ => []
  | .var _ => []
  | .sign _ e => e.calls
  | .binary _ l r => l.calls ++ r.calls
  | .index t i => t.calls ++ i.calls
  | .call name args => name :: callsOfAll args

/-- The names of the functions that expressions call. -/
def callsOfAll : List Tree → List String
  | [] => []
  | e :: es => e.calls ++ callsOfAll es

end

/-- The names of the functions that a statement calls. -/
def Statement.calls : Statement → List String
  | .assign _ e => e.calls
  | .eval e => e.calls

/-- Whether the name is that of a function that expects a text of a pattern. -/
def ExpectsPattern (name : String) : Prop := Builtin.ofName? name = some .expectRegex

theorem not_expectsPattern {name : String} (h : name ≠ "expect_regex") (h' : name ≠ "regex") :
    ¬ExpectsPattern name := by
  unfold ExpectsPattern Builtin.ofName?
  simp only [List.lookup_cons, List.lookup_nil, beq_eq_false_iff_ne.2 h, beq_eq_false_iff_ne.2 h']
  repeat' split
  all_goals simp

/-! ## Evaluations under hosts that answer alike -/

section Hosts

variable {host₁ : Host σ₁} {host₂ : Host σ₂} {patterns : Prop}

/-- The hosts answer alike whatever is expected, texts of patterns only if `patterns` holds. -/
def HostsAlike (L : Likeness σ₁ σ₂) (patterns : Prop) (host₁ : Host σ₁) (host₂ : Host σ₂) : Prop :=
  ∀ e, (∀ p, e = .regex p → patterns) → ActsAlike L (host₁ e) (host₂ e)

/-- A built-in function hands on what its host answers. -/
theorem applyBuiltin_alike (hhost : HostsAlike L patterns host₁ host₂)
    {f : Builtin} (hf : f = .expectRegex → patterns) (name : String) (args : List Value) :
    ActsAlike L (applyBuiltin host₁ f name args) (applyBuiltin host₂ f name args) := by
  have hask : ∀ (e : Expectation) (k : Captures → Value), (∀ p, e = .regex p → patterns) →
      ActsAlike L (do let c ← host₁ e; return k c) (do let c ← host₂ e; return k c) :=
    fun e k he => (hhost e he).bind fun c => actsAlike_pure (k c)
  unfold applyBuiltin
  split
  · exact actsAlike_pure _
  · exact actsAlike_orFail _
  · exact actsAlike_orFail _
  · exact hask (.literal _) (fun _ => .null) (by simp)
  · exact hask (.regex _) capturesObject (fun _ _ => hf rfl)
  · exact actsAlike_throw _
  · exact hask .json (fun _ => .null) (by simp)
  · exact hask .relativeTime (fun _ => .null) (by simp)
  · exact hask .isoTime (fun _ => .null) (by simp)
  · exact actsAlike_throw _

mutual

theorem evalTree_alike (hhost : HostsAlike L patterns host₁ host₂) (env : Env) :
    (t : Tree) → (∀ name ∈ t.calls, ExpectsPattern name → patterns) →
      ActsAlike L (evalTree host₁ env t) (evalTree host₂ env t)
  | .literal v, _ => by
    rw [evalTree, evalTree]
    exact actsAlike_pure v
  | .var name, _ => by
    rw [evalTree, evalTree]
    cases env.get? name with
    | some v => exact actsAlike_pure v
    | none => exact actsAlike_throw _
  | .sign s e, h => by
    rw [evalTree, evalTree]
    exact (evalTree_alike hhost env e h).bind fun v => actsAlike_orFail _
  | .binary o l r, h => by
    rw [evalTree, evalTree]
    have hl : ∀ name ∈ l.calls, ExpectsPattern name → patterns :=
      fun name hname => h name (List.mem_append_left _ hname)
    have hr : ∀ name ∈ r.calls, ExpectsPattern name → patterns :=
      fun name hname => h name (List.mem_append_right _ hname)
    exact (evalTree_alike hhost env l hl).bind fun a =>
      (evalTree_alike hhost env r hr).bind fun b => actsAlike_orFail _
  | .index t i, h => by
    rw [evalTree, evalTree]
    have ht : ∀ name ∈ t.calls, ExpectsPattern name → patterns :=
      fun name hname => h name (List.mem_append_left _ hname)
    have hi : ∀ name ∈ i.calls, ExpectsPattern name → patterns :=
      fun name hname => h name (List.mem_append_right _ hname)
    exact (evalTree_alike hhost env t ht).bind fun a =>
      (evalTree_alike hhost env i hi).bind fun b => actsAlike_orFail _
  | .call name args, h => by
    rw [evalTree, evalTree]
    have hargs : ∀ n ∈ callsOfAll args, ExpectsPattern n → patterns :=
      fun n hn => h n (List.mem_cons_of_mem _ hn)
    refine (evalTrees_alike hhost env args hargs).bind fun values => ?_
    cases hf : Builtin.ofName? name with
    | some f =>
      refine applyBuiltin_alike hhost (fun hregex => h name List.mem_cons_self ?_) name values
      rw [ExpectsPattern, hf, hregex]
    | none => exact actsAlike_throw _

theorem evalTrees_alike (hhost : HostsAlike L patterns host₁ host₂) (env : Env) :
    (ts : List Tree) → (∀ name ∈ callsOfAll ts, ExpectsPattern name → patterns) →
      ActsAlike L (evalTrees host₁ env ts) (evalTrees host₂ env ts)
  | [], _ => by
    rw [evalTrees, evalTrees]
    exact actsAlike_pure []
  | e :: es, h => by
    rw [evalTrees, evalTrees]
    have he : ∀ name ∈ e.calls, ExpectsPattern name → patterns :=
      fun name hname => h name (List.mem_append_left _ hname)
    have hes : ∀ name ∈ callsOfAll es, ExpectsPattern name → patterns :=
      fun name hname => h name (List.mem_append_right _ hname)
    exact (evalTree_alike hhost env e he).bind fun v =>
      (evalTrees_alike hhost env es hes).bind fun vs => actsAlike_pure (v :: vs)

end

/-- The comparison of runs that carry the variables beside the state of their host: the variables have to be the
same. -/
def Likeness.withEnv (L : Likeness σ₁ σ₂) : Likeness (Env × σ₁) (Env × σ₂) where
  alike p q := p.1 = q.1 ∧ L.alike p.2 q.2
  gaveUp₁ f p := L.gaveUp₁ f p.2
  gaveUp₂ f p := L.gaveUp₂ f p.2

theorem run_evalBeside {σ : Type} (host : Host σ) (t : Tree) (env : Env) (s : σ) :
    (evalBeside host t).run (env, s) =
      match evalTree host env t s with
      | .ok v s => .ok v (env, s)
      | .error f s => .error f (env, s) := rfl

theorem evalBeside_alike (hhost : HostsAlike L patterns host₁ host₂) {t : Tree}
    (ht : ∀ name ∈ t.calls, ExpectsPattern name → patterns) :
    ActsAlike L.withEnv (evalBeside host₁ t) (evalBeside host₂ t) := by
  rintro ⟨env, s₁⟩ ⟨env', s₂⟩ ⟨henv, hs⟩
  obtain rfl : env = env' := henv
  have hends : EndsAlike L (evalTree host₁ env t s₁) (evalTree host₂ env t s₂) :=
    evalTree_alike hhost env t ht s₁ s₂ hs
  rw [run_evalBeside, run_evalBeside]
  generalize evalTree host₁ env t s₁ = r₁ at hends
  generalize evalTree host₂ env t s₂ = r₂ at hends
  cases hends with
  | value a h => exact EndsAlike.value a (And.intro rfl h : L.withEnv.alike (env, _) (env, _))
  | fault f h => exact EndsAlike.fault f (And.intro rfl h : L.withEnv.alike (env, _) (env, _))
  | gaveUp₁ r h => exact EndsAlike.gaveUp₁ _ (h : L.withEnv.gaveUp₁ _ (env, _))
  | gaveUp₂ r h => exact EndsAlike.gaveUp₂ _ (h : L.withEnv.gaveUp₂ _ (env, _))

theorem runStatement_alike (hhost : HostsAlike L patterns host₁ host₂)
    {s : Statement} (hs : ∀ name ∈ s.calls, ExpectsPattern name → patterns) :
    ActsAlike L.withEnv (runStatement host₁ s) (runStatement host₂ s) := by
  cases s with
  | assign name e =>
    refine (evalBeside_alike hhost hs).bind fun v => ?_
    rintro ⟨env, s₁⟩ ⟨env', s₂⟩ ⟨henv, halike⟩
    obtain rfl : env = env' := henv
    exact EndsAlike.value Value.null
      (And.intro rfl halike : L.withEnv.alike (env.set name v, s₁) (env.set name v, s₂))
  | eval e => exact evalBeside_alike hhost hs

theorem runStatements_alike (hhost : HostsAlike L patterns host₁ host₂)
    {program : List Statement} (hcalls : ∀ name ∈ program.flatMap Statement.calls, ExpectsPattern name → patterns)
    (last : Value) : ActsAlike L.withEnv (runStatements host₁ last program) (runStatements host₂ last program) := by
  induction program generalizing last with
  | nil => exact actsAlike_pure last
  | cons s rest ih =>
    rw [List.flatMap_cons] at hcalls
    have hs : ∀ name ∈ s.calls, ExpectsPattern name → patterns :=
      fun name hname => hcalls name (List.mem_append_left _ hname)
    exact (runStatement_alike hhost hs).bind fun v =>
      ih (fun name hname => hcalls name (List.mem_append_right _ hname)) v

/-- The runs of a program under two hosts are alike if the hosts answer alike. Nothing need be known of how they answer
patterns if the program calls no function that expects one. -/
theorem eval_alike (hhost : HostsAlike L patterns host₁ host₂) {src : String}
    (hcalls : ∀ program, read src = .ok program →
      ∀ name ∈ program.flatMap Statement.calls, ExpectsPattern name → patterns) :
    ActsAlike L.withEnv (eval host₁ src) (eval host₂ src) := by
  unfold eval
  cases hread : read src with
  | ok program => exact runStatements_alike hhost (hcalls program hread) .null
  | error p => exact actsAlike_throw p.fault

end Hosts

end Conformance.Expr
