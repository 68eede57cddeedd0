import Conformance.Proofs.Expr.NormalForm
import Conformance.Proofs.Expr.Numerals
import Conformance.Proofs.Runs.Outcomes
import Conformance.Proofs.Script.Assignments

/-!
# Values of a run are in normal form

The variables that a test declares are turned into values in normal form, however they are written (`seedVars_isNormal`),
and those that a setup adds are texts and integers (`keepsVars_setup`). Programs keep them so, hence wherever a run comes
to a statement of an expression block the variables are in normal form (`Plan.ComesTo.isNormal`), and there what is taken
out of JSON compares by content (`values_stay_normal`).
-/
namespace Conformance.Cases

open Yaml Expr

/-! ## Variables of a test -/

/-- A sequence, a mapping and a tagged value are arrays and objects in JSON. -/
theorem isNormal_scriptValue {data : Data} {v : Value} (h : Environment.scriptValue data = .ok v) : v.IsNormal := by
  cases data with
  | null => exact Except.ok.inj h ▸ Value.isNormal_null
  | bool b => exact Except.ok.inj h ▸ Value.isNormal_bool b
  | int n =>
    unfold Environment.scriptValue at h
    dsimp only at h
    split at h
    · exact Except.ok.inj h ▸ Value.isNormal_int _
    · exact Except.ok.inj h ▸ Value.isNormal_str _
  | float x => exact Except.ok.inj h ▸ Value.isNormal_str _
  | str s => exact Except.ok.inj h ▸ Value.isNormal_str s
  | seq items =>
    unfold Environment.scriptValue at h
    dsimp only at h
    split at h
    · rename_i j hj
      obtain ⟨items', -, rfl⟩ := Option.map_eq_some_iff.1 hj
      exact Except.ok.inj h ▸ Value.isNormal_arr items'
    · cases h
  | map pairs =>
    unfold Environment.scriptValue at h
    dsimp only at h
    split at h
    · rename_i j hj
      obtain ⟨members, -, rfl⟩ := Option.map_eq_some_iff.1 hj
      exact Except.ok.inj h ▸ Value.isNormal_obj _
    · cases h
  | tagged tag value =>
    unfold Environment.scriptValue at h
    dsimp only at h
    split at h
    · rename_i j hj
      obtain ⟨inner, -, rfl⟩ := Option.map_eq_some_iff.1 hj
      exact Except.ok.inj h ▸ Value.isNormal_obj _
    · cases h

/-- What every step of a fold keeps holds at its end. -/
theorem foldlM_keeps {α β ε : Type} {P : β → Prop} {f : β → α → Except ε β}
    (hf : ∀ {b a b'}, P b → f b a = .ok b' → P b') {as : List α} {b b' : β} (hb : P b) (h : as.foldlM f b = .ok b') :
    P b' := by
  induction as generalizing b with
  | nil => exact Except.ok.inj h ▸ hb
  | cons a as ih =>
    obtain ⟨c, hc, h⟩ := bind_eq_ok h
    exact ih (hf hb hc) h

/-- The variables that scripts start with are in normal form. -/
theorem seedVars_isNormal {e : Environment} {env : Env} (h : e.seedVars = .ok env) : env.IsNormal := by
  unfold Environment.seedVars at h
  refine foldlM_keeps (fun {env entry env'} henv hset => ?_) Env.isNormal_empty h
  obtain ⟨v, hv, heq⟩ := bind_eq_ok hset
  exact Except.ok.inj heq ▸ henv.set entry.1 (isNormal_scriptValue hv)

end Conformance.Cases

namespace Conformance.Runs

open Expr Script Service

variable {σ : Type} {P : Env → Prop}

/-! ## Variables of a setup -/

theorem keepsVars_setVariable (name : String) {v : Value} (hv : v.IsNormal) :
    KeepsVars Env.IsNormal (setVariable name v : Action (Bench σ) Unit) := fun _ hs => hs.set name hv

theorem keepsVars_onWorld {α : Type} (e : Effect σ α) : KeepsVars P (onWorld e) := by
  refine keepsVars_of_eq fun s => ?_
  cases he : e s.link.world with
  | ok a w =>
    have hrun : (onWorld e).run s = .ok a { s with link := { s.link with world := w } } := by
      show onWorld e s = _
      rw [onWorld, he]
    rw [endOf_of_ok hrun]
  | error f w =>
    have hrun : (onWorld e).run s = .error f { s with link := { s.link with world := w } } := by
      show onWorld e s = _
      rw [onWorld, he]
    rw [endOf_of_error hrun]

namespace Plan

variable (o : Outside σ) (p : Plan)

theorem keepsVars_takePort (asked : Option UInt16) : KeepsVars P (takePort o asked) := by
  intro s hs
  have hports : Upholds (fun u => P u.vars) (fun u => P u.vars) (takePort o asked) :=
    upholds_takePort o asked (fun _ _ h => h) fun _ h => h
  cases hrun : (takePort o asked).run s with
  | ok port u =>
    rw [endOf_of_ok hrun]
    exact (hports s hs).of_ok port u hrun
  | error f u =>
    rw [endOf_of_error hrun]
    exact (hports s hs).of_error f u hrun

theorem keepsVars_openCaller (c : Cases.ClientSpec) (host : String) (port : UInt16) (handle : Option Handle) :
    KeepsVars P (p.openCaller o c host port handle) := by
  refine keepsVars_get_bind fun u => ?_
  split
  · exact keepsVars_pure _
  · cases handle with
    | none => exact keepsVars_throw _
    | some handle => exact keepsVars_bind (keepsVars_onWorld _) fun _ => keepsVars_throw _

theorem keepsVars_enlist (name : String) (caller : Service.Caller) (handle : Option Handle) :
    KeepsVars P (enlist o name caller handle) := by
  rw [enlist_eq]
  refine keepsVars_get_bind fun u => ?_
  dsimp only
  have hrest : ∀ change : Bench σ → Bench σ, KeepsVars P (do
      onBench change
      modify (·.register { name }) : Action (Bench σ) Unit) :=
    fun change => keepsVars_bind (keepsVars_modify fun _ => rfl) fun _ => keepsVars_modify fun _ => rfl
  split
  · exact keepsVars_bind (keepsVars_onWorld _) fun _ => hrest _
  · exact hrest _

theorem keepsVars_awaitService (caller : Service.Caller) (handle : Handle) (pid : Nat) :
    KeepsVars P (p.awaitService o caller handle pid) := by
  refine keepsVars_of_eq fun s => ?_
  obtain ⟨done, -, ⟨hok, -⟩ | ⟨fault, herror⟩⟩ := awaitService_cases o p caller handle pid s
  · rw [endOf, EStateM.run, hok]
  · rw [endOf, EStateM.run, herror]

theorem keepsVars_spawnClient (c : Cases.ClientSpec) : KeepsVars Env.IsNormal (p.spawnClient o c) := by
  refine keepsVars_bind (keepsVars_takePort o _) fun p2p => keepsVars_bind (keepsVars_takePort o _) fun rpc =>
    keepsVars_bind (keepsVars_takePort o _) fun http => keepsVars_get_bind fun u => ?_
  dsimp only
  split
  · rw [pure_bind]
    refine keepsVars_bind (keepsVars_onWorld _) fun _ => keepsVars_bind (keepsVars_onWorld _) fun handle =>
      keepsVars_bind (p.keepsVars_openCaller o c _ _ _) fun caller =>
      keepsVars_bind (keepsVars_setVariable _ (Value.isNormal_int _)) fun _ =>
      keepsVars_bind (keepsVars_setVariable _ (Value.isNormal_int _)) fun _ =>
      keepsVars_bind (keepsVars_setVariable _ (Value.isNormal_int _)) fun _ =>
      keepsVars_bind (keepsVars_enlist o _ _ _) fun _ => ?_
    split
    · exact p.keepsVars_awaitService o _ _ _
    · exact keepsVars_pure _
  · exact keepsVars_throw _

theorem keepsVars_connectClient (c : Cases.ClientSpec) : KeepsVars Env.IsNormal (p.connectClient o c) := by
  rw [connectClient]
  split
  · exact keepsVars_throw _
  · exact keepsVars_bind (p.keepsVars_openCaller o c _ _ _) fun caller =>
      keepsVars_bind (keepsVars_setVariable _ (Value.isNormal_int _)) fun _ => keepsVars_enlist o _ _ _

theorem keepsVars_bringUp (clients : List Cases.ClientSpec) : KeepsVars Env.IsNormal (p.bringUp o clients) := by
  induction clients with
  | nil => exact keepsVars_pure ()
  | cons c rest ih =>
    rw [bringUp]
    dsimp only
    split
    · exact keepsVars_bind (p.keepsVars_spawnClient o c) fun _ => ih
    · exact keepsVars_bind (p.keepsVars_connectClient o c) fun _ => ih

/-- A setup replaces the variables by those of the test, and adds texts and integers. -/
theorem keepsVars_setup : KeepsVars Env.IsNormal (p.setup o) := by
  refine keepsVars_bind (keepsVars_onWorld _) fun _ => ?_
  dsimp only
  split
  · rename_i vars hvars
    rw [pure_bind]
    have hset : KeepsVars Env.IsNormal (modify fun s => { s with vars } : Action (Bench σ) Unit) :=
      fun _ _ => Cases.seedVars_isNormal hvars
    refine keepsVars_bind hset fun _ => keepsVars_bind (keepsVars_setVariable _ (Value.isNormal_str _)) fun _ =>
      keepsVars_bind (keepsVars_setVariable _ (Value.isNormal_str _)) fun _ =>
      keepsVars_bind (p.keepsVars_bringUp o _) fun _ => ?_
    split
    · exact keepsVars_modify fun _ => rfl
    · exact keepsVars_pure ()
  · exact keepsVars_throw _

/-! ## Places of a run -/

/-- The run is set up, its scripts in front of this one run through, and this one comes to the place. -/
def Visits (ports : Ports.Allocator) (w : World σ) (path : String) (v : Visit (Bench σ)) : Prop :=
  ∃ s₁ s₂ front rest src, (p.setup o).run { link := p.bench ports w } = .ok () s₁ ∧
    scriptFiles s₁.link.world.disk p.case.dir p.settings.runner.scriptExtension = .ok (front ++ path :: rest) ∧
    (runFiles (Bench.link o) (·.world.disk) front).run s₁ = .ok () s₂ ∧ s₂.link.world.disk.readText path = .ok src ∧
    v ∈ scriptVisits (Bench.link o) path src s₂

/-- The run comes to this statement of an expression block at this site, with these variables, in this session. -/
def ComesTo (ports : Ports.Allocator) (w : World σ) (site : Site) (stmt : Statement) (env : Env)
    (s : Session (Bench σ)) : Prop :=
  ∃ v t source recorded before after r, p.Visits o ports w site.file v ∧ v.next = some t ∧ t.place = site.place ∧
    t.kind = .expression ∧ t.expressionParts? = some (source, recorded) ∧
    Expr.read source = .ok (before ++ stmt :: after) ∧
    (runStatements (check site .capture) .null before).run (v.session.vars, v.session) = .ok r (env, s)

variable {o p} {ports : Ports.Allocator} {w : World σ}

theorem keptByPrograms_isNormal (σ : Type) : KeptByPrograms σ Env.IsNormal :=
  fun _ _ _ _ _ _ henv => ⟨fun _ h => (eval_isNormal h henv).2, fun _ h => eval_error_isNormal h henv⟩

/-- Wherever a script of the run comes to, variables are in normal form. -/
theorem Visits.isNormal {path : String} {v : Visit (Bench σ)} (h : p.Visits o ports w path v) :
    v.session.vars.IsNormal := by
  obtain ⟨s₁, s₂, front, rest, src, hsetup, -, hfront, -, hv⟩ := h
  have hstart : ({ link := p.bench ports w } : Session (Bench σ)).vars.IsNormal := Env.isNormal_empty
  have h₁ := p.keepsVars_setup o _ hstart
  rw [endOf_of_ok hsetup] at h₁
  have h₂ : (endOf (runFiles (Bench.link o) (·.world.disk) front) s₁).vars.IsNormal :=
    keepsVars_runFiles (keptByPrograms_isNormal _) _ front s₁ h₁
  rw [endOf_of_ok hfront] at h₂
  exact vars_of_mem_visits (keptByPrograms_isNormal _) hv h₂

theorem ComesTo.isNormal {site : Site} {stmt : Statement} {env : Env} {s : Session (Bench σ)}
    (h : p.ComesTo o ports w site stmt env s) : env.IsNormal := by
  obtain ⟨v, t, source, recorded, before, after, r, hvisits, -, -, -, -, hread, hrun⟩ := h
  obtain ⟨granted, hperforms, -⟩ := runStatements_ok hrun
  exact hperforms.isNormal hvisits.isNormal fun stmt hmem => isNormal_of_read hread stmt (List.mem_append_left _ hmem)

/-- If the first script begins with a block, the run comes to the first statement there. -/
theorem comesTo_first {s : Session (Bench σ)} {path source src : String} {rest : List String} {t : Script.Token}
    {recorded : Option String} {stmt : Statement} {after : List Statement}
    (hsetup : (p.setup o).run { link := p.bench ports w } = .ok () s)
    (hfiles : scriptFiles s.link.world.disk p.case.dir p.settings.runner.scriptExtension = .ok (path :: rest))
    (hscript : s.link.world.disk.readText path = .ok src) (htoken : (tokens src)[0]? = some t)
    (hkind : t.kind = .expression) (hparts : t.expressionParts? = some (source, recorded))
    (hread : Expr.read source = .ok (stmt :: after)) : p.ComesTo o ports w ⟨path, t.place⟩ stmt s.vars s :=
  ⟨⟨s, none, (tokens src)[0]?⟩, t, source, recorded, [], after, .null,
    ⟨s, s, [], rest, src, hsetup, hfiles, rfl, hscript,
      List.mem_of_getElem? (visits_getElem?_zero (Bench.link o) path none s (tokens src))⟩,
    htoken, rfl, hkind, hparts, hread, rfl⟩

end Plan

/-- Values stay in normal form. Whatever variables a test declares, they start so; and however a program ends, under any
host, it leaves variables so that were so before, and a value that it gives is so too.

Hence wherever a run comes to a statement of an expression block the variables are in normal form, and there what one or
more indices take out of JSON is the same as the value of an expression, as `==` sees it, exactly if both have the same
content: null, the same boolean, the same string, or the same integer of 64 bits, however the JSON writes it. -/
theorem values_stay_normal :
    (∀ (e : Cases.Environment) (env : Env), e.seedVars = .ok env → env.IsNormal) ∧
    (∀ {σ : Type} (host : Host σ) (src : String) (env env' : Env) (s s' : σ), env.IsNormal →
      (∀ v, (eval host src).run (env, s) = .ok v (env', s') → v.IsNormal ∧ env'.IsNormal) ∧
        ∀ f, (eval host src).run (env, s) = .error f (env', s') → env'.IsNormal) ∧
    ∀ {σ : Type} (o : Outside σ) (p : Plan) (ports : Ports.Allocator) (w : World σ) (site : Site) (stmt : Statement)
      (env : Env) (s : Session (Bench σ)), p.ComesTo o ports w site stmt env s →
      env.IsNormal ∧
      ∀ (t e : Tree) (path : List Tree) (ts : List Expr.Token) (j x : Json) (indices : List Value) (v : Value)
        (s₀ s₁ s₂ s₃ : Session (Bench σ)), path ≠ [] → Writes .equality ts e →
        (evalTree (check site .capture) env t).run s₀ = .ok (.json j) s₁ →
        (evalTrees (check site .capture) env path).run s₁ = .ok indices s₂ → j.along? indices = some x →
        (evalTree (check site .capture) env e).run s₂ = .ok v s₃ →
        (evalTree (check site .capture) env (.binary .eq (path.foldl .index t) e)).run s₀ =
          .ok (.bool (x.content = v.content)) s₃ := by
  refine ⟨fun e env h => Cases.seedVars_isNormal h, fun host src env env' s s' henv => ?_,
    fun o p ports w site stmt env s hcomes => ⟨hcomes.isNormal, ?_⟩⟩
  · exact ⟨fun v h => eval_isNormal h henv, fun f h => eval_error_isNormal h henv⟩
  · intro t e path ts j x indices v s₀ s₁ s₂ s₃ hne hwrites ht hpath hx he
    have hv : v.IsNormal := isNormal_of_evalTree he hcomes.isNormal hwrites.isNormal
    exact evalTree_eq_chain ht hpath hne hx he hv

/-- A test without clients, whose variable holds a list in a mapping. -/
def listed : Plan :=
  { settings := {}
    case := { name := "a", dir := "t",
              environment := { vars := [("data", .map [(.str "n", .seq [.int 7, .null])])] } } }

/-- The value of its variable, in JSON. -/
def listedJson : Json := .obj [("n", .arr [.number "7", .null])]

/-- Its script. -/
def listedScript : String := "$\x7b data[\"n\"][0] == 7 \x7d$"

/-- The session behind its setup. -/
def listedSession : Session (Bench Unit) :=
  endOf (listed.setup greeting) { link := listed.bench (.new 1 2) (oneScript listedScript) }

/-- The first item of the list is the integer seven, although JSON keeps it as a text. -/
theorem values_stay_normal_listed :
    listed.case.environment.seedVars = .ok ⟨[("data", .json listedJson)]⟩ ∧
    (⟨[("data", .json listedJson)]⟩ : Env).IsNormal ∧
    listedSession.vars.IsNormal ∧
    (eval (check ⟨"t/01.btstest", .start⟩ .capture) " data[\"n\"][0] == 7 ").run (listedSession.vars, listedSession) =
      .ok (.bool true) (listedSession.vars, listedSession) ∧
    (Value.bool true).IsNormal := by
  obtain ⟨hseed, heval, hrun⟩ := values_stay_normal
  have hvars : listed.case.environment.seedVars = .ok ⟨[("data", .json listedJson)]⟩ := by decide +kernel
  have hread : Expr.read " data[\"n\"][0] == 7 " = .ok [.eval (.binary .eq
      (.index (.index (.var "data") (.literal (.str "n"))) (.literal (.int 0))) (.literal (.int 7)))] := by
    have hlex : (lex " data[\"n\"][0] == 7 ".toList).toOption = some [.ident "data", .op .lbracket, .str "n",
        .op .rbracket, .op .lbracket, .int 0, .op .rbracket, .op .eq, .int 7] := by decide +kernel
    exact (read_of_lex hlex).trans rfl
  have hcomes : listed.ComesTo greeting (.new 1 2) (oneScript listedScript) ⟨"t/01.btstest", .start⟩
      (.eval (.binary .eq (.index (.index (.var "data") (.literal (.str "n"))) (.literal (.int 0)))
        (.literal (.int 7)))) listedSession.vars listedSession := by
    have hresult : resultOf (listed.setup greeting)
        { link := listed.bench (.new 1 2) (oneScript listedScript) } = .ok () := by decide +kernel
    have hsetup : (listed.setup greeting).run { link := listed.bench (.new 1 2) (oneScript listedScript) } =
        .ok () listedSession := run_eq_of_resultOf hresult
    have hfiles : scriptFiles listedSession.link.world.disk listed.case.dir listed.settings.runner.scriptExtension =
        .ok ["t/01.btstest"] := by decide +kernel
    have hscript : listedSession.link.world.disk.readText "t/01.btstest" = .ok listedScript := by decide +kernel
    have htoken : (tokens listedScript)[0]? = some ⟨listedScript, .start⟩ := by decide +kernel
    have hkind : (⟨listedScript, .start⟩ : Script.Token).kind = .expression := by decide +kernel
    have hparts : (⟨listedScript, .start⟩ : Script.Token).expressionParts? = some (" data[\"n\"][0] == 7 ", none) := by
      decide +kernel
    exact Plan.comesTo_first hsetup hfiles hscript htoken hkind hparts hread
  obtain ⟨hnormal, hcompare⟩ := hrun greeting listed _ _ _ _ _ _ hcomes
  have hdata : listedSession.vars.get? "data" = some (.json listedJson) := by decide +kernel
  have hitem : listedJson.along? [.str "n", .int 0] = some (.number "7") := by decide +kernel
  have hcontent : (Json.number "7").content = (Value.int 7).content := by decide +kernel
  -- what the session is made of makes no difference from here on
  generalize listedSession = s at hnormal hcompare hdata ⊢
  have htarget : (evalTree (check ⟨"t/01.btstest", .start⟩ .capture) s.vars (.var "data")).run s =
      .ok (.json listedJson) s := by
    rw [evalTree, hdata]
    rfl
  have hequal := hcompare (.var "data") (.literal (.int 7)) [.literal (.str "n"), .literal (.int 0)] [.int 7] listedJson
    (.number "7") [.str "n", .int 0] (.int 7) s s s s (List.cons_ne_nil _ _)
    (.inner (.inner (.inner (.inner (.inner (.int 7)))))) htarget rfl hitem rfl
  rw [decide_eq_true hcontent] at hequal
  have hprogram := run_eval_of_read hread hequal
  exact ⟨hvars, hseed _ _ hvars, hnormal, hprogram, ((heval _ _ _ _ _ _ hnormal).1 _ hprogram).1⟩

end Conformance.Runs
