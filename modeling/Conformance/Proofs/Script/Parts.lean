import Conformance.Proofs.Script.Kinds
import Conformance.Proofs.Script.Steps

/-!
# What holds of a step if it holds of its parts

Many properties hold of two actions one after the other if they hold of both, and hold of what only reads the session or
shows something (`Composes`). Such a property holds of an expectation, of a step and of a script once it holds of what
they are made of: of what ends with a fault, of what changes the clients, and of what is sent.
-/
namespace Conformance.Script

open Text Expr Output

/-- A property of actions that is kept by doing one after the other. -/
structure Composes {σ : Type} (P : ∀ α : Type, Action σ α → Prop) : Prop where
  get : P _ get
  shows {α : Type} {x : Action σ α} {a : α} : OnlyShows x a → P _ x
  bind {α β : Type} {x : Action σ α} {f : α → Action σ β} : P _ x → (∀ a, P _ (f a)) → P _ (x >>= f)

namespace Composes

variable {σ α : Type} {P : ∀ α : Type, Action σ α → Prop} {link : Link σ} {file : String} {site : Site} {t : Token}
  {line : Option CommandLine}

theorem pure (h : Composes P) (a : α) : P _ (pure a) := h.shows fun s => ⟨s, rfl, .refl s⟩

theorem get_bind (h : Composes P) {f : Session σ → Action σ α} (hf : ∀ s, P _ (f s)) : P _ (MonadState.get >>= f) :=
  h.bind h.get hf

/-! ## Expectations -/

theorem activeClient (h : Composes P) (hnone : P _ (throw .noActiveClient : Action σ Client))
    (hunknown : ∀ name, P _ (throw (.unknownClient name) : Action σ Client)) : P _ (activeClient : Action σ Client) := by
  refine h.get_bind fun s => ?_
  split
  · exact hnone
  · split
    · exact hunknown _
    · exact h.pure _

theorem check (h : Composes P) {echo : Echo} (hclient : P _ (Script.activeClient : Action σ Client))
    (hunread : ∀ c, P _ (unread c : Action σ String))
    (hchange : ∀ name f, P _ (modify (·.updateClient name f) : Action σ Unit))
    (hfault : ∀ p : Problem, P _ (throw p.fault : Action σ Captures))
    (hrecord : ∀ c outcome, P _ (record site echo c outcome : Action σ Captures)) (e : Expectation) :
    P _ (check site echo e : Action σ Captures) := by
  refine h.get_bind fun s => ?_
  split
  · dsimp only
    split
    · exact h.bind (h.shows (onlyShows_write _)) fun _ => h.pure _
    · exact h.pure _
  · split
    · exact h.pure _
    · refine h.bind hclient fun c => h.bind (hunread c) fun _ => ?_
      dsimp only
      refine h.bind (hchange _ _) fun _ => ?_
      split
      · exact hfault _
      · exact hrecord c _

theorem expectText (h : Composes P) {text : String}
    (hcheck : P _ (Script.check site .literal (.literal text) : Action σ Captures)) (line : Option CommandLine) :
    P _ (expectText site line text : Action σ Unit) := by
  cases line with
  | none => exact h.bind hcheck fun _ => h.pure ()
  | some l => exact h.shows (onlyShows_write text)

theorem expectValue (h : Composes P) {value : String}
    (hcheck : P _ (Script.check site .silent (.literal value) : Action σ Captures)) (line : Option CommandLine) :
    P _ (expectValue site line value : Action σ Unit) := by
  cases line with
  | none => exact h.bind hcheck fun _ => h.pure ()
  | some l => exact h.pure ()

theorem expectResult (h : Composes P)
    (hcheck : ∀ text, P _ (Script.check site .capture (.literal text) : Action σ Captures)) (v : Value) :
    P _ (expectResult site v : Action σ Unit) := by
  rw [Script.expectResult]
  cases stringResult? v with
  | none => exact h.pure ()
  | some text => exact h.bind (hcheck text) fun _ => h.pure ()

/-! ## Blocks and references -/

theorem resolve (h : Composes P) {name : String}
    (hunknown : P _ (throw (.unknownVariable site.file name site.place.line site.place.column) : Action σ String)) :
    P _ (resolve site name : Action σ String) := by
  refine h.get_bind fun s => ?_
  split
  · exact h.pure _
  · exact hunknown

/-- A token that is an expression can be taken apart, so no block is found to be malformed. -/
theorem block (h : Composes P) (hk : t.kind = .expression)
    (hevaluate : ∀ source, P _ (evaluate site source : Action σ Value))
    (hcheck : ∀ text, P _ (Script.check site .capture (.literal text) : Action σ Captures)) :
    P _ (block site t : Action σ Unit) := by
  obtain ⟨source, recorded, hparts⟩ := expressionParts?_of_kind hk
  rw [block_of_some hparts]
  exact h.bind (hevaluate source) fun v => h.bind (h.expectResult hcheck v) fun _ => h.shows (onlyShows_present _)

/-! ## Steps and runs -/

/-- Only a literal can open a block that has no end: a marker within a command line is text as well, but opens none. -/
theorem step (h : Composes P) (hcheck : ∀ echo text, P _ (Script.check ⟨file, t.place⟩ echo (.literal text)))
    (hflush : P _ flushResidual) (hresolve : ∀ name, P _ (Script.resolve ⟨file, t.place⟩ name))
    (hblock : t.kind = .expression → P _ (Script.block ⟨file, t.place⟩ t))
    (hfinish : (t.kind = .newline ∨ t.kind = .whitespace) → t.endsLine = true → P _ (finish link file line))
    (hopens : t.kind = .literal → occurs ['$', '\x7b'] t.text.toList = true →
      P _ (throw (Site.syntaxFault ⟨file, t.place⟩ unterminated) : Action σ (Option CommandLine))) :
    P _ (step link file line t) := by
  have hwrite : ∀ text, P _ (write text : Action σ Unit) := fun text => h.shows (onlyShows_write text)
  have hblank : t.kind = .newline ∨ t.kind = .whitespace → P _ (Script.step link file line t) := by
    intro hk
    rw [step_of_blank link file hk]
    split
    next hends => exact h.bind (hfinish hk hends) fun _ => h.bind (hwrite _) fun _ => h.pure _
    next => exact h.bind (hwrite _) fun _ => h.pure _
  have htext : t.kind = .literal ∨ t.kind = .commandMarker ∧ line.isSome → P _ (Script.step link file line t) := by
    intro hk
    rw [step_of_text link file hk]
    split
    next hoccurs =>
      refine hopens (hk.resolve_right fun hmarker => ?_) hoccurs
      rw [text_of_marker hmarker.1] at hoccurs
      revert hoccurs
      decide +kernel
    next =>
      exact h.bind (h.expectText (hcheck _ _) line) fun _ => h.bind (h.shows (onlyShows_dumpMatched false)) fun _ =>
        h.pure _
  cases hk : t.kind with
  | newline => exact hblank (.inl hk)
  | whitespace => exact hblank (.inr hk)
  | literal => exact htext (.inl hk)
  | comment =>
    rw [step_of_comment link file hk]
    exact h.bind (hwrite _) fun _ => h.pure line
  | expression =>
    rw [step_of_expression link file hk]
    exact h.bind (hblock hk) fun _ => h.pure line
  | reference =>
    rw [step_of_reference link file hk]
    exact h.bind (hresolve _) fun value => h.bind (h.shows (onlyShows_collect value)) fun _ =>
      h.bind (h.expectValue (hcheck _ _) line) fun _ => h.bind (h.shows (onlyShows_present _)) fun _ => h.pure _
  | commandMarker =>
    cases line with
    | some l => exact htext (.inr ⟨hk, rfl⟩)
    | none =>
      rw [step_of_opening link file hk]
      exact h.bind hflush fun _ => h.bind (h.shows (onlyShows_numberLine _)) fun _ => h.bind (hwrite _) fun _ => h.pure _

theorem conclude (h : Composes P) (hfinish : P _ (finish link file line)) (hflush : P _ flushResidual) :
    P _ (conclude link file line) := h.bind hfinish fun _ => hflush

theorem runTokens (h : Composes P) (hstep : ∀ line t, P _ (Script.step link file line t)) (line : Option CommandLine)
    (ts : List Token) : P _ (runTokens link file line ts) := by
  induction ts generalizing line with
  | nil => exact h.pure line
  | cons t ts ih => exact h.bind (hstep line t) ih

theorem runScript (h : Composes P) (hstep : ∀ line t, P _ (Script.step link file line t))
    (hconclude : ∀ line, P _ (Script.conclude link file line)) (src : String) : P _ (runScript link file src) := by
  rw [runScript_eq]
  exact h.bind (h.runTokens hstep none _) hconclude

end Composes

end Conformance.Script
