import Conformance.Proofs.Script.Moves

/-!
# What is shown is never read

The transcript is written and never read by a run, so tokens that differ only in what they show do the same
(`step_doesSame`): blanks that end a line, comments, and expression blocks with the same program. Whole runs over such
tokens do the same (`runScript_doesSame`), and leave sessions that differ in nothing but their transcripts.
-/
namespace Conformance.Script

open Text Expr Output

variable {σ α β : Type}

/-! ## Sessions apart from their transcripts -/

/-- The session without its transcript. -/
def Session.mute (s : Session σ) : Session σ := { s with transcript := "" }

/-- The comparison of runs by all but their transcripts. -/
def muteLikeness (σ : Type) : Likeness (Session σ) (Session σ) where
  alike u v := u.mute = v.mute

/-- The two actions do the same, and show what they will. -/
abbrev DoesSame (x y : Action σ α) : Prop := ActsAlike (muteLikeness σ) x y

variable {s u v : Session σ}

/-- What does not depend on the transcript is the same in both sessions. -/
theorem eq_of_mute {β : Sort*} (h : u.mute = v.mute) (f : Session σ → β) (hf : ∀ s, f s.mute = f s) : f u = f v := by
  rw [← hf u, h, hf v]

theorem doesSame_get {f g : Session σ → Action σ α}
    (h : ∀ u v, u.mute = v.mute → EndsAlike (muteLikeness σ) ((f u).run u) ((g v).run v)) :
    DoesSame (get >>= f) (get >>= g) := fun u v hs => h u v hs

/-- An action that is chosen by something other than the transcript. -/
theorem doesSame_choose {f : Session σ → Action σ α} (hf : ∀ s, f s.mute = f s) (h : ∀ s, DoesSame (f s) (f s)) :
    DoesSame (get >>= f) (get >>= f) :=
  doesSame_get fun u v hs => eq_of_mute hs f hf ▸ h u u v hs

theorem doesSame_modify {f g : Session σ → Session σ} (h : ∀ u v, u.mute = v.mute → (f u).mute = (g v).mute) :
    DoesSame (modify f) (modify g) := fun u v hs => .value () (h u v hs)

/-- The same change is made to both sessions. -/
theorem doesSame_change {f : Session σ → Session σ} (hf : ∀ s, (f s).mute = (f s.mute).mute) :
    DoesSame (modify f) (modify f) :=
  doesSame_modify fun u v hs => by rw [hf u, hs, ← hf v]

theorem doesSame_write (a b : String) : DoesSame (write a : Action σ Unit) (write b) :=
  doesSame_modify fun _ _ hs => hs

/-! ## Expectations -/

theorem doesSame_activeClient : DoesSame (activeClient : Action σ Client) activeClient := by
  intro u v hs
  have hclient : u.activeClient? = v.activeClient? := eq_of_mute hs Session.activeClient? fun _ => rfl
  have hfault : u.noClientFault = v.noClientFault := eq_of_mute hs Session.noClientFault fun _ => rfl
  rw [run_activeClient_eq, run_activeClient_eq, hclient, hfault]
  cases v.activeClient? with
  | none => exact .fault _ hs
  | some c => exact .value c hs

theorem doesSame_unread (c : Client) : DoesSame (unread c : Action σ String) (unread c) := by
  unfold unread
  cases c.output.residual? with
  | some residual => exact actsAlike_pure residual
  | none => exact (doesSame_change fun _ => rfl).bind fun _ => actsAlike_throw _

theorem doesSame_record (site : Site) (echo : Echo) (c : Client) (outcome : Outcome) :
    DoesSame (record site echo c outcome : Action σ Captures) (record site echo c outcome) := by
  cases outcome with
  | matched text groups =>
    cases echo with
    | literal => exact (doesSame_write _ _).bind fun _ => actsAlike_pure groups
    | capture => exact (doesSame_change fun _ => rfl).bind fun _ => actsAlike_pure groups
    | silent => exact actsAlike_pure groups
  | mismatch expected actual =>
    have hfail : DoesSame (σ := σ) (do
        modify fun s => { s with failures := s.failures ++ [⟨site.file, site.place.line, site.place.column, c.name,
          c.lastCommand, expected, actual⟩] }
        return ([] : Captures)) _ := (doesSame_change fun _ => rfl).bind fun _ => actsAlike_pure _
    cases echo with
    | literal => exact (doesSame_write _ _).bind fun _ => hfail
    | capture => exact hfail
    | silent => exact hfail

theorem doesSame_check (site : Site) (echo : Echo) (e : Expectation) :
    DoesSame (check site echo e : Action σ Captures) (check site echo e) := by
  refine doesSame_choose (fun _ => rfl) fun s => ?_
  split
  · cases echo <;> cases e <;>
      first
      | exact actsAlike_pure _
      | exact (doesSame_write _ _).bind fun _ => actsAlike_pure _
  · split
    · exact actsAlike_pure _
    · refine doesSame_activeClient.bind fun c => (doesSame_unread c).bind fun _ => ?_
      cases c.output.check e with
      | mk result output =>
        refine (doesSame_change fun _ => rfl).bind fun _ => ?_
        cases result with
        | error p => exact actsAlike_throw _
        | ok outcome => exact doesSame_record site echo c outcome

/-! ## Blocks and references -/

/-- Programs that read the same do the same. -/
theorem doesSame_evaluate (site : Site) {source source' : String} (h : read source = read source') :
    DoesSame (evaluate site source : Action σ Value) (evaluate site source') := by
  intro u v hs
  have hvars : u.vars = v.vars := eq_of_mute hs Session.vars fun _ => rfl
  have hsource : ∀ host : Host (Session σ), Expr.eval host source = Expr.eval host source' := by
    intro host
    rw [Expr.eval, Expr.eval, h]
  have hends : EndsAlike (muteLikeness σ).withEnv (Expr.eval (check site .capture) source (u.vars, u))
      (Expr.eval (check site .capture) source' (v.vars, v)) := by
    have hhost : HostsAlike (muteLikeness σ) True (check site .capture) (check site .capture) :=
      fun e _ => doesSame_check site .capture e
    rw [← hsource]
    exact eval_alike hhost (fun _ _ _ _ _ => trivial) (u.vars, u) (v.vars, v) ⟨hvars, hs⟩
  show EndsAlike _ (evaluate site source u) (evaluate site source' v)
  rw [evaluate, evaluate]
  generalize Expr.eval (check site .capture) source (u.vars, u) = r at hends
  generalize Expr.eval (check site .capture) source' (v.vars, v) = r' at hends
  -- The variables are put back into both sessions.
  have hset : ∀ (vars : Env) {u' v' : Session σ}, u'.mute = v'.mute →
      ({ u' with vars } : Session σ).mute = ({ v' with vars } : Session σ).mute := fun vars _ _ h =>
    congrArg (fun s : Session σ => { s with vars }) h
  cases hends with
  | @value p q a h =>
    obtain ⟨vars, u'⟩ := p
    obtain ⟨vars', v'⟩ := q
    obtain ⟨hvars, hs⟩ := h
    obtain rfl : vars = vars' := hvars
    exact .value a (hset vars hs)
  | @fault p q f h =>
    obtain ⟨vars, u'⟩ := p
    obtain ⟨vars', v'⟩ := q
    obtain ⟨hvars, hs⟩ := h
    obtain rfl : vars = vars' := hvars
    exact .fault _ (hset vars hs)
  | gaveUp₁ r h => exact h.elim
  | gaveUp₂ r h => exact h.elim

theorem doesSame_dumpMatched (shown : Bool) : DoesSame (dumpMatched shown : Action σ Unit) (dumpMatched shown) := by
  refine doesSame_choose (fun _ => rfl) fun s => ?_
  have hforget : DoesSame (modify fun s : Session σ => { s with matched := [] }) _ := doesSame_change fun _ => rfl
  cases shown with
  | false => exact hforget
  | true => exact (doesSame_write _ _).bind fun _ => hforget

theorem doesSame_present (a b : String) : DoesSame (present a : Action σ Unit) (present b) :=
  (doesSame_write a b).bind fun _ => doesSame_choose (fun _ => rfl) fun _ => doesSame_dumpMatched _

theorem doesSame_expectResult (site : Site) (value : Value) :
    DoesSame (expectResult site value : Action σ Unit) (expectResult site value) := by
  unfold expectResult
  cases stringResult? value with
  | none => exact actsAlike_pure ()
  | some text => exact (doesSame_check site .capture _).bind fun _ => actsAlike_pure ()

/-- The source of the program in an expression block. -/
def Token.source? (t : Token) : Option String := t.expressionParts?.map (·.1)

/-- Blocks with programs that read the same do the same. -/
theorem doesSame_block (site : Site) {t t' : Token} (h : t.source?.map read = t'.source?.map read) :
    DoesSame (block site t : Action σ Unit) (block site t') := by
  rw [Token.source?, Token.source?, Option.map_map, Option.map_map] at h
  cases hparts : t.expressionParts? with
  | none =>
    have hparts' : t'.expressionParts? = none := by
      rwa [hparts, Option.map_none, eq_comm, Option.map_eq_none_iff] at h
    rw [block_of_none hparts, block_of_none hparts']
    exact actsAlike_throw _
  | some parts =>
    obtain ⟨source, recorded⟩ := parts
    rw [hparts, Option.map_some, eq_comm, Option.map_eq_some_iff] at h
    obtain ⟨⟨source', recorded'⟩, hparts', hread⟩ := h
    rw [block_of_some hparts, block_of_some hparts']
    exact (doesSame_evaluate site hread.symm).bind fun value => (doesSame_expectResult site value).bind fun _ =>
      doesSame_present _ _

theorem doesSame_resolve (site : Site) (name : String) :
    DoesSame (resolve site name : Action σ String) (resolve site name) := by
  refine doesSame_choose (fun _ => rfl) fun s => ?_
  cases s.vars.get? name with
  | none => exact actsAlike_throw _
  | some value => exact actsAlike_pure _

theorem doesSame_expectValue (site : Site) (line : Option CommandLine) (value : String) :
    DoesSame (expectValue site line value : Action σ Unit) (expectValue site line value) := by
  cases line with
  | none => exact (doesSame_check site .silent _).bind fun _ => actsAlike_pure ()
  | some l => exact actsAlike_pure ()

theorem doesSame_expectText (site : Site) (line : Option CommandLine) (text : String) :
    DoesSame (expectText site line text : Action σ Unit) (expectText site line text) := by
  cases line with
  | none => exact (doesSame_check site .literal _).bind fun _ => actsAlike_pure ()
  | some l => exact doesSame_write text text

/-! ## Command lines -/

theorem doesSame_flushResidual : DoesSame (flushResidual : Action σ Unit) flushResidual := by
  refine doesSame_get fun u v hs => ?_
  have hpending : u.pending = v.pending := eq_of_mute hs Session.pending fun _ => rfl
  rw [hpending]
  cases v.pending with
  | none => exact .value () hs
  | some name =>
    have hclient : u.client? name = v.client? name := eq_of_mute hs (·.client? name) fun _ => rfl
    have henabled : u.expectEnabled = v.expectEnabled := eq_of_mute hs Session.expectEnabled fun _ => rfl
    have hshow : u.showMatch = v.showMatch := eq_of_mute hs Session.showMatch fun _ => rfl
    have hset : ({ u with pending := none } : Session σ).mute = ({ v with pending := none } : Session σ).mute :=
      congrArg (fun s : Session σ => { s with pending := none }) hs
    dsimp only
    rw [hclient]
    cases v.client? name with
    | none => exact .value () hset
    | some c =>
      refine ActsAlike.bind (doesSame_unread c) (fun residual => ?_) _ _ hset
      rw [henabled, hshow]
      split
      · exact actsAlike_pure ()
      · split <;> exact doesSame_write _ _

theorem directive?_mute (words : List String) (s : Session σ) :
    directive? words s.mute = (directive? words s).map Session.mute := by
  have hswitch : ∀ (word : String) (f : Bool → Session σ → Session σ), (∀ on, f on s.mute = (f on s).mute) →
      (switch? word).map (f · s.mute) = ((switch? word).map (f · s)).map Session.mute := by
    intro word f hf
    cases switch? word with
    | none => rfl
    | some on => exact congrArg some (hf on)
  unfold directive?
  split
  · rfl
  · exact hswitch _ (fun on s => { s with expectEnabled := on }) fun _ => rfl
  · exact hswitch _ (fun on s => { s with showMatch := on }) fun _ => rfl
  · exact hswitch _ (fun on s => { s with showLineNumbers := on }) fun _ => rfl
  · exact hswitch _ (fun on s => { s with showLineNumbers := on }) fun _ => rfl
  · rfl

section Lines

variable (link : Link σ) (file : String)

theorem doesSame_sendCommand (command : String) (line : Nat) :
    DoesSame (sendCommand link command line) (sendCommand link command line) := by
  refine doesSame_activeClient.bind fun c => doesSame_get fun u v hs => ?_
  have hlink : u.link = v.link := eq_of_mute hs Session.link fun _ => rfl
  rw [hlink]
  cases link.send c.name command v.link with
  | mk reply state =>
    have hset : ({ u with link := state, sent := u.sent ++ [(c.name, command)] } : Session σ).mute =
        ({ v with link := state, sent := v.sent ++ [(c.name, command)] } : Session σ).mute :=
      congrArg (fun s : Session σ => { s with link := state, sent := s.sent ++ [(c.name, command)] }) hs
    cases reply with
    | error f => exact .fault _ hset
    | ok text =>
      have hreply : DoesSame (do
          modify (·.updateClient c.name fun c => { c with output := c.output.reset text, lastCommand := some command })
          modify fun s => { s with pending := some c.name } : Action σ Unit) _ :=
        (doesSame_change fun _ => rfl).bind fun _ => doesSame_change fun _ => rfl
      exact hreply _ _ hset

theorem doesSame_execute (l : CommandLine) : DoesSame (execute link file l) (execute link file l) := by
  unfold execute
  dsimp only
  split
  · refine doesSame_get fun u v hs => ?_
    have hwords := congrArg (directive? l.text.trimWhite.whiteWords) hs
    rw [directive?_mute, directive?_mute] at hwords
    cases hu : directive? l.text.trimWhite.whiteWords u with
    | none =>
      rw [hu, Option.map_none, eq_comm, Option.map_eq_none_iff] at hwords
      rw [hwords]
      exact .fault _ hs
    | some u' =>
      rw [hu, Option.map_some, eq_comm, Option.map_eq_some_iff] at hwords
      obtain ⟨v', hv, hs'⟩ := hwords
      rw [hv]
      exact .value () hs'.symm
  · exact doesSame_sendCommand link _ _

theorem doesSame_finish (line : Option CommandLine) : DoesSame (finish link file line) (finish link file line) := by
  cases line with
  | none => exact actsAlike_pure ()
  | some l => exact doesSame_execute link file l

theorem doesSame_numberLine (n : Nat) : DoesSame (numberLine n : Action σ Unit) (numberLine n) := by
  refine doesSame_choose (fun _ => rfl) fun s => ?_
  split
  · exact doesSame_write _ _
  · exact actsAlike_pure ()

/-! ## Tokens and scripts -/

/-- The token is a blank that ends a line. -/
structure Token.IsLineEnd (t : Token) : Prop where
  kind : t.kind = .newline ∨ t.kind = .whitespace
  endsLine : t.endsLine = true

/-- The tokens stand at the same place, and differ only in what they show. -/
inductive SameButShown : Token → Token → Prop where
  | refl (t : Token) : SameButShown t t
  | lineEnd {t t' : Token} (hplace : t.place = t'.place) (h : t.IsLineEnd) (h' : t'.IsLineEnd) : SameButShown t t'
  | comment {t t' : Token} (hplace : t.place = t'.place) (h : t.kind = .comment) (h' : t'.kind = .comment) :
    SameButShown t t'
  | block {t t' : Token} (hplace : t.place = t'.place) (h : t.kind = .expression) (h' : t'.kind = .expression)
    (hprogram : t.source?.map read = t'.source?.map read) : SameButShown t t'

variable {t t' : Token} (line : Option CommandLine)

theorem step_lineEnd_doesSame (h : t.IsLineEnd) (h' : t'.IsLineEnd) :
    DoesSame (step link file line t) (step link file line t') := by
  rw [step_of_blank link file h.kind, step_of_blank link file h'.kind, if_pos h.endsLine, if_pos h'.endsLine]
  exact (doesSame_finish link file line).bind fun _ => (doesSame_write _ _).bind fun _ => actsAlike_pure _

theorem step_comment_doesSame (h : t.kind = .comment) (h' : t'.kind = .comment) :
    DoesSame (step link file line t) (step link file line t') := by
  rw [step_of_comment link file h, step_of_comment link file h']
  exact (doesSame_write _ _).bind fun _ => actsAlike_pure line

theorem step_block_doesSame (hplace : t.place = t'.place) (h : t.kind = .expression) (h' : t'.kind = .expression)
    (hprogram : t.source?.map read = t'.source?.map read) : DoesSame (step link file line t) (step link file line t') := by
  rw [step_of_expression link file h, step_of_expression link file h', hplace]
  exact (doesSame_block _ hprogram).bind fun _ => actsAlike_pure line

theorem step_self_doesSame (t : Token) : DoesSame (step link file line t) (step link file line t) := by
  have hblank : t.kind = .newline ∨ t.kind = .whitespace → DoesSame (step link file line t) (step link file line t) := by
    intro hk
    by_cases hends : t.endsLine = true
    · exact step_lineEnd_doesSame link file line ⟨hk, hends⟩ ⟨hk, hends⟩
    · rw [step_of_blank link file hk, if_neg hends]
      exact (doesSame_write _ _).bind fun _ => actsAlike_pure _
  have htext : t.kind = .literal ∨ t.kind = .commandMarker ∧ line.isSome →
      DoesSame (step link file line t) (step link file line t) := by
    intro hk
    rw [step_of_text link file hk]
    split
    · exact actsAlike_throw _
    · exact (doesSame_expectText _ line _).bind fun _ => (doesSame_dumpMatched false).bind fun _ => actsAlike_pure _
  cases hk : t.kind with
  | newline => exact hblank (.inl hk)
  | whitespace => exact hblank (.inr hk)
  | literal => exact htext (.inl hk)
  | comment => exact step_comment_doesSame link file line hk hk
  | expression => exact step_block_doesSame link file line rfl hk hk rfl
  | reference =>
    rw [step_of_reference link file hk]
    have hcollect : ∀ value, DoesSame (collect value : Action σ Unit) (collect value) := fun _ =>
      doesSame_change fun _ => rfl
    exact (doesSame_resolve _ _).bind fun value => (hcollect value).bind fun _ =>
      (doesSame_expectValue _ line value).bind fun _ => (doesSame_present _ _).bind fun _ => actsAlike_pure _
  | commandMarker =>
    cases line with
    | some l => exact htext (.inr ⟨hk, rfl⟩)
    | none =>
      rw [step_of_opening link file hk]
      exact doesSame_flushResidual.bind fun _ => (doesSame_numberLine _).bind fun _ =>
        (doesSame_write _ _).bind fun _ => actsAlike_pure _

/-- Tokens that differ only in what they show do the same. -/
theorem step_doesSame (h : SameButShown t t') : DoesSame (step link file line t) (step link file line t') := by
  cases h with
  | refl => exact step_self_doesSame link file line t
  | lineEnd _ h h' => exact step_lineEnd_doesSame link file line h h'
  | comment _ h h' => exact step_comment_doesSame link file line h h'
  | block hplace h h' hprogram => exact step_block_doesSame link file line hplace h h' hprogram

theorem runTokens_doesSame {ts ts' : List Token} (h : List.Forall₂ SameButShown ts ts') :
    DoesSame (runTokens link file line ts) (runTokens link file line ts') := by
  induction h generalizing line with
  | nil => exact actsAlike_pure line
  | cons ht _ ih => exact (step_doesSame link file line ht).bind fun line' => ih line'

/-- Scripts whose tokens differ only in what they show do the same. -/
theorem runScript_doesSame {src src' : String} (h : List.Forall₂ SameButShown (tokens src) (tokens src')) :
    DoesSame (runScript link file src) (runScript link file src') := by
  rw [runScript_eq, runScript_eq]
  exact (runTokens_doesSame link file none h).bind fun line => (doesSame_finish link file line).bind fun _ =>
    doesSame_flushResidual

/-- Runs that end alike, and are not given up, end with the same. -/
theorem ends_of_alike {L : Likeness (Session σ) (Session σ)} (h₁ : ∀ f s, ¬L.gaveUp₁ f s) (h₂ : ∀ f s, ¬L.gaveUp₂ f s)
    {x y : Action σ α} (h : EndsAlike L (x.run u) (y.run v)) :
    resultOf x u = resultOf y v ∧ L.alike (endOf x u) (endOf y v) := by
  rw [resultOf, resultOf, endOf, endOf]
  generalize x.run u = r at h
  generalize y.run v = r' at h
  cases h with
  | value a h => exact ⟨rfl, h⟩
  | fault f h => exact ⟨rfl, h⟩
  | gaveUp₁ _ h => exact absurd h (h₁ _ _)
  | gaveUp₂ _ h => exact absurd h (h₂ _ _)

/-- Actions that do the same end with the same, in sessions that are the same but for their transcripts. -/
theorem ends_of_doesSame {x y : Action σ α} (h : DoesSame x y) (s : Session σ) :
    resultOf x s = resultOf y s ∧ (endOf x s).mute = (endOf y s).mute :=
  ends_of_alike (fun _ _ h => h) (fun _ _ h => h) (h s s rfl)

end Lines

end Conformance.Script
