import Conformance.Proofs.Script.CommandLine

/-!
# The steps of a script

A step carries out one token. What it does depends on the kind of the token and on whether a command line is open:
for each kind there is one equation (`step_of_blank` and those after it), from which what holds of every step is
shown kind by kind. A step may end with a fault, and leaves a session all the same (`endOf`).
-/
namespace Conformance.Script

open Text Expr

variable {σ α β : Type}

/-! ## Where an action ends -/

/-- The session that an action leaves, whether it ends with a fault or not. -/
def endOf (x : Action σ α) (s : Session σ) : Session σ :=
  match x.run s with
  | .ok _ s' => s'
  | .error _ s' => s'

/-- What an action ends with: a result, or a fault. -/
def resultOf (x : Action σ α) (s : Session σ) : Except Fault α :=
  match x.run s with
  | .ok a _ => .ok a
  | .error f _ => .error f

theorem endOf_of_ok {x : Action σ α} {a : α} {s s' : Session σ} (h : x.run s = .ok a s') : endOf x s = s' := by
  rw [endOf, h]

theorem endOf_of_error {x : Action σ α} {f : Fault} {s s' : Session σ} (h : x.run s = .error f s') :
    endOf x s = s' := by
  rw [endOf, h]

theorem run_eq_of_resultOf {x : Action σ α} {a : α} {s : Session σ} (h : resultOf x s = .ok a) :
    x.run s = .ok a (endOf x s) := by
  rw [resultOf] at h
  rw [endOf]
  cases hx : x.run s with
  | ok b s' =>
    rw [hx] at h
    exact congrArg (EStateM.Result.ok · s') (Except.ok.inj h)
  | error f s' =>
    rw [hx] at h
    injection h

theorem run_eq_of_resultOf_error {x : Action σ α} {f : Fault} {s : Session σ} (h : resultOf x s = .error f) :
    x.run s = .error f (endOf x s) := by
  rw [resultOf] at h
  rw [endOf]
  cases hx : x.run s with
  | ok b s' =>
    rw [hx] at h
    injection h
  | error f' s' =>
    rw [hx] at h
    exact congrArg (EStateM.Result.error · s') (Except.error.inj h)

theorem endOf_bind (x : Action σ α) (f : α → Action σ β) (s : Session σ) :
    endOf (x >>= f) s =
      match x.run s with
      | .ok a s' => endOf (f a) s'
      | .error _ s' => s' := by
  rw [endOf, EStateM.run_bind]
  cases x.run s <;> rfl

theorem endOf_bind_pure (x : Action σ α) (f : α → β) (s : Session σ) :
    endOf (x >>= fun a => pure (f a)) s = endOf x s := by
  rw [endOf_bind, endOf]
  cases x.run s <;> rfl

theorem endOf_bind_ok {x : Action σ α} {f : α → Action σ β} {a : α} {s s' : Session σ} (h : x.run s = .ok a s') :
    endOf (x >>= f) s = endOf (f a) s' := by
  rw [endOf_bind, h]

theorem endOf_bind_error {x : Action σ α} {f : α → Action σ β} {fault : Fault} {s s' : Session σ}
    (h : x.run s = .error fault s') : endOf (x >>= f) s = s' := by
  rw [endOf_bind, h]

/-- What ends without a fault has done so in both of its parts. -/
theorem run_bind_eq_ok {ε τ α β : Type} {x : EStateM ε τ α} {f : α → EStateM ε τ β} {t t' : τ} {b : β}
    (h : (x >>= f).run t = .ok b t') : ∃ a u, x.run t = .ok a u ∧ (f a).run u = .ok b t' := by
  rw [EStateM.run_bind] at h
  cases hx : x.run t with
  | ok a u =>
    rw [hx] at h
    exact ⟨a, u, rfl, h⟩
  | error e u =>
    rw [hx] at h
    contradiction

/-- What ends with a fault has done so in one of its parts. -/
theorem run_bind_eq_error {ε τ α β : Type} {x : EStateM ε τ α} {f : α → EStateM ε τ β} {t t' : τ} {e : ε}
    (h : (x >>= f).run t = .error e t') :
    x.run t = .error e t' ∨ ∃ a u, x.run t = .ok a u ∧ (f a).run u = .error e t' := by
  rw [EStateM.run_bind] at h
  cases hx : x.run t with
  | ok a u =>
    rw [hx] at h
    exact .inr ⟨a, u, rfl, h⟩
  | error e' u =>
    rw [hx] at h
    obtain ⟨rfl, rfl⟩ := EStateM.Result.error.inj h
    exact .inl rfl

/-! ## What a step is made of -/

/-- The line with text added to it. -/
def CommandLine.add (l : CommandLine) (text : String) : CommandLine := { l with text := l.text ++ text }

section Steps

variable (link : Link σ) (file : String)

/-- The end of a command line, if one is open. -/
def finish : Option CommandLine → Action σ Unit
  | some line => execute link file line
  | none => pure ()

/-- What is done at the end of a script. -/
def conclude (line : Option CommandLine) : Action σ Unit := do
  finish link file line
  flushResidual

/-- Shows a token that stands for other text, and what was matched for it. -/
def present (text : String) : Action σ Unit := do
  write text
  dumpMatched (← get).showMatch

/-- Collects the value of a reference, to be shown with what was matched. -/
def collect (value : String) : Action σ Unit := modify fun s => { s with matched := s.matched ++ [value] }

/-- A reference outside a command line expects its value. -/
def expectValue (site : Site) (line : Option CommandLine) (value : String) : Action σ Unit := do
  if line.isNone then let _ ← check site .silent (.literal value)

/-- Text outside a command line is expected; inside, it is only shown. -/
def expectText (site : Site) (line : Option CommandLine) (text : String) : Action σ Unit := do
  if line.isSome then write text
  else let _ ← check site .literal (.literal text)

/-- The result of a block, if it is a string. -/
def stringResult? : Value → Option String
  | .str text => some text
  | _ => none

/-- A block expects its result, if that is a string. -/
def expectResult (site : Site) (v : Value) : Action σ Unit :=
  match stringResult? v with
  | some text => do let _ ← check site .capture (.literal text)
  | none => pure ()

/-- Shows the number of a line, if lines are numbered. -/
def numberLine (n : Nat) : Action σ Unit := do
  if (← get).showLineNumbers then write s!"L{n}: "

/-- The action only shows something: from any session, it has this result. -/
def OnlyShows (x : Action σ α) (a : α) : Prop := ∀ s : Session σ, ∃ s', x.run s = .ok a s' ∧ s.Shows s'

theorem onlyShows_write (text : String) : OnlyShows (write text : Action σ Unit) () :=
  fun s => ⟨_, run_write text s, shows_write text s⟩

theorem onlyShows_dumpMatched (shown : Bool) : OnlyShows (dumpMatched shown : Action σ Unit) () :=
  run_dumpMatched shown

theorem onlyShows_collect (value : String) : OnlyShows (collect value : Action σ Unit) () :=
  fun _ => ⟨_, rfl, _, _, _, .inl rfl, rfl⟩

theorem onlyShows_present (text : String) : OnlyShows (present text : Action σ Unit) () := by
  intro s
  obtain ⟨s', hrun, hshows⟩ := run_dumpMatched s.showMatch (s.write text)
  exact ⟨s', hrun, (shows_write text s).trans hshows⟩

theorem onlyShows_numberLine (n : Nat) : OnlyShows (numberLine n : Action σ Unit) () := by
  intro s
  rw [numberLine, EStateM.run_bind, EStateM.run_get]
  dsimp only
  split
  · exact ⟨_, rfl, shows_write _ s⟩
  · exact ⟨s, rfl, .refl s⟩

theorem run_resolve_of_some (site : Site) {name : String} {v : Value} {s : Session σ} (h : s.vars.get? name = some v) :
    (resolve site name).run s = .ok v.text s := by
  rw [resolve, EStateM.run_bind, EStateM.run_get]
  simp only [h]
  rfl

theorem run_resolve_of_none (site : Site) {name : String} {s : Session σ} (h : s.vars.get? name = none) :
    (resolve site name).run s = .error (.unknownVariable site.file name site.place.line site.place.column) s := by
  rw [resolve, EStateM.run_bind, EStateM.run_get]
  simp only [h]
  rfl

/-! ## Steps by the kind of the token -/

theorem runScript_eq (src : String) :
    runScript link file src = runTokens link file none (tokens src) >>= conclude link file := by
  refine congrArg _ (funext fun line => ?_)
  cases line <;> rfl

variable {line : Option CommandLine} {t : Token}

theorem step_of_blank (hk : t.kind = .newline ∨ t.kind = .whitespace) :
    step link file line t =
      if t.endsLine then do
        finish link file line
        write t.text
        return none
      else do
        write t.text
        return line.map (·.add t.text) := by
  rcases hk with hk | hk <;> cases line <;> simp only [step, hk] <;> rfl

theorem step_of_expression (hk : t.kind = .expression) :
    step link file line t = do
      block ⟨file, t.place⟩ t
      return line := by
  simp only [step, hk]

/-- A block evaluates its program, expects the result and is shown as its program. -/
theorem block_of_some {site : Site} {source : String} {recorded : Option String}
    (hparts : t.expressionParts? = some (source, recorded)) :
    (block site t : Action σ Unit) = (do
      let v ← evaluate site source
      expectResult site v
      present ("$\x7b" ++ source ++ "\x7d$")) := by
  unfold block
  rw [hparts]
  dsimp only
  refine congrArg _ (funext fun v => ?_)
  cases v with
  | str text =>
    rw [expectResult, stringResult?, bind_assoc]
    rfl
  | null => rfl
  | bool b => rfl
  | int n => rfl
  | json j => rfl

theorem block_of_none {site : Site} (hparts : t.expressionParts? = none) :
    (block site t : Action σ Unit) = throw (site.syntaxFault malformed) := by
  unfold block
  rw [hparts]

theorem step_of_reference (hk : t.kind = .reference) :
    step link file line t = do
      let value ← resolve ⟨file, t.place⟩ (String.ofList (t.text.toList.drop 1))
      collect value
      expectValue ⟨file, t.place⟩ line value
      present t.text
      return line.map (·.add value) := by
  cases line with
  | none =>
    simp only [step, hk, collect, expectValue, present, bind_assoc, Option.isNone_none, if_true, pure_bind]
    rfl
  | some l =>
    simp only [step, hk]
    rfl

theorem step_of_comment (hk : t.kind = .comment) :
    step link file line t = do
      write t.text
      return line := by
  simp only [step, hk]

theorem step_of_opening (hk : t.kind = .commandMarker) :
    step link file none t = do
      flushResidual
      numberLine t.place.line
      write marker
      return some ⟨"", t.place⟩ := by
  simp only [step, hk, numberLine, bind_assoc]
  refine congrArg _ (funext fun _ => congrArg _ (funext fun s => ?_))
  split <;> rfl

/-- A marker within a command line is text of it. -/
theorem step_of_text (hk : t.kind = .literal ∨ t.kind = .commandMarker ∧ line.isSome) :
    step link file line t =
      if occurs ['$', '\x7b'] t.text.toList then throw (Site.syntaxFault ⟨file, t.place⟩ unterminated)
      else do
        expectText ⟨file, t.place⟩ line t.text
        dumpMatched false
        return line.map (·.add t.text) := by
  have htext : step link file line t =
      if occurs ['$', '\x7b'] t.text.toList then throw (Site.syntaxFault ⟨file, t.place⟩ unterminated)
      else if line.isSome then do
        write t.text
        dumpMatched false
        return line.map (·.add t.text)
      else do
        let _ ← check ⟨file, t.place⟩ .literal (.literal t.text)
        dumpMatched false
        return line.map (·.add t.text) := by
    cases line with
    | none =>
      have hk := hk.resolve_right fun h => Bool.false_ne_true h.2
      simp only [step, hk]
      split <;> rfl
    | some l => rcases hk with hk | ⟨hk, -⟩ <;> simp only [step, hk] <;> split <;> rfl
  rw [htext]
  cases line with
  | none => simp only [expectText, bind_assoc, Option.isSome_none, Bool.false_eq_true, if_false, pure_bind]
  | some l => rfl

end Steps

end Conformance.Script
