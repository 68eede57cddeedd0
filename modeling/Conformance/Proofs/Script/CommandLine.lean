import Conformance.Proofs.Output.Reading
import Conformance.Proofs.Script.Clients
import Conformance.Script.Run

/-!
# Command lines

The tokens behind a marker make up a command line, up to the token that ends the line. They change nothing of the
session but what is shown; then the command is sent, and the output of the active client is the reply.
-/
namespace Conformance.Script

open Text Expr

variable {σ : Type} {s s' s'' : Session σ}

/-- The sessions differ at most in what is shown, and in that no more is waiting to be shown. -/
def Session.Shows (s s' : Session σ) : Prop :=
  ∃ matched transcript pending, (pending = s.pending ∨ pending = none) ∧
    s' = { s with matched, transcript, pending }

/-- The output that is waiting to be shown can be read. -/
def Session.Readable (s : Session σ) : Prop :=
  ∀ name c, s.pending = some name → s.client? name = some c → c.output.CursorValid

/-- The text that a token behind a marker adds to the command line, if it can stand there. -/
def commandPart? (vars : Env) (t : Token) : Option String :=
  match t.kind with
  | .whitespace => if t.endsLine then none else some t.text
  | .literal | .commandMarker => if occurs ['$', '\x7b'] t.text.toList then none else some t.text
  | .reference => (vars.get? (String.ofList (t.text.toList.drop 1))).map (·.text)
  | .comment => some ""
  | .newline | .expression => none

/-- The command line that tokens behind a marker make up. -/
def commandText? (vars : Env) : List Token → Option String
  | [] => some ""
  | t :: ts => do return (← commandPart? vars t) ++ (← commandText? vars ts)

/-! ## Actions -/

theorem run_bind_ok {α β : Type} {x : Action σ α} {f : α → Action σ β} {a : α} (h : x.run s = .ok a s') :
    (x >>= f).run s = (f a).run s' := by
  rw [EStateM.run_bind, h]

theorem Session.Shows.refl (s : Session σ) : s.Shows s := ⟨_, _, _, .inl rfl, rfl⟩

theorem Session.Shows.trans (h : s.Shows s') (h' : s'.Shows s'') : s.Shows s'' := by
  obtain ⟨_, _, _, hpending, rfl⟩ := h
  obtain ⟨matched, transcript, pending, hpending', rfl⟩ := h'
  refine ⟨matched, transcript, pending, ?_, rfl⟩
  rcases hpending' with rfl | rfl
  · exact hpending
  · exact .inr rfl

/-- Output that does not wait can stay unread. -/
theorem Session.readable_of_pending (h : s.pending = none) : s.Readable := by
  intro name c hname
  rw [h] at hname
  contradiction

theorem Session.Shows.readable (h : s.Shows s') (hs : s.Readable) : s'.Readable := by
  obtain ⟨_, _, _, rfl | rfl, rfl⟩ := h
  · exact hs
  · exact Session.readable_of_pending rfl

theorem run_write (text : String) (s : Session σ) : (write text).run s = .ok () (s.write text) := rfl

theorem shows_write (text : String) (s : Session σ) : s.Shows (s.write text) := ⟨_, _, _, .inl rfl, rfl⟩

theorem run_dumpMatched (shown : Bool) (s : Session σ) :
    ∃ s', (dumpMatched shown).run s = .ok () s' ∧ s.Shows s' := by
  cases shown with
  | false => exact ⟨_, rfl, _, _, _, .inl rfl, rfl⟩
  | true => exact ⟨_, rfl, _, _, _, .inl rfl, rfl⟩

/-- Output with a valid cursor can be read. -/
theorem run_unread {c : Client} (h : c.output.CursorValid) (s : Session σ) :
    ∃ residual, (unread c).run s = .ok residual s := by
  obtain ⟨residual, hresidual⟩ := Option.isSome_iff_exists.1 (Output.State.residual?_isSome_iff.2 h)
  exact ⟨residual, by rw [unread, hresidual]; rfl⟩

/-- Output that can be read is shown without a fault, and then nothing is waiting to be shown. -/
theorem run_flushResidual (h : s.Readable) :
    ∃ s', flushResidual.run s = .ok () s' ∧ s.Shows s' ∧ s'.pending = none := by
  unfold flushResidual
  rw [EStateM.run_bind, EStateM.run_get]
  dsimp only
  cases hpending : s.pending with
  | none => exact ⟨s, rfl, .refl s, hpending⟩
  | some name =>
    dsimp only
    rw [EStateM.run_bind, EStateM.run_set]
    dsimp only
    cases hclient : s.client? name with
    | none => exact ⟨_, rfl, ⟨_, _, _, .inr rfl, rfl⟩, rfl⟩
    | some c =>
      obtain ⟨residual, hunread⟩ := run_unread (h name c hpending hclient) { s with pending := none }
      dsimp only
      rw [run_bind_ok hunread]
      split
      · exact ⟨_, rfl, ⟨_, _, _, .inr rfl, rfl⟩, rfl⟩
      · split
        · exact ⟨_, rfl, ⟨_, _, _, .inr rfl, rfl⟩, rfl⟩
        · exact ⟨_, rfl, ⟨_, _, _, .inr rfl, rfl⟩, rfl⟩

/-- The program breaks down when the output that is to be shown cannot be read. -/
theorem run_flushResidual_of_not_readable (h : ¬s.Readable) :
    ∃ f s', flushResidual.run s = .error f s' ∧ s'.crashed = true := by
  simp only [Session.Readable, Classical.not_forall] at h
  obtain ⟨name, c, hpending, hclient, hinvalid⟩ := h
  have hnone : c.output.residual? = none := by
    rw [← Option.not_isSome_iff_eq_none, Output.State.residual?_isSome_iff]
    exact hinvalid
  unfold flushResidual
  rw [EStateM.run_bind, EStateM.run_get]
  dsimp only
  rw [hpending]
  dsimp only
  rw [EStateM.run_bind, EStateM.run_set]
  dsimp only
  rw [hclient]
  dsimp only
  rw [EStateM.run_bind, unread, hnone]
  exact ⟨_, _, rfl, rfl⟩

/-! ## The tokens of a command line -/

variable (link : Link σ) (file : String)

/-- A marker opens a command line. -/
theorem step_commandMarker {t : Token} (h : t.kind = .commandMarker) (hs : s.Readable) :
    ∃ s', (step link file none t).run s = .ok (some ⟨"", t.place⟩) s' ∧ s.Shows s' := by
  obtain ⟨u, hu, hsu, -⟩ := run_flushResidual hs
  simp only [step, h]
  rw [run_bind_ok hu, EStateM.run_bind, EStateM.run_get]
  dsimp only
  split
  · exact ⟨_, rfl, hsu.trans ⟨_, _, _, .inl rfl, rfl⟩⟩
  · exact ⟨_, rfl, hsu.trans ⟨_, _, _, .inl rfl, rfl⟩⟩

/-- Text behind a marker is shown and added to the command line, also another marker. -/
theorem step_text {t : Token} (hk : t.kind = .literal ∨ t.kind = .commandMarker)
    (hopen : occurs ['$', '\x7b'] t.text.toList = false) (line : CommandLine) (s : Session σ) :
    ∃ s', (step link file (some line) t).run s = .ok (some { line with text := line.text ++ t.text }) s' ∧
      s.Shows s' := by
  obtain ⟨u, hu, hsu⟩ := run_dumpMatched false (s.write t.text)
  refine ⟨u, ?_, (shows_write t.text s).trans hsu⟩
  rcases hk with hk | hk
  all_goals
    simp only [step, hk, hopen, Option.isSome_some, if_true, Bool.false_eq_true, if_false, Option.map_some]
    rw [run_bind_ok (run_write t.text s), run_bind_ok hu]
    rfl

/-- A token behind a marker adds its part to the command line. -/
theorem step_commandPart {t : Token} {part : String} (h : commandPart? s.vars t = some part)
    (line : CommandLine) :
    ∃ s', (step link file (some line) t).run s = .ok (some { line with text := line.text ++ part }) s' ∧
      s.Shows s' := by
  unfold commandPart? at h
  cases hk : t.kind with
  | newline => simp [hk] at h
  | expression => simp [hk] at h
  | whitespace =>
    simp only [hk] at h
    obtain ⟨hends, hpart⟩ := Option.ite_none_left_eq_some.1 h
    obtain rfl := Option.some.inj hpart
    simp only [step, hk, if_neg hends]
    exact ⟨_, rfl, shows_write t.text s⟩
  | literal =>
    simp only [hk] at h
    obtain ⟨hopen, hpart⟩ := Option.ite_none_left_eq_some.1 h
    obtain rfl := Option.some.inj hpart
    exact step_text link file (.inl hk) (Bool.not_eq_true _ ▸ hopen) line s
  | commandMarker =>
    simp only [hk] at h
    obtain ⟨hopen, hpart⟩ := Option.ite_none_left_eq_some.1 h
    obtain rfl := Option.some.inj hpart
    exact step_text link file (.inr hk) (Bool.not_eq_true _ ▸ hopen) line s
  | reference =>
    simp only [hk] at h
    obtain ⟨v, hv, rfl⟩ := Option.map_eq_some_iff.1 h
    -- the value is collected before the reference itself is written
    let shown := ({ s with matched := s.matched ++ [v.text] } : Session σ).write t.text
    obtain ⟨u, hu, hsu⟩ := run_dumpMatched shown.showMatch shown
    refine ⟨u, ?_, Session.Shows.trans ⟨_, _, _, .inl rfl, rfl⟩ hsu⟩
    have hresolve : (resolve ⟨file, t.place⟩ (String.ofList (t.text.toList.drop 1))).run s = .ok v.text s := by
      rw [resolve, EStateM.run_bind, EStateM.run_get]
      dsimp only
      rw [hv]
      rfl
    simp only [step, hk, Option.isNone_some, Bool.false_eq_true, if_false]
    rw [run_bind_ok hresolve, EStateM.run_bind, EStateM.run_modify]
    dsimp only
    rw [run_bind_ok (run_write t.text _), EStateM.run_bind, EStateM.run_get]
    dsimp only
    rw [run_bind_ok hu]
    rfl
  | comment =>
    simp only [hk] at h
    obtain rfl := Option.some.inj h
    simp only [step, hk, String.append_empty]
    exact ⟨_, rfl, shows_write t.text s⟩

/-- What is shown does not matter to what tokens add to a command line. -/
theorem Session.Shows.vars_eq (h : s.Shows s') : s'.vars = s.vars := by
  obtain ⟨_, _, _, -, rfl⟩ := h
  rfl

theorem run_runTokens_cons {t : Token} {ts : List Token} {line line' : Option CommandLine}
    (h : (step link file line t).run s = .ok line' s') :
    (runTokens link file line (t :: ts)).run s = (runTokens link file line' ts).run s' := by
  rw [runTokens, run_bind_ok h]

/-- The tokens behind a marker make up the command line. -/
theorem runTokens_commandText {ts : List Token} (rest : List Token) {text : String}
    (h : commandText? s.vars ts = some text) (line : CommandLine) :
    ∃ s', (runTokens link file (some line) (ts ++ rest)).run s =
        (runTokens link file (some { line with text := line.text ++ text }) rest).run s' ∧ s.Shows s' := by
  induction ts generalizing s text line with
  | nil =>
    obtain rfl := Option.some.inj h
    refine ⟨s, ?_, .refl s⟩
    rw [String.append_empty]
    rfl
  | cons t ts ih =>
    obtain ⟨part, hpart, h⟩ := Option.bind_eq_some_iff.1 h
    obtain ⟨more, hmore, h⟩ := Option.bind_eq_some_iff.1 h
    obtain rfl := Option.some.inj h
    obtain ⟨u, hu, hsu⟩ := step_commandPart link file hpart line
    obtain ⟨v, hv, huv⟩ := ih (hsu.vars_eq ▸ hmore) { line with text := line.text ++ part }
    refine ⟨v, ?_, hsu.trans huv⟩
    rw [List.cons_append, run_runTokens_cons link file hu, hv]
    simp only [String.append_assoc]

/-! ## The end of a command line -/

/-- What a command leaves behind when the active client has answered it. -/
structure Session.Answered (s s' : Session σ) (name command reply : String) (c : Client) : Prop where
  enabled : s'.expectEnabled = s.expectEnabled
  active : s'.active = some name
  failures : s'.failures = s.failures
  pending : ∀ n, s'.pending = some n → n = name
  client : s'.client? name = some { c with output := c.output.reset reply, lastCommand := some command }

theorem Session.Shows.answered {name command reply : String} {c : Client} (h : s.Answered s' name command reply c)
    (h' : s'.Shows s'') : s.Answered s'' name command reply c := by
  obtain ⟨_, _, _, hpending, rfl⟩ := h'
  refine ⟨h.enabled, h.active, h.failures, fun n hn => ?_, h.client⟩
  rcases hpending with rfl | rfl
  · exact h.pending n hn
  · contradiction

variable {name reply : String} {c : Client} {state : σ}

theorem run_activeClient (hactive : s.active = some name) (hclient : s.client? name = some c) :
    activeClient.run s = .ok c s := by
  rw [activeClient, EStateM.run_bind, EStateM.run_get]
  simp only [hactive, hclient]
  rfl

/-- A command is sent to the active client, whose output is then the reply. -/
theorem run_execute {line : CommandLine} (hbang : line.text.trimWhite.toList.head? ≠ some '!')
    (hactive : s.active = some name) (hclient : s.client? name = some c)
    (hsend : link.send name line.text.trimWhite s.link = (.ok reply, state)) :
    ∃ s', (execute link file line).run s = .ok () s' ∧ s.Answered s' name line.text.trimWhite reply c := by
  have hname := Session.client?_name hclient
  rw [execute, if_neg hbang, sendCommand, run_bind_ok (run_activeClient hactive hclient), EStateM.run_bind,
    EStateM.run_get]
  simp only [hname, hsend]
  refine ⟨_, rfl, rfl, hactive, rfl, fun n hn => (Option.some.inj hn).symm, ?_⟩
  exact Session.client?_updateClient (f := fun c =>
    { c with output := c.output.reset reply, lastCommand := some line.text.trimWhite }) hclient fun _ h => h

/-- The token that ends the line has the command carried out. -/
theorem step_endsLine {t : Token} (line : CommandLine) (hk : t.kind = .whitespace ∨ t.kind = .newline)
    (hends : t.endsLine = true) (hbang : line.text.trimWhite.toList.head? ≠ some '!')
    (hactive : s.active = some name) (hclient : s.client? name = some c)
    (hsend : link.send name line.text.trimWhite s.link = (.ok reply, state)) :
    ∃ s', (step link file (some line) t).run s = .ok none s' ∧
      s.Answered s' name line.text.trimWhite reply c := by
  obtain ⟨u, hu, hsu⟩ := run_execute link file hbang hactive hclient hsend
  refine ⟨u.write t.text, ?_, (shows_write t.text u).answered hsu⟩
  rcases hk with hk | hk
  all_goals
    simp only [step, hk, hends, if_true]
    rw [run_bind_ok hu]
    rfl

end Conformance.Script
