import Conformance.Proofs.Output.Literal
import Conformance.Proofs.Script.StringExpectations

/-!
# Output that is expected as it is

The text that is unread can be expected as it is, by a reference, by the result of a block or by a call of `expect_str`.
Each of them comes to one check of this text (`check_verbatim`). Blanks are passed over before anything is compared, so
the check is met exactly if the text does not begin with one, whatever blanks and newlines there are further behind
(`verbatim_output_matches`).
-/
namespace Conformance.Script

open Text Expr Output

variable {σ α : Type} {s u v : Session σ}

/-! ## Outputs that have been read out -/

/-- The text does not begin with a blank. -/
def BeginsSolid (text : String) : Prop := ∀ c ∈ text.toList.head?, isOutputBlank c = false

instance (text : String) : Decidable (BeginsSolid text) :=
  decidable_of_iff (text.toList.head?.all (!isOutputBlank ·) = true) (by
    rw [BeginsSolid]
    cases text.toList.head? <;> simp)

/-- All that is unread has been read as it was expected to be: nothing has failed since `s`, and the active client has
no unread output. -/
structure Session.ReadOut (s u : Session σ) : Prop where
  failures : u.failures = s.failures
  unread : u.activeClient?.bind (·.output.residual?) = some ""
  failureCount : u.activeClient?.map (·.output.failureCount) = s.activeClient?.map (·.output.failureCount)
  hasFailed : u.activeClient?.map (·.output.hasFailed) = s.activeClient?.map (·.output.hasFailed)

/-- The action, done from `s₀`, has its result, and nothing has failed in it since `s`. -/
def ReadsOut (x : Action σ α) (s₀ s : Session σ) : Prop := ∃ a u, x.run s₀ = .ok a u ∧ s.ReadOut u

theorem readsOut_iff {x : Action σ α} {a : α} {s₀ : Session σ} (h : x.run s₀ = .ok a u) :
    ReadsOut x s₀ s ↔ s.ReadOut u := by
  constructor
  · rintro ⟨b, w, hrun, hread⟩
    rw [h] at hrun
    injection hrun with _ hw
    exact hw ▸ hread
  · exact fun hread => ⟨a, u, h, hread⟩

/-- What is shown or collected does not matter. -/
theorem Session.Shows.readOut_iff {s' u' : Session σ} (h : s.Shows s') (h' : u.Shows u') :
    s'.ReadOut u' ↔ s.ReadOut u := by
  obtain ⟨_, _, _, -, rfl⟩ := h
  obtain ⟨_, _, _, -, rfl⟩ := h'
  exact ⟨fun h => ⟨h.failures, h.unread, h.failureCount, h.hasFailed⟩,
    fun h => ⟨h.failures, h.unread, h.failureCount, h.hasFailed⟩⟩

theorem exists_at_of_residual? {output : State} {text : String} (h : output.residual? = some text) :
    ∃ before, output.At before text.toList := by
  have hvalid : output.CursorValid := State.residual?_isSome_iff.1 (Option.isSome_of_eq_some h)
  obtain ⟨before, after, hat⟩ := State.cursorValid_iff.1 hvalid
  have htext := Option.some.inj (hat.residual?_eq.symm.trans h)
  rw [← htext, String.toList_ofList]
  exact ⟨before, hat⟩

theorem run_record_matched (site : Site) (echo : Echo) (c : Client) (text : String) (groups : Captures)
    (s : Session σ) : ∃ u, (record site echo c (.matched text groups)).run s = .ok groups u ∧ s.Shows u := by
  cases echo with
  | literal => exact ⟨_, rfl, shows_write text s⟩
  | capture => exact ⟨_, rfl, _, _, _, .inl rfl, rfl⟩
  | silent => exact ⟨_, rfl, .refl s⟩

section Verbatim

variable {c : Client} {text : String} (henabled : s.expectEnabled = true) (hclient : s.activeClient? = some c)
  (hunread : c.output.residual? = some text) (hne : text ≠ "")
include henabled hclient hunread hne

/-- The check of the text that is unread is met if the text does not begin with a blank, and only then. -/
theorem check_verbatim (site : Site) (echo : Echo) :
    ∃ groups u, (check site echo (.literal text)).run s = .ok groups u ∧ (s.ReadOut u ↔ BeginsSolid text) := by
  obtain ⟨before, hat⟩ := exists_at_of_residual? hunread
  obtain ⟨hactive, hlookup⟩ := Session.active_of_activeClient? hclient
  have hchecked : s.checkedClient? (.literal text) = some c := by
    have hne : Expectation.literal text ≠ .literal "" := fun h => hne (Expectation.literal.inj h)
    rw [Session.checkedClient?, if_pos ⟨henabled, hne⟩, hclient, Option.filter_some, hunread]
    rfl
  rw [run_check_of_checked site echo hchecked]
  -- blanks are passed before a text is looked for, so a text that begins with one is never found
  by_cases hsolid : BeginsSolid text
  · have hcheck : c.output.check (.literal text) = (.ok (.matched text []), c.output.take text.toList) := by
      rw [State.check, matchLiteral_verbatim hat hsolid]
      rfl
    rw [hcheck]
    let read (d : Client) : Client := { d with output := c.output.take text.toList }
    have hread : (s.updateClient c.name read).activeClient? = some (read c) := by
      have hsame : (s.updateClient c.name read).active = some c.name := hactive
      rw [Session.activeClient?, hsame, Option.bind_some, Session.client?_updateClient (f := read) hlookup fun _ h => h]
    have hend : (c.output.take text.toList).residual? = some "" := by
      have hall : c.output.At before (text.toList ++ []) := by rwa [List.append_nil]
      exact hall.take.residual?_eq
    obtain ⟨u, hrun, hshows⟩ := run_record_matched site echo c text [] (s.updateClient c.name read)
    refine ⟨[], u, hrun, iff_of_true (((Session.Shows.refl s).readOut_iff hshows).2 ⟨rfl, ?_, ?_, ?_⟩) hsolid⟩
    · rw [hread]
      exact hend
    · rw [hread, hclient]
      rfl
    · rw [hread, hclient]
      rfl
  · obtain ⟨d, hd, hblank⟩ : ∃ d ∈ text.toList.head?, isOutputBlank d = true := by
      simpa [BeginsSolid] using hsolid
    obtain ⟨actual, hmismatch⟩ := matchLiteral_of_blank hat hd hblank
    have hresult : (c.output.check (.literal text)).1 = .ok (.mismatch text actual) := congrArg Except.ok hmismatch
    rw [hresult]
    let u := s.updateClient c.name fun d => { d with output := (c.output.check (.literal text)).2 }
    obtain ⟨added, hfailures, -, hadded, -⟩ := record_end site echo c (.mismatch text actual) u
    have hnonempty : added ≠ [] := by
      rintro rfl
      cases hadded
    cases hrun : (record site echo c (.mismatch text actual)).run u with
    | error f v => exact absurd hrun (neverFails_record site echo c _ u f v)
    | ok groups v =>
      rw [endOf_of_ok hrun] at hfailures
      refine ⟨groups, v, rfl, iff_of_false (fun hread => hnonempty ?_) hsolid⟩
      exact List.append_right_eq_self.1 (hfailures.symm.trans hread.failures)

/-! ## Three ways to expect a string -/

theorem readsOut_reference (link : Link σ) (file : String) {t : Token} {name : String} (hk : t.kind = .reference)
    (htext : t.text = "$" ++ name) (hv : s.vars.get? name = some (.str text)) :
    ReadsOut (step link file none t) s s ↔ BeginsSolid text := by
  have hstep := (standsFor link file hv hk (by rw [htext, String.toList_append]; rfl)).expected
  -- The string is collected before it is checked.
  let s₁ : Session σ := { s with matched := s.matched ++ [text] }
  have hcollects : s.Shows s₁ := ⟨_, _, _, .inl rfl, rfl⟩
  obtain ⟨groups, u, hcheck, hread⟩ := check_verbatim (s := s₁) henabled hclient hunread hne ⟨file, t.place⟩ .silent
  obtain ⟨v, hpresent, hshows⟩ := onlyShows_present t.text u
  have hrun : (step link file none t).run s = .ok none v := by
    have hcollect : (collect text : Action σ Unit).run s = .ok () s₁ := rfl
    have hexpect : (expectValue ⟨file, t.place⟩ none text : Action σ Unit).run s₁ = .ok () u :=
      (run_bind_ok hcheck).trans rfl
    refine hstep.trans ((run_bind_ok hcollect).trans ?_)
    exact (run_bind_ok hexpect).trans ((run_bind_ok hpresent).trans rfl)
  rw [readsOut_iff hrun, (Session.Shows.refl s).readOut_iff hshows, ← hcollects.readOut_iff (.refl u), hread]

theorem readsOut_block (link : Link σ) (file : String) (line : Option CommandLine) {t : Token} {source : String}
    {recorded : Option String} {s₀ : Session σ} (hk : t.kind = .expression)
    (hparts : t.expressionParts? = some (source, recorded))
    (hvalue : (evaluate ⟨file, t.place⟩ source).run s₀ = .ok (.str text) s) :
    ReadsOut (step link file line t) s₀ s ↔ BeginsSolid text := by
  obtain ⟨groups, u, hcheck, hread⟩ := check_verbatim henabled hclient hunread hne ⟨file, t.place⟩ .capture
  obtain ⟨v, hpresent, hshows⟩ := onlyShows_present ("$\x7b" ++ source ++ "\x7d$") u
  have hexpect : (expectResult ⟨file, t.place⟩ (.str text) : Action σ Unit).run s = .ok () u :=
    (run_bind_ok hcheck).trans rfl
  have hrun : (step link file line t).run s₀ = .ok line v := by
    rw [step_of_expression link file hk, block_of_some hparts, bind_assoc, run_bind_ok hvalue, bind_assoc,
      run_bind_ok hexpect, run_bind_ok hpresent]
    rfl
  rw [readsOut_iff hrun, (Session.Shows.refl s).readOut_iff hshows, hread]

theorem readsOut_call (site : Site) {env : Env} {e : Tree} {s₀ : Session σ}
    (hvalue : (evalTree (check site .capture) env e).run s₀ = .ok (.str text) s) :
    ReadsOut (evalTree (check site .capture) env (.call "expect_str" [e])) s₀ s ↔ BeginsSolid text := by
  obtain ⟨groups, u, hcheck, hread⟩ := check_verbatim henabled hclient hunread hne site .capture
  have hcall : (evalTree (check site .capture) env (.call "expect_str" [e])).run s₀ =
      (applyBuiltin (check site .capture) .expectStr "expect_str" [.str text]).run s := run_call_of_ok rfl hvalue
  have hrun : (applyBuiltin (check site .capture) .expectStr "expect_str" [.str text]).run s = .ok .null u := by
    rw [applyBuiltin]
    exact (run_bind_ok hcheck).trans rfl
  rw [readsOut_iff (hcall.trans hrun), hread]

end Verbatim

/-- What is unread is met by the string that is the same, in whatever way the string is expected, if it does not begin
with a blank; if it does, the blank is passed over first, and a failure is recorded. -/
theorem verbatim_output_matches (link : Link σ) (file : String) {c : Client} {text : String}
    (henabled : s.expectEnabled = true) (hclient : s.activeClient? = some c) (hunread : c.output.residual? = some text)
    (hne : text ≠ "") :
    (∀ (t : Token) (name : String), t.kind = .reference → t.text = "$" ++ name → s.vars.get? name = some (.str text) →
      (ReadsOut (step link file none t) s s ↔ BeginsSolid text)) ∧
    (∀ (line : Option CommandLine) (t : Token) (source : String) (recorded : Option String) (s₀ : Session σ),
      t.kind = .expression → t.expressionParts? = some (source, recorded) →
      (evaluate ⟨file, t.place⟩ source).run s₀ = .ok (.str text) s →
      (ReadsOut (step link file line t) s₀ s ↔ BeginsSolid text)) ∧
    ∀ (site : Site) (env : Env) (e : Tree) (s₀ : Session σ),
      (evalTree (check site .capture) env e).run s₀ = .ok (.str text) s →
      (ReadsOut (evalTree (check site .capture) env (.call "expect_str" [e])) s₀ s ↔ BeginsSolid text) :=
  ⟨fun _ _ hk htext hv => readsOut_reference henabled hclient hunread hne link file hk htext hv,
    fun line _ _ _ _ hk hparts hvalue => readsOut_block henabled hclient hunread hne link file line hk hparts hvalue,
    fun site _ _ _ hvalue => readsOut_call henabled hclient hunread hne site hvalue⟩

/-- A string of several words and lines, which stands behind what has been read already. -/
theorem verbatim_output_matches_lines :
    let link : Link Unit := ⟨fun _ _ state => (.ok "", state)⟩
    let text := "a  b\n\n c "
    let c : Client := { name := "alice", output := { buffer := "> " ++ text, cursor := 2 } }
    let s : Session Unit :=
      { vars := Env.empty.set "x" (.str text), active := some "alice", clients := [c], link := () }
    s.expectEnabled = true ∧ s.activeClient? = some c ∧ c.output.residual? = some text ∧ text ≠ "" ∧
      s.vars.get? "x" = some (.str text) ∧
      (evaluate ⟨"a.btstest", ⟨3, 1⟩⟩ " x ").run s = .ok (.str text) s ∧
      (evalTree (check ⟨"a.btstest", ⟨3, 1⟩⟩ .capture) s.vars (.var "x")).run s = .ok (.str text) s ∧
      ReadsOut (step link "a.btstest" none ⟨"$x", ⟨3, 1⟩⟩) s s ∧
      ReadsOut (step link "a.btstest" none ⟨"$\x7b x \x7d$", ⟨3, 1⟩⟩) s s ∧
      ReadsOut (evalTree (check ⟨"a.btstest", ⟨3, 1⟩⟩ .capture) s.vars (.call "expect_str" [.var "x"])) s s := by
  intro link text c s
  have hclient : s.activeClient? = some c := by decide +kernel
  have hunread : c.output.residual? = some text := by decide +kernel
  have hne : text ≠ "" := by decide +kernel
  have hv : s.vars.get? "x" = some (.str text) := by decide +kernel
  have hname : IsName "x".toList := isName_of_isReferenceName (by decide +kernel)
  have hsource : " " ++ "x" ++ " " = " x " := by decide +kernel
  have hvalue := evaluate_name hname (by decide +kernel) hv ⟨"a.btstest", ⟨3, 1⟩⟩
  rw [hsource] at hvalue
  have hvar : (evalTree (check ⟨"a.btstest", ⟨3, 1⟩⟩ .capture) s.vars (.var "x")).run s = .ok (.str text) s := by
    rw [evalTree, hv]
    rfl
  have hsolid : BeginsSolid text := by decide +kernel
  obtain ⟨hreference, hblock, hcall⟩ := verbatim_output_matches link "a.btstest" rfl hclient hunread hne
  refine ⟨rfl, hclient, hunread, hne, hv, hvalue, hvar, ?_, ?_, ?_⟩
  · exact (hreference ⟨"$x", ⟨3, 1⟩⟩ "x" (by decide +kernel) (by decide +kernel) hv).2 hsolid
  · exact (hblock none ⟨"$\x7b x \x7d$", ⟨3, 1⟩⟩ " x " none s (by decide +kernel) (by decide +kernel) hvalue).2 hsolid
  · exact (hcall ⟨"a.btstest", ⟨3, 1⟩⟩ s.vars (.var "x") s hvar).2 hsolid

/-- The string that is unread, with a blank in front, is not met in any way. -/
theorem verbatim_output_with_leading_blank :
    let link : Link Unit := ⟨fun _ _ state => (.ok "", state)⟩
    let s : Session Unit :=
      { vars := Env.empty.set "x" (.str " a"), active := some "alice", link := (),
        clients := [{ name := "alice", output := { buffer := " a" } }] }
    s.expectEnabled = true ∧ s.activeClient?.bind (·.output.residual?) = some " a" ∧
      s.vars.get? "x" = some (.str " a") ∧
      ∀ src ∈ ["$x", "$\x7b x \x7d$", "$\x7b expect_str(x) \x7d$"],
        resultOf (runScript link "a.btstest" src) s = .ok () ∧
          (endOf (runScript link "a.btstest" src) s).failures = [⟨"a.btstest", 1, 1, "alice", none, " a", "a"⟩] := by
  decide +kernel

end Conformance.Script
