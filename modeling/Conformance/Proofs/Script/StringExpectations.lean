import Conformance.Proofs.Expr.Numerals
import Conformance.Proofs.Expr.Parsing
import Conformance.Proofs.Script.Assignments
import Conformance.Proofs.Script.Blocks
import Conformance.Proofs.Script.Showing
import Conformance.Proofs.Script.Variables

/-!
# Strings that are expected

A script expects the string that a variable holds by a reference, by a block with this value, or by a call of
`expect_str` in a block. The three go different ways, and all come down to one check of one literal (`expecting`; see
`run_reference`, `run_block_of_value` and `run_block_of_call`).

What a check shows is all that sets these kinds of echo apart (`still_check`), so the three scripts do the same but for
what they show (`string_expectations_agree`).
-/
namespace Conformance.Script

open Text Expr Output

variable {σ α β : Type} {s u v : Session σ}

/-! ## Names -/

theorem toNat_of_isNameStart {c : Char} (h : isNameStart c = true) :
    65 ≤ c.toNat ∧ c.toNat ≤ 90 ∨ c.toNat = 95 ∨ 97 ≤ c.toNat ∧ c.toNat ≤ 122 := by
  rcases Bool.or_eq_true_iff.1 h with hletter | hunderscore
  · rcases Bool.or_eq_true_iff.1 hletter with hupper | hlower
    · exact .inl (of_decide_eq_true hupper)
    · obtain ⟨hlow, hhigh⟩ := Bool.and_eq_true_iff.1 hlower
      exact .inr (.inr ⟨of_decide_eq_true hlow, of_decide_eq_true hhigh⟩)
  · obtain rfl := of_decide_eq_true hunderscore
    exact .inr (.inl rfl)

theorem continuesName_of_isNameRest {c : Char} (h : isNameRest c = true) : continuesName c = true := by
  simp only [isNameRest, Char.isAlphanum, Bool.or_eq_true] at h
  rcases h with (h | h) | h
  · have hascii : c.toNat < 0x80 := by
      have hrange := toNat_of_isNameStart (c := c) (by simp [isNameStart, h])
      omega
    simp [continuesName, isAlphanumeric, isAlphabetic, hascii, h]
  · exact continuesName_of_isDigit h
  · simp [continuesName, h]

theorem opensName_of_isNameStart {c : Char} (h : isNameStart c = true) : OpensName c := by
  have hrange := toNat_of_isNameStart h
  have hascii : c.toNat < 0x80 := by omega
  refine ⟨?_, ?_, ?_, ?_⟩
  · rintro rfl
    exact absurd hrange (by decide)
  · refine Bool.eq_false_iff.2 fun hwhite => ?_
    simp only [isWhite, Bool.or_eq_true, Bool.and_eq_true, decide_eq_true_eq] at hwhite
    omega
  · refine Bool.eq_false_iff.2 fun hdigit => ?_
    have hdigits := toNat_of_isDigit hdigit
    omega
  · simpa [beginsName, isAlphabetic, hascii, isNameStart] using h

/-- The names that references know are names in expressions. -/
theorem isName_of_isReferenceName {name : List Char} (h : isReferenceName name = true) : IsName name := by
  cases name with
  | nil => cases h
  | cons c r =>
    obtain ⟨hc, hr⟩ := Bool.and_eq_true_iff.1 h
    exact ⟨c, r, rfl, opensName_of_isNameStart hc, fun d hd => continuesName_of_isNameRest (List.all_eq_true.1 hr d hd)⟩

theorem not_mem_keywords {name : String} (h : keyword? name = none) : name ∉ keywords := by
  unfold keyword? at h
  simp only [keywords, List.mem_cons, List.not_mem_nil, or_false, not_or]
  refine ⟨?_, ?_, ?_⟩ <;> rintro rfl <;> cases h

/-! ## Scripts of one token -/

/-- The script that calls for the string in a variable. -/
def callOf (name : String) : String := " expect_str(" ++ name ++ ") "

/-- The source of a block that its end does not occur in, not even in part. -/
def Unclosed (source : String) : Prop := ∀ q ∈ ['\x7d', '$'], q ∉ source.toList

instance (source : String) : Decidable (Unclosed source) :=
  decidable_of_iff (['\x7d', '$'].all (fun q => decide (q ∉ source.toList)) = true) (by simp [Unclosed])

theorem Unclosed.legible {source : String} (h : Unclosed source) : Legible source none := by
  refine ⟨fun hclosed => ?_, fun r hr => by cases hr⟩
  exact h '\x7d' (by decide) (hclosed.subset (by decide))

/-- A script that is one lexeme is one token. -/
theorem tokens_of_whole {src : String} {k : Kind} (h : lexeme? src.toList = some ⟨k, src.toList, []⟩) :
    tokens src = [⟨src, .start⟩] ∧ (⟨src, .start⟩ : Token).kind = k := by
  constructor
  · rw [tokens, lexemes_of_lexeme? h, lexemes]
    simp only [List.map_cons, List.map_nil, place, String.ofList_toList]
  · exact (lexeme?_classified h).1.kindOf

theorem blockOf_append_recordOf (source : String) : blockOf source ++ recordOf none = blockOf source :=
  String.append_empty

theorem tokens_blockOf {source : String} (h : Unclosed source) :
    tokens (blockOf source) = [⟨blockOf source, .start⟩] ∧ (⟨blockOf source, .start⟩ : Token).kind = .expression := by
  have hform : Form .expression (blockOf source ++ recordOf none).toList [] :=
    h.legible.form fun _ x y heq => by simp at heq
  have hlexeme := lexeme?_of_block hform
  rw [blockOf_append_recordOf, List.append_nil] at hlexeme
  exact tokens_of_whole hlexeme

theorem expressionParts?_blockOf {source : String} (h : Unclosed source) (place : Position) :
    (⟨blockOf source, place⟩ : Token).expressionParts? = some (source, none) := by
  have hparts := h.legible.expressionParts?_eq place
  rwa [blockOf_append_recordOf] at hparts

theorem tokens_dollar {name : String} (h : isReferenceName name.toList = true) :
    tokens ("$" ++ name) = [⟨"$" ++ name, .start⟩] ∧ (⟨"$" ++ name, .start⟩ : Token).kind = .reference := by
  have hlexeme : lexeme? ('$' :: (name.toList ++ [])) = some ⟨.reference, '$' :: name.toList, []⟩ :=
    lexeme?_dollar h fun c hc => by cases hc
  refine tokens_of_whole ?_
  rw [String.toList_append]
  rwa [List.append_nil] at hlexeme

/-- A name closes no block, whatever is written around it. -/
theorem unclosed_of_name {name before behind : String} (h : isReferenceName name.toList = true)
    (hbefore : Unclosed before) (hbehind : Unclosed behind) : Unclosed (before ++ name ++ behind) := by
  have hchars : ∀ q ∈ ['\x7d', '$'], isNameStart q = false ∧ isNameRest q = false := by
    simp only [List.forall_mem_cons, List.not_mem_nil, false_implies, implies_true, and_true]
    decide
  intro q hq
  obtain ⟨hstart, hrest⟩ := hchars q hq
  rw [String.toList_append, String.toList_append, List.mem_append, List.mem_append, not_or, not_or]
  refine ⟨⟨hbefore q hq, fun hmem => ?_⟩, hbehind q hq⟩
  cases hname : name.toList with
  | nil =>
    rw [hname] at hmem
    cases hmem
  | cons c r =>
    rw [hname] at h hmem
    obtain ⟨hc, hr⟩ := Bool.and_eq_true_iff.1 h
    rcases List.mem_cons.1 hmem with rfl | hmem
    · exact Bool.false_ne_true (hstart.symm.trans hc)
    · exact Bool.false_ne_true (hrest.symm.trans (List.all_eq_true.1 hr q hmem))

/-! ## Programs that expect a string -/

theorem lex_callOf {name : String} (hname : IsName name.toList) :
    lex (callOf name).toList = .ok [.ident "expect_str", .op .lparen, .ident name, .op .rparen] := by
  have hcallee : IsName "expect_str".toList := isName_of_isReferenceName (by decide +kernel)
  have htext : (callOf name).toList = ' ' :: ("expect_str".toList ++ ('(' :: (name.toList ++ (')' :: [' '])))) := by
    simp [callOf]
  have hopening : ∀ r, lex ('(' :: r) = (lex r).map (.op .lparen :: ·) := fun r =>
    lex_written (.op .lparen) fun _ _ => rfl
  have hclosing : ∀ r, lex (')' :: r) = (lex r).map (.op .rparen :: ·) := fun r =>
    lex_written (.op .rparen) fun _ _ => rfl
  -- Both names end at a parenthesis.
  have hborder : ∀ {d : Char} (r : List Char), continuesName d = false →
      ∀ c ∈ (d :: r).head?, continuesName c = false := by
    intro d r hd c hc
    obtain rfl := Option.mem_some.1 hc
    exact hd
  rw [htext, lex_blank (by decide) (by decide), hcallee.lex_append (hborder _ (by decide)), hopening,
    hname.lex_append (hborder _ (by decide)), hclosing, lex_blank (by decide) (by decide), lex]
  rfl

/-- A block that calls for the string in a variable is read as this call. -/
theorem read_callOf {name : String} (hname : IsName name.toList) (hkeyword : name ∉ keywords) :
    Expr.read (callOf name) = .ok [.eval (.call "expect_str" [.var name])] := by
  have hcall : Writes .applied ([.ident "expect_str"] ++ .op .lparen :: (separated [([.ident name], .var name)] ++
      [.op .rparen])) (.call "expect_str" [.var name]) :=
    .call (.name (by decide)) _
      (List.forall_mem_singleton.2 (.inner (.inner (.inner (.inner (.inner (.name hkeyword)))))))
  rw [separated_singleton] at hcall
  rw [Expr.read, lex_callOf hname]
  exact program_of_writesProgram (.last (.eval (.inner (.inner (.inner (.inner hcall))))))

/-! ## Sessions apart from what is shown -/

/-- The session without what has been shown and what is collected to be shown. -/
def Session.still (s : Session σ) : Session σ := { s with transcript := "", matched := [] }

/-- The comparison of runs by all that is not shown. -/
def stillLikeness (σ : Type) : Likeness (Session σ) (Session σ) where
  alike u v := u.still = v.still

theorem eq_of_still {β : Sort*} (h : u.still = v.still) (f : Session σ → β) (hf : ∀ s, f s.still = f s) :
    f u = f v := by
  rw [← hf u, h, hf v]

theorem still_eq_of_mute (h : u.mute = v.mute) : u.still = v.still := eq_of_mute h Session.still fun _ => rfl

variable {echo echo' : Echo}

/-- Outcomes that do not show as text are recorded alike. -/
theorem still_record (hecho : echo ≠ .literal) (hecho' : echo' ≠ .literal) (site : Site) (c : Client)
    (outcome : Outcome) : ActsAlike (stillLikeness σ) (record site echo c outcome) (record site echo' c outcome) := by
  intro u v hs
  cases outcome with
  | matched text groups =>
    cases echo <;> cases echo' <;> first | contradiction | exact .value groups hs
  | mismatch expected actual =>
    let failure : Failure :=
      ⟨site.file, site.place.line, site.place.column, c.name, c.lastCommand, expected, actual⟩
    have hfail := congrArg (fun s : Session σ => { s with failures := s.failures ++ [failure] }) hs
    cases echo <;> cases echo' <;> first | contradiction | exact .value [] hfail

/-- Checks that do not show as text do the same, whatever has been collected. -/
theorem still_check (hecho : echo ≠ .literal) (hecho' : echo' ≠ .literal) (site : Site) (e : Expectation) :
    ActsAlike (stillLikeness σ) (check site echo e) (check site echo' e) := by
  intro u v hs
  have henabled : u.expectEnabled = v.expectEnabled := eq_of_still hs Session.expectEnabled fun _ => rfl
  have hclient : u.activeClient? = v.activeClient? := eq_of_still hs Session.activeClient? fun _ => rfl
  have hfault : u.noClientFault = v.noClientFault := eq_of_still hs Session.noClientFault fun _ => rfl
  -- The echo is looked at in two places: where expectations are disabled, and where an outcome is recorded.
  unfold check
  rw [EStateM.run_bind, EStateM.run_get, EStateM.run_bind, EStateM.run_get]
  dsimp only
  rw [henabled]
  split
  · cases echo <;> cases echo' <;> first | contradiction | exact .value [] hs
  · split
    · exact .value [] hs
    · rw [EStateM.run_bind, EStateM.run_bind, run_activeClient_eq, run_activeClient_eq, hclient, hfault]
      cases v.activeClient? with
      | none => exact .fault _ hs
      | some c =>
        have hunread : ActsAlike (stillLikeness σ) (unread c) (unread c) := by
          intro u v hs
          rw [unread]
          cases c.output.residual? with
          | some residual => exact .value residual hs
          | none => exact .fault _ (congrArg Session.broken hs)
        refine ActsAlike.bind hunread (fun _ => ?_) u v hs
        intro u v hs
        have hread := congrArg (·.updateClient c.name fun d => { d with output := (c.output.check e).2 }) hs
        cases (c.output.check e).1 with
        | error p => exact .fault _ hread
        | ok outcome => exact still_record hecho hecho' site c outcome _ _ hread

/-- What is presented is all that was collected. -/
theorem run_present (text : String) (s : Session σ) :
    ∃ transcript, (present text).run s = .ok () { s with transcript, matched := [] } := by
  rw [present, EStateM.run_bind, run_write]
  dsimp only
  rw [EStateM.run_bind, EStateM.run_get]
  dsimp only
  cases (s.write text).showMatch with
  | false => exact ⟨_, rfl⟩
  | true => exact ⟨_, rfl⟩

/-- Whatever two sessions have collected, they do the same once it is presented. -/
theorem still_present (a b : String) :
    ActsAlike (stillLikeness σ) (do present a; flushResidual) (do present b; flushResidual) := by
  intro u v hs
  obtain ⟨shown, hu⟩ := run_present a u
  obtain ⟨shown', hv⟩ := run_present b v
  have hmute : ({ u with transcript := shown, matched := [] } : Session σ).mute =
      ({ v with transcript := shown', matched := [] } : Session σ).mute := hs
  rw [run_bind_ok hu, run_bind_ok hv]
  exact (doesSame_flushResidual _ _ hmute).mono (fun _ _ => still_eq_of_mute) (fun _ _ h => h) fun _ _ h => h

/-! ## One check for all three -/

/-- What each of the three scripts does: the text is checked, and then the token is presented. -/
def expecting (site : Site) (echo : Echo) (text shown : String) : Action σ Unit := do
  let _ ← check site echo (.literal text)
  present shown
  flushResidual

theorem still_expecting (hecho : echo ≠ .literal) (hecho' : echo' ≠ .literal) (site : Site) (text a b : String) :
    ActsAlike (stillLikeness σ) (expecting site echo text a) (expecting site echo' text b) :=
  (still_check hecho hecho' site _).bind fun _ => still_present a b

/-- What is wrong with the check of a text is nothing that an expression could be wrong with. -/
theorem check_literal_ne_expression {site : Site} {f : Fault} (h : (check site echo (.literal text)).run s = .error f u)
    (message : String) : f ≠ .expression message := by
  unfold check at h
  rw [EStateM.run_bind, EStateM.run_get] at h
  dsimp only at h
  split at h
  · cases echo <;> injection h
  · split at h
    · injection h
    · obtain h | ⟨c, v, -, h⟩ := run_bind_eq_error h
      · rw [run_activeClient_eq] at h
        cases hclient : s.activeClient? with
        | none =>
          rw [hclient] at h
          injection h with hf
          exact hf ▸ s.noClientFault_ne_expression message
        | some c =>
          rw [hclient] at h
          injection h
      · obtain h | ⟨_, w, -, h⟩ := run_bind_eq_error h
        · rw [unread] at h
          cases hresidual : c.output.residual? with
          | some residual =>
            rw [hresidual] at h
            injection h
          | none =>
            rw [hresidual] at h
            injection h with hf
            intro hexpression
            injection hf.trans hexpression
        · exact absurd h (neverFails_record site echo c _ _ f u)

/-- The name of a variable between two blanks is evaluated to the value of the variable. -/
theorem evaluate_name {name : String} (hname : IsName name.toList) (hkeyword : keyword? name = none) {value : Value}
    (hv : s.vars.get? name = some value) (site : Site) : (evaluate site (" " ++ name ++ " ")).run s = .ok value s := by
  have hsource : " " ++ name ++ " " = String.ofList ([' '] ++ name.toList ++ [' ']) := String.toList_inj.1 (by simp)
  rw [hsource, run_evaluate_name hv hname site (List.forall_mem_singleton.2 rfl) (List.forall_mem_singleton.2 rfl),
    hkeyword, Option.getD_none]

/-- The call of `expect_str` with the name of a variable checks the text of the variable. -/
theorem evaluate_callOf {name : String} (hname : IsName name.toList) (hkeyword : name ∉ keywords) {value : Value}
    (hv : s.vars.get? name = some value) (site : Site) :
    (evaluate site (callOf name)).run s =
      (do
        let _ ← check site .capture (.literal value.text)
        return Value.null : Action σ Value).run s := by
  have hvar : (evalTree (check site .capture) s.vars (.var name)).run s = .ok value s := by
    rw [evalTree, hv]
    rfl
  have hcall : (evalTree (check site .capture) s.vars (.call "expect_str" [.var name])).run s =
      (applyBuiltin (check site .capture) .expectStr "expect_str" [value]).run s := run_call_of_ok rfl hvar
  rw [applyBuiltin, EStateM.run_bind] at hcall
  have heval : (eval (check site .capture) (callOf name)).run (s.vars, s) =
      (evalBeside (check site .capture) (.call "expect_str" [.var name])).run (s.vars, s) := by
    rw [eval_of_ok _ (read_callOf hname hkeyword), runStatements]
    simp only [runStatements, bind_pure]
    rfl
  -- The check leaves the variables as they are, so it does not matter that they are put back behind it.
  have hvars : (endOf (check site .capture (.literal value.text)) s).vars = s.vars :=
    keepsVars_check (P := (· = s.vars)) site .capture _ s rfl
  have hrun : (evaluate site (callOf name)).run s = evaluate site (callOf name) s := rfl
  rw [EStateM.run_bind, hrun, evaluate]
  cases hcheck : (check site .capture (.literal value.text)).run s with
  | ok captures u =>
    rw [hcheck] at hcall
    rw [endOf_of_ok hcheck] at hvars
    have hblock : eval (check site .capture) (callOf name) (s.vars, s) = .ok .null (s.vars, u) :=
      heval.trans (run_evalBeside_of_ok hcall)
    rw [hblock, ← hvars]
    rfl
  | error f u =>
    rw [hcheck] at hcall
    rw [endOf_of_error hcheck] at hvars
    have hblock : eval (check site .capture) (callOf name) (s.vars, s) = .error f (s.vars, u) :=
      heval.trans (run_evalBeside_of_error hcall)
    rw [hblock, ← hvars]
    cases f with
    | expression message => exact absurd rfl (check_literal_ne_expression hcheck message)
    | _ => rfl

section Scripts

variable (link : Link σ) (file : String) {name text : String}

theorem runScript_of_token {src : String} {t : Token} (h : tokens src = [t]) :
    runScript link file src = step link file none t >>= conclude link file := by
  rw [runScript_eq, h, runTokens]
  simp only [runTokens, bind_pure]

/-- A script that is one reference checks the text of its variable, with this text collected before. -/
theorem run_reference (hname : isReferenceName name.toList = true) {value : Value}
    (hv : s.vars.get? name = some value) :
    (runScript link file ("$" ++ name)).run s =
      (expecting ⟨file, .start⟩ .silent value.text ("$" ++ name)).run
        { s with matched := s.matched ++ [value.text] } := by
  obtain ⟨htokens, hkind⟩ := tokens_dollar hname
  have hstep := (standsFor link file hv hkind (by rw [String.toList_append]; rfl)).expected
  rw [runScript_of_token link file htokens, EStateM.run_bind, hstep, ← EStateM.run_bind]
  simp only [collect, expectValue, Option.isNone_none, if_true, bind_assoc, pure_bind]
  rfl

/-- A script that is one block evaluates its program and expects the value. -/
theorem runScript_block {source : String} (hsource : Unclosed source) :
    runScript link file (blockOf source) = (do
      let value ← evaluate ⟨file, .start⟩ source
      expectResult ⟨file, .start⟩ value
      present (blockOf source)
      flushResidual) := by
  obtain ⟨htokens, hkind⟩ := tokens_blockOf hsource
  rw [runScript_of_token link file htokens, step_of_expression link file hkind,
    block_of_some (expressionParts?_blockOf hsource .start)]
  simp only [bind_assoc, pure_bind]
  rfl

/-- A block checks the text that its program comes to. -/
theorem run_block_of_value {source : String} (hsource : Unclosed source)
    (hvalue : (evaluate ⟨file, .start⟩ source).run s = .ok (.str text) u) :
    (runScript link file (blockOf source)).run s =
      (expecting ⟨file, .start⟩ .capture text (blockOf source)).run u := by
  rw [runScript_block link file hsource, run_bind_ok hvalue]
  simp only [expectResult, stringResult?, bind_assoc, pure_bind]
  rfl

/-- A block with a call of `expect_str` checks the text of the variable. The call itself has no text to be checked. -/
theorem run_block_of_call (hname : isReferenceName name.toList = true) (hkeyword : keyword? name = none) {value : Value}
    (hv : s.vars.get? name = some value) :
    (runScript link file (blockOf (callOf name))).run s =
      (expecting ⟨file, .start⟩ .capture value.text (blockOf (callOf name))).run s := by
  have hsource : Unclosed (callOf name) := unclosed_of_name hname (by decide +kernel) (by decide +kernel)
  rw [runScript_block link file hsource, EStateM.run_bind,
    evaluate_callOf (isName_of_isReferenceName hname) (not_mem_keywords hkeyword) hv, ← EStateM.run_bind]
  simp only [expectResult, stringResult?, bind_assoc, pure_bind]
  rfl

/-- The two scripts expect the same: they end with the same result, or the same fault, with the same outputs of all
clients and the same failures, and in all with the same session but for what is shown. -/
structure ExpectsSame (s : Session σ) (src src' : String) : Prop where
  result : resultOf (runScript link file src) s = resultOf (runScript link file src') s
  clients : (endOf (runScript link file src) s).clients = (endOf (runScript link file src') s).clients
  failures : (endOf (runScript link file src) s).failures = (endOf (runScript link file src') s).failures
  still : (endOf (runScript link file src) s).still = (endOf (runScript link file src') s).still

variable {link file} in
theorem expectsSame_of_expecting {src src' shown shown' : String} (hecho : echo ≠ .literal) (hecho' : echo' ≠ .literal)
    (h : (runScript link file src).run s = (expecting ⟨file, .start⟩ echo text shown).run u)
    (h' : (runScript link file src').run s = (expecting ⟨file, .start⟩ echo' text shown').run v)
    (halike : u.still = v.still) : ExpectsSame link file s src src' := by
  have hends := still_expecting hecho hecho' ⟨file, .start⟩ text shown shown' u v halike
  rw [← h, ← h'] at hends
  obtain ⟨hresult, hstill⟩ := ends_of_alike (fun _ _ h => h) (fun _ _ h => h) hends
  exact ⟨hresult, eq_of_still hstill Session.clients fun _ => rfl, eq_of_still hstill Session.failures fun _ => rfl,
    hstill⟩

/-- A reference to a variable that holds a string, a block with its name and a block that calls for it expect the same,
whatever the outputs of the clients are and whether there is an active one. -/
theorem string_expectations_agree (hname : isReferenceName name.toList = true) (hkeyword : keyword? name = none)
    (hv : s.vars.get? name = some (.str text)) :
    ExpectsSame link file s ("$" ++ name) (blockOf (" " ++ name ++ " ")) ∧
      ExpectsSame link file s ("$" ++ name) (blockOf (callOf name)) := by
  have hreference := run_reference link file hname hv
  have hcall := run_block_of_call link file hname hkeyword hv
  have hblock : (runScript link file (blockOf (" " ++ name ++ " "))).run s =
      (expecting ⟨file, .start⟩ .capture text (blockOf (" " ++ name ++ " "))).run s :=
    run_block_of_value link file (unclosed_of_name hname (by decide +kernel) (by decide +kernel))
      (evaluate_name (isName_of_isReferenceName hname) hkeyword hv _)
  have hcollected : ({ s with matched := s.matched ++ [text] } : Session σ).still = s.still := rfl
  exact ⟨expectsSame_of_expecting (by decide) (by decide) hreference hblock hcollected,
    expectsSame_of_expecting (by decide) (by decide) hreference hcall hcollected⟩

end Scripts

/-- The output lacks the end of the string: each of the three scripts has recorded this, at the same place. -/
theorem string_expectations_agree_mismatch :
    let link : Link Unit := ⟨fun _ _ state => (.ok "", state)⟩
    let s : Session Unit :=
      { vars := Env.empty.set "x" (.str "a b"), active := some "alice", link := (),
        clients := [{ name := "alice", output := { buffer := " a c" }, lastCommand := some "say" }] }
    isReferenceName "x".toList = true ∧ keyword? "x" = none ∧ s.vars.get? "x" = some (.str "a b") ∧
      (endOf (runScript link "a.btstest" "$x") s).failures = [⟨"a.btstest", 1, 1, "alice", some "say", "a b", "a"⟩] ∧
      ExpectsSame link "a.btstest" s "$x" "$\x7b x \x7d$" ∧
      ExpectsSame link "a.btstest" s "$x" "$\x7b expect_str(x) \x7d$" := by
  intro link s
  have hname : isReferenceName "x".toList = true := by decide +kernel
  have hkeyword : keyword? "x" = none := by decide +kernel
  have hv : s.vars.get? "x" = some (.str "a b") := by decide +kernel
  obtain ⟨hvalue, hcall⟩ := string_expectations_agree link "a.btstest" hname hkeyword hv
  exact ⟨hname, hkeyword, hv, by decide +kernel, hvalue, hcall⟩

end Conformance.Script
