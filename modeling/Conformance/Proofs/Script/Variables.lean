import Conformance.Cases.Environment
import Conformance.Proofs.Expr.Names
import Conformance.Proofs.Script.Grammar
import Conformance.Proofs.Script.Steps

/-!
# Reading variables back

A variable is read by its name, with a `$` reference in a script or as an expression in a block. References know names
of ASCII letters, digits and underscores only, and expressions take three names for keywords, while the variables
themselves have any names: `variable_read_back` says which variables can be read in which way.

* `lexemes_at_dollar` finds the reference at a `$` of a script, whatever stands before it;
* `isReferenceName_of_mem` says that there are no references to other names.
-/
namespace Conformance.Script

open Text Expr

variable {σ : Type} {cs before behind name : List Char}

/-- Whether the characters are a name that a `$` reference can have. -/
def isReferenceName : List Char → Bool
  | [] => false
  | c :: r => isNameStart c && r.all isNameRest

/-- The place behind `before` lies in an expression block or in a comment of the script. -/
def Covered (src : String) (before : List Char) : Prop :=
  ∃ front t back inside rest, tokens src = front ++ t :: back ∧ (t.kind = .expression ∨ t.kind = .comment) ∧
    before = (textOf front).toList ++ inside ∧ t.text.toList = inside ++ rest ∧ inside ≠ [] ∧ rest ≠ []

/-! ## References -/

theorem form_of_isReferenceName (hname : isReferenceName name = true) (hbehind : ∀ c ∈ behind.head?, isNameRest c = false) :
    Form .reference ('$' :: name) behind := by
  cases name with
  | nil => contradiction
  | cons c r =>
    obtain ⟨hc, hr⟩ := Bool.and_eq_true_iff.1 hname
    exact .reference hc (List.all_eq_true.1 hr) hbehind

/-- A reference stands at a `$` with its name behind it, if the lexer comes to this place. -/
theorem lexeme?_dollar (hname : isReferenceName name = true) (hbehind : ∀ c ∈ behind.head?, isNameRest c = false) :
    lexeme? ('$' :: (name ++ behind)) = some ⟨.reference, '$' :: name, behind⟩ := by
  have href : reference? ('$' :: (name ++ behind)) = some ('$' :: name, behind) :=
    reference?_eq_some_iff.2 ⟨rfl, form_of_isReferenceName hname hbehind⟩
  have hblock : block? ('$' :: (name ++ behind)) = none := by
    cases name with
    | nil => contradiction
    | cons c r =>
      have hc : '\x7b' ≠ c := by
        rintro rfl
        contradiction
      simp [block?, bracketed?, dropPrefix?, hc]
  have hnewline : newline? ('$' :: (name ++ behind)) = none := rfl
  have hblank : blankRun? ('$' :: (name ++ behind)) = none := rfl
  rw [lexeme?, hnewline, hblank, hblock, href]
  rfl

/-- Only blocks and comments have a `$` behind their first character. -/
theorem Form.dollar_inside {k : Kind} {text inside rest : List Char} (h : Form k text behind)
    (htext : text = inside ++ '$' :: rest) (hne : inside ≠ []) : k = .expression ∨ k = .comment := by
  have hmem : '$' ∈ text := htext ▸ List.mem_append_right _ List.mem_cons_self
  have hnewline : ∀ {newline behind}, Form .newline newline behind → '$' ∉ newline := by
    intro newline behind hnewline
    cases hnewline <;> decide
  have hblanks : ∀ {blanks : List Char}, (∀ c ∈ blanks, isInlineBlank c = true) → '$' ∉ blanks := by
    intro blanks hblanks hmem
    exact absurd (hblanks '$' hmem) (by decide)
  cases h with
  | crlf => exact absurd hmem (by decide)
  | cr => exact absurd hmem (by decide)
  | lf => exact absurd hmem (by decide)
  | blankRun _ hchars => exact absurd hmem (hblanks hchars)
  | blankLine _ hchars hform =>
    exact absurd (List.mem_append.1 hmem) (not_or.2 ⟨hblanks hchars, hnewline hform⟩)
  | block => exact .inl rfl
  | recordedBlock => exact .inl rfl
  | @reference c name _ hc hname =>
    obtain ⟨d, inside, rfl⟩ := List.exists_cons_of_ne_nil hne
    have hmem : '$' ∈ c :: name := by
      rw [(List.cons.inj htext).2]
      exact List.mem_append_right _ List.mem_cons_self
    rcases List.mem_cons.1 hmem with rfl | hmem
    · contradiction
    · exact absurd (hname '$' hmem) (by decide)
  | commandMarker => exact absurd hmem (by decide)
  | comment => exact .inr rfl

theorem nextLexeme_dollar_inside {c : Char} {r inside rest : List Char} (htext : (nextLexeme c r).text = inside ++ '$' :: rest)
    (hne : inside ≠ []) (hsome : lexeme? ('$' :: (rest ++ (nextLexeme c r).rest)) ≠ none) :
    (nextLexeme c r).kind = .expression ∨ (nextLexeme c r).kind = .comment := by
  rcases nextLexeme_form c r with hform | ⟨-, hplain⟩
  · exact hform.dollar_inside htext hne
  · exact absurd (hplain inside '$' rest htext) hsome

/-- The lexemes of a text at a `$` with a name behind it: there is a reference, unless the `$` lies in an expression
block or in a comment. -/
theorem lexemes_at_dollar (hname : isReferenceName name = true) (hbehind : ∀ c ∈ behind.head?, isNameRest c = false)
    (hcs : cs = before ++ '$' :: (name ++ behind)) :
    (∃ front back, lexemes cs = front ++ ⟨.reference, '$' :: name, behind⟩ :: back ∧
      (front.map (·.text)).flatten = before) ∨
    ∃ front l back inside rest, lexemes cs = front ++ l :: back ∧ (l.kind = .expression ∨ l.kind = .comment) ∧
      before = (front.map (·.text)).flatten ++ inside ∧ l.text = inside ++ rest ∧ inside ≠ [] ∧ rest ≠ [] := by
  have hdollar := lexeme?_dollar hname hbehind
  induction cs using lexemes.induct generalizing before with
  | case1 =>
    exact absurd hcs.symm (List.append_ne_nil_of_right_ne_nil _ (List.cons_ne_nil _ _))
  | case2 c r ih =>
    have hsplit := (nextLexeme_append c r).trans hcs
    by_cases hnil : before = []
    · rw [hnil, List.nil_append] at hcs
      rw [hcs, lexemes_of_lexeme? hdollar]
      exact .inl ⟨[], _, rfl, hnil.symm⟩
    rw [lexemes_cons]
    -- The `$` lies in the first lexeme, or behind it.
    rcases List.append_eq_append_iff.1 hsplit with ⟨before', hbefore, hrest⟩ | ⟨text, htext, hrest⟩
    · rcases ih hrest with ⟨front, back, hlexemes, hfront⟩ | ⟨front, l, back, inside, rest, hlexemes, hkind, hinside, hl⟩
      · refine .inl ⟨nextLexeme c r :: front, back, congrArg _ hlexemes, ?_⟩
        rw [List.map_cons, List.flatten_cons, hfront, hbefore]
      · refine .inr ⟨nextLexeme c r :: front, l, back, inside, rest, congrArg _ hlexemes, hkind, ?_, hl⟩
        rw [List.map_cons, List.flatten_cons, List.append_assoc, ← hinside, hbefore]
    · cases text with
      | nil =>
        -- The reference is the lexeme behind the first one.
        rw [List.nil_append] at hrest
        rw [List.append_nil] at htext
        refine .inl ⟨[nextLexeme c r], lexemes behind, ?_, ?_⟩
        · rw [← hrest, lexemes_of_lexeme? hdollar]
          rfl
        · rw [List.map_singleton, List.flatten_singleton, htext]
      | cons d text =>
        rw [List.cons_append] at hrest
        obtain ⟨rfl, htail⟩ := List.cons.inj hrest
        refine .inr ⟨[], nextLexeme c r, _, before, '$' :: text, rfl, ?_, rfl, htext, hnil, List.cons_ne_nil _ _⟩
        refine nextLexeme_dollar_inside htext hnil ?_
        rw [← htail, hdollar]
        exact Option.some_ne_none _

/-- The tokens around the token of a lexeme. -/
theorem tokens_of_lexemes {src : String} {front back : List Lexeme} {l : Lexeme}
    (h : lexemes src.toList = front ++ l :: back) :
    ∃ front' t back', tokens src = front' ++ t :: back' ∧ (textOf front').toList = (front.map (·.text)).flatten ∧
      t.text.toList = l.text ∧ t.kind = l.kind := by
  have htexts := tokens_texts src
  rw [h, List.map_append, List.map_cons] at htexts
  obtain ⟨front', behind, htokens, hfront, hbehind⟩ := List.map_eq_append_iff.1 htexts
  obtain ⟨t, back', rfl, ht, -⟩ := List.map_eq_cons_iff.1 hbehind
  refine ⟨front', t, back', htokens, ?_, ht, ?_⟩
  · rw [toList_textOf, hfront]
  · have hl : l ∈ lexemes src.toList := h ▸ List.mem_append_right _ List.mem_cons_self
    obtain ⟨c, r, rfl⟩ := exists_nextLexeme hl
    rw [Token.kind, ht, (nextLexeme_classified c r).kindOf]

/-- A script has a reference wherever a `$` and a name stand in it outside expression blocks and comments. -/
theorem tokens_at_dollar {src : String} (hname : isReferenceName name = true)
    (hbehind : ∀ c ∈ behind.head?, isNameRest c = false) (hsrc : src.toList = before ++ '$' :: (name ++ behind))
    (hcovered : ¬Covered src before) :
    ∃ front t back, tokens src = front ++ t :: back ∧ (textOf front).toList = before ∧ t.kind = .reference ∧
      t.text.toList = '$' :: name := by
  rcases lexemes_at_dollar hname hbehind hsrc with ⟨front, back, h, hfront⟩ |
    ⟨front, l, back, inside, rest, h, hkind, hbefore, hl, hinside⟩
  · obtain ⟨front', t, back', htokens, htext, ht, hkind⟩ := tokens_of_lexemes h
    exact ⟨front', t, back', htokens, htext.trans hfront, hkind, ht⟩
  · obtain ⟨front', t, back', htokens, htext, ht, hkind'⟩ := tokens_of_lexemes h
    refine absurd ⟨front', t, back', inside, rest, htokens, hkind' ▸ hkind, ?_, ht.trans hl, hinside⟩ hcovered
    rw [htext, hbefore]

/-- There are references to no other names. -/
theorem isReferenceName_of_mem {src : String} {t : Token} (ht : t ∈ tokens src) (hk : t.kind = .reference)
    (htext : t.text.toList = '$' :: name) : isReferenceName name = true := by
  obtain ⟨behind, hform⟩ := form_of_mem_tokens ht (by simp [hk])
  rw [hk, htext] at hform
  cases hform with
  | reference hc hr => exact Bool.and_eq_true_iff.2 ⟨hc, List.all_eq_true.2 hr⟩

/-! ## What references and names in blocks stand for -/

/-- The reference `t` stands for `value` in the session `s`: it resolves to it, adds it to a command line that is open,
and expects it outside of command lines. -/
structure StandsFor (link : Link σ) (file : String) (s : Session σ) (t : Token) (value : String) : Prop where
  resolves : (resolve ⟨file, t.place⟩ (String.ofList (t.text.toList.drop 1))).run s = .ok value s
  inCommand : ∀ line, ∃ s', (step link file (some line) t).run s = .ok (some (line.add value)) s' ∧ s.Shows s'
  expected : (step link file none t).run s =
    (do
      collect value
      expectValue ⟨file, t.place⟩ none value
      present t.text
      return none : Action σ (Option CommandLine)).run s

theorem standsFor (link : Link σ) (file : String) {s : Session σ} {name : String} {v : Value}
    (h : s.vars.get? name = some v) {t : Token} (hk : t.kind = .reference) (htext : t.text.toList = '$' :: name.toList) :
    StandsFor link file s t v.text := by
  have hname : String.ofList (t.text.toList.drop 1) = name := by
    rw [htext, List.drop_one, List.tail_cons, String.ofList_toList]
  have hresolves : (resolve ⟨file, t.place⟩ (String.ofList (t.text.toList.drop 1))).run s = .ok v.text s := by
    rw [hname]
    exact run_resolve_of_some _ h
  have hpart : commandPart? s.vars t = some v.text := by
    simp only [commandPart?, hk, hname, h, Option.map_some]
  refine ⟨hresolves, step_commandPart link file hpart, ?_⟩
  rw [step_of_reference link file hk, run_bind_ok hresolves]
  rfl

/-- A block that holds nothing but the name of a variable has its value, or that of the keyword that the name is. -/
theorem run_evaluate_name {s : Session σ} {name : String} {v : Value} (h : s.vars.get? name = some v)
    (hname : IsName name.toList) (site : Site) (hbefore : ∀ c ∈ before, isOutputBlank c = true)
    (hbehind : ∀ c ∈ behind, isOutputBlank c = true) :
    (evaluate site (String.ofList (before ++ name.toList ++ behind))).run s = .ok ((keyword? name).getD v) s := by
  have heval := eval_name (check site .capture) h hname hbefore hbehind s
  rw [EStateM.run] at heval
  rw [EStateM.run, evaluate, heval]

/-- Which variables can be read back, for every name under which a value has come into the variables. A script reads a
variable wherever `$` and its name stand outside expression blocks and comments, if the name consists of ASCII letters,
digits and underscores and does not begin with a digit; to all other names it has no references. A block reads a
variable that a block can have set by its name, unless the name is a keyword. -/
theorem variable_read_back (link : Link σ) (file : String) {s : Session σ} {name : String} {v : Value}
    (hv : s.vars.get? name = some v) :
    (isReferenceName name.toList = true → ∀ src before behind, src.toList = before ++ '$' :: (name.toList ++ behind) →
      (∀ c ∈ behind.head?, isNameRest c = false) → ¬Covered src before →
      ∃ front t back, tokens src = front ++ t :: back ∧ (textOf front).toList = before ∧ t.kind = .reference ∧
        t.text.toList = '$' :: name.toList ∧ StandsFor link file s t v.text) ∧
    (isReferenceName name.toList = false → ∀ src, ∀ t ∈ tokens src, t.kind = .reference →
      t.text.toList ≠ '$' :: name.toList) ∧
    ∀ source program e, Expr.read source = .ok program → .assign name e ∈ program → ∀ (site : Site) before behind,
      (∀ c ∈ before, isOutputBlank c = true) → (∀ c ∈ behind, isOutputBlank c = true) →
      (evaluate site (String.ofList (before ++ name.toList ++ behind))).run s = .ok ((keyword? name).getD v) s := by
  refine ⟨fun hname src before behind hsrc hbehind hcovered => ?_, fun hname src t ht hk htext => ?_, ?_⟩
  · obtain ⟨front, t, back, htokens, hfront, hk, htext⟩ := tokens_at_dollar hname hbehind hsrc hcovered
    exact ⟨front, t, back, htokens, hfront, hk, htext, standsFor link file hv hk htext⟩
  · rw [isReferenceName_of_mem ht hk htext] at hname
    contradiction
  · intro source program e hread hmem site before behind hbefore hbehind
    exact run_evaluate_name hv (isName_of_assigned hread hmem) site hbefore hbehind

/-- A variable that a block has set is read by a reference in a command, with more text behind it, and by a later
block. -/
theorem variable_read_back_answer :
    let link : Link Unit := ⟨fun _ _ state => (.ok "", state)⟩
    let s : Session Unit := { vars := Env.empty.set "answer_1" (.int 42), link := () }
    Expr.read "answer_1 = base" = .ok [.assign "answer_1" (.var "base")] ∧
      (∃ front t back, tokens ">>> say $answer_1-$answer_12\n" = front ++ t :: back ∧ textOf front = ">>> say " ∧
        StandsFor link "a.btstest" s t "42") ∧
      (evaluate ⟨"a.btstest", .start⟩ " answer_1\n").run s = .ok (.int 42) s := by
  intro link s
  have hread : Expr.read "answer_1 = base" = .ok [.assign "answer_1" (.var "base")] := by
    have hlex : lex "answer_1 = base".toList = .ok [.ident "answer_1", .op .assign, .ident "base"] := by
      decide +kernel
    rw [Expr.read, hlex]
    rfl
  have hvalue : s.vars.get? "answer_1" = some (.int 42) := by decide +kernel
  have hcovered : ¬Covered ">>> say $answer_1-$answer_12\n" ">>> say ".toList := by
    rintro ⟨front, t, back, inside, rest, htokens, hkind, -⟩
    have ht : t ∈ tokens ">>> say $answer_1-$answer_12\n" := htokens ▸ List.mem_append_right _ List.mem_cons_self
    have hkinds : ∀ t ∈ tokens ">>> say $answer_1-$answer_12\n", ¬(t.kind = .expression ∨ t.kind = .comment) := by
      decide +kernel
    exact hkinds t ht hkind
  have hstop : ∀ c ∈ ('-' :: "$answer_12\n".toList).head?, isNameRest c = false := by
    intro c hc
    obtain rfl := Option.mem_some.1 hc
    decide
  obtain ⟨hreference, -, hblock⟩ := variable_read_back link "a.btstest" hvalue
  refine ⟨hread, ?_, ?_⟩
  · obtain ⟨front, t, back, htokens, hfront, -, -, hstands⟩ := hreference (by decide +kernel) _ ">>> say ".toList
      ('-' :: "$answer_12\n".toList) (by decide +kernel) hstop hcovered
    exact ⟨front, t, back, htokens, String.toList_inj.1 hfront, hstands⟩
  · exact hblock _ _ _ hread List.mem_cons_self ⟨"a.btstest", .start⟩ [' '] ['\n']
      (List.forall_mem_singleton.2 (by decide)) (List.forall_mem_singleton.2 (by decide))

/-- An environment with a variable that no reference can name, and a block that sets a variable of the name of a
keyword. Both have their values, but the command is not sent and the later block has another value. -/
theorem names_not_read_back :
    let link : Link Unit := ⟨fun _ _ state => (.ok "", state)⟩
    let environment : Cases.Environment := { vars := [("min-fee", .int 1)] }
    let s : Session Unit :=
      { vars := Env.empty.set "min-fee" (.int 1), active := some "alice", clients := [{ name := "alice" }], link := () }
    environment.validate.isOk = true ∧ environment.seedVars = .ok s.vars ∧
      resultOf (runScript link "a.btstest" ">>> pay $min-fee\n") s =
        .error (.unknownVariable "a.btstest" "min" 1 9) ∧
      (let u := endOf (runScript link "a.btstest" "$\x7b true = 5 \x7d$\n") s
      u.vars.get? "true" = some (.int 5) ∧
        resultOf (evaluate ⟨"a.btstest", .start⟩ "true") u = .ok (.bool true)) := by
  decide +kernel

end Conformance.Script
