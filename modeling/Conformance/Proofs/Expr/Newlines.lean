import Conformance.Expr.Parser
import Conformance.Proofs.Expr.Openings
import Conformance.Proofs.Text.Newlines

/-!
# Newlines in expressions

A line feed separates statements. With CR LF in its place, the CR is a blank in front of it and the tokens stay as they
are (`lex_restyle_crlf`). With a CR alone nothing separates the statements: it is a blank like any other
(`lex_restyle_cr`).

This holds for texts whose string literals have no newline in them, since a literal keeps all its characters.
-/
namespace Conformance.Expr

open Text

/-! ## String literals -/

/-- The characters of a string literal whose opening `quote` has been passed, up to the closing one. -/
def rawString (quote : Char) : List Char → List Char
  | [] => []
  | [c] => [c]
  | c :: d :: r =>
    if c = '\\' then c :: d :: rawString quote r
    else if c = quote then [c]
    else c :: rawString quote (d :: r)

/-- The string literals of a text, as they are written, up to the first thing that is wrong with the text. -/
def stringLiterals (cs : List Char) : List (List Char) :=
  match cs with
  | [] => []
  | c :: r =>
    match _h : step c r with
    | .error _ => []
    | .ok (_, rest) => (if isQuote c then [c :: rawString c r] else []) ++ stringLiterals rest
termination_by cs.length
decreasing_by exact length_step_lt _h

variable {newline cs r rest : List Char} {c d quote : Char} {t : Option Token}

theorem stringLiterals_cons (h : step c r = .ok (t, rest)) :
    stringLiterals (c :: r) = (if isQuote c then [c :: rawString c r] else []) ++ stringLiterals rest := by
  rw [stringLiterals]
  split
  next heq =>
    rw [h] at heq
    injection heq
  next heq =>
    rw [h] at heq
    cases heq
    rfl

theorem lex_of_ok (h : step c r = .ok (t, rest)) : lex (c :: r) = (lex rest).map (t.toList ++ ·) := by
  rw [lex]
  split
  next heq =>
    rw [h] at heq
    injection heq
  next heq =>
    rw [h] at heq
    cases heq
    cases lex rest <;> rfl

theorem lex_of_error {p : Problem} (h : step c r = .error p) : lex (c :: r) = .error p := by
  rw [lex]
  split
  next heq =>
    rw [h] at heq
    cases heq
    rfl
  next heq =>
    rw [h] at heq
    injection heq

/-! ## What newlines are written with -/

/-- The character can stand for a newline, or for a blank. -/
def IsBreak (d : Char) : Prop := d = '\r' ∨ d = '\n' ∨ d = ' '

/-- Breaks are no part of any token but of string literals. -/
structure Parting (d : Char) : Prop where
  backslash : d ≠ '\\'
  quote : isQuote d = false
  digit : d.isDigit = false
  name : continuesName d = false
  operator : ∀ o : Op, d ∉ o.text.toList

theorem IsBreak.parting (hd : IsBreak d) : Parting d := by
  rcases hd with rfl | rfl | rfl
  · exact ⟨by decide, by decide, by decide, by decide +kernel, fun o => by cases o <;> decide +kernel⟩
  · exact ⟨by decide, by decide, by decide, by decide +kernel, fun o => by cases o <;> decide +kernel⟩
  · exact ⟨by decide, by decide, by decide, by decide +kernel, fun o => by cases o <;> decide +kernel⟩

theorem parting_lf : Parting '\n' := IsBreak.parting (.inr (.inl rfl))

theorem Parting.ne_quote (hd : Parting d) (hquote : isQuote quote = true) : d ≠ quote := by
  rintro rfl
  rw [hd.quote] at hquote
  contradiction

/-! ## Contents of string literals -/

theorem stringBody?_cons (hb : c ≠ '\\') (hq : c ≠ quote) (r : List Char) :
    stringBody? quote (c :: r) = (stringBody? quote r).map fun p => (c :: p.1, p.2) := by
  cases r with
  | nil => simp [stringBody?, hq]
  | cons d r => rw [stringBody?, if_neg hb, if_neg hq]

theorem stringBody?_quote (hb : quote ≠ '\\') (r : List Char) : stringBody? quote (quote :: r) = some ([], r) := by
  cases r with
  | nil => simp [stringBody?, hb]
  | cons d r => rw [stringBody?, if_neg hb, if_pos rfl]

theorem stringBody?_escape (d : Char) (r : List Char) :
    stringBody? quote ('\\' :: d :: r) = (stringBody? quote r).map fun p => (unescape d :: p.1, p.2) := by
  rw [stringBody?, if_pos rfl]

section Breaks

variable (hbreaks : ∀ d ∈ newline, IsBreak d) (hquote : isQuote quote = true)
include hbreaks hquote

/-- No literal is closed by breaks. -/
theorem stringBody?_breaks (h : stringBody? quote r = none) : stringBody? quote (newline ++ r) = none := by
  induction newline with
  | nil => exact h
  | cons d newline ih =>
    obtain ⟨hd, hbreaks⟩ := List.forall_mem_cons.1 hbreaks
    rw [List.cons_append, stringBody?_cons hd.parting.backslash (hd.parting.ne_quote hquote), ih hbreaks]
    rfl

/-- A literal that is not closed is not closed with other newlines either. -/
theorem stringBody?_restyle_none (hne : newline ≠ []) (h : stringBody? quote cs = none) :
    stringBody? quote (restyle newline cs) = none := by
  have hlf : ∀ r, stringBody? quote ('\n' :: r) = (stringBody? quote r).map fun p => ('\n' :: p.1, p.2) :=
    stringBody?_cons parting_lf.backslash (parting_lf.ne_quote hquote)
  fun_induction stringBody? quote cs with
  | case1 => rfl
  | case2 c hc => contradiction
  | case3 c hc =>
    by_cases hn : c = '\n'
    · rw [hn, restyle_lf]
      exact stringBody?_breaks hbreaks hquote rfl
    · rw [restyle_cons hn]
      simp only [restyle, List.flatMap_nil, stringBody?, if_neg hc]
  | case4 d r ih =>
    have hr := ih (Option.map_eq_none_iff.1 h)
    rw [restyle_cons (by decide)]
    by_cases hd : d = '\n'
    · -- The escape takes the first character of the newline.
      obtain ⟨b, newline, rfl⟩ := List.exists_cons_of_ne_nil hne
      have hrest := stringBody?_breaks (fun d hd => hbreaks d (List.mem_cons_of_mem _ hd)) hquote hr
      rw [hd, restyle_lf, List.cons_append, stringBody?_escape, hrest]
      rfl
    · rw [restyle_cons hd, stringBody?_escape, hr]
      rfl
  | case5 d r hb => contradiction
  | case6 c d r hb hq ih =>
    have hr := ih (Option.map_eq_none_iff.1 h)
    by_cases hc : c = '\n'
    · rw [hc, restyle_lf]
      exact stringBody?_breaks hbreaks hquote hr
    · rw [restyle_cons hc, stringBody?_cons hb hq, hr]
      rfl

end Breaks

/-- A literal without newlines in it stays as it is. -/
theorem stringBody?_restyle_some {s : List Char} (h : stringBody? quote cs = some (s, rest))
    (hraw : '\n' ∉ rawString quote cs) (newline : List Char) :
    stringBody? quote (restyle newline cs) = some (s, restyle newline rest) := by
  -- neither the quote nor what is escaped is a newline, since both belong to the literal
  fun_induction stringBody? quote cs generalizing s rest with
  | case1 => contradiction
  | case2 c hc =>
    obtain ⟨rfl, rfl⟩ : [] = s ∧ [] = rest := by simpa using h
    have hc' : c ≠ '\n' := fun heq => hraw (heq ▸ List.mem_singleton_self _)
    rw [restyle_cons hc']
    simp only [restyle, List.flatMap_nil, stringBody?, if_pos hc]
  | case3 c hc => contradiction
  | case4 d r ih =>
    obtain ⟨⟨s', rest'⟩, h', he⟩ := Option.map_eq_some_iff.1 h
    obtain ⟨rfl, rfl⟩ := Prod.mk.inj he
    rw [rawString, if_pos rfl] at hraw
    obtain ⟨-, hraw⟩ := List.ne_and_not_mem_of_not_mem_cons hraw
    obtain ⟨hd, hraw⟩ := List.ne_and_not_mem_of_not_mem_cons hraw
    rw [restyle_cons (by decide), restyle_cons hd.symm, stringBody?_escape, ih h' hraw]
    rfl
  | case5 d r hb =>
    obtain ⟨rfl, rfl⟩ : [] = s ∧ d :: r = rest := by simpa using h
    rw [rawString, if_neg hb, if_pos rfl] at hraw
    have hc : quote ≠ '\n' := fun heq => hraw (heq ▸ List.mem_singleton_self _)
    rw [restyle_cons hc, stringBody?_quote hb]
  | case6 c d r hb hq ih =>
    obtain ⟨⟨s', rest'⟩, h', he⟩ := Option.map_eq_some_iff.1 h
    obtain ⟨rfl, rfl⟩ := Prod.mk.inj he
    rw [rawString, if_neg hb, if_neg hq] at hraw
    obtain ⟨hc, hraw⟩ := List.ne_and_not_mem_of_not_mem_cons hraw
    rw [restyle_cons hc.symm, stringBody?_cons hb hq, ih h' hraw]
    rfl

/-! ## Tokens -/

section Tokens

variable (hne : newline ≠ []) (hbreaks : ∀ d ∈ newline, IsBreak d)
include hne hbreaks

theorem operator?_restyle (cs : List Char) :
    operator? (restyle newline cs) = (operator? cs).map (Prod.map id (restyle newline)) := by
  have hdrop : ∀ o : Op, dropPrefix? o.text.toList (restyle newline cs) =
      (dropPrefix? o.text.toList cs).map (restyle newline) := fun o =>
    dropPrefix?_restyle hne (fun q hq => ⟨fun h => parting_lf.operator o (h ▸ hq),
      fun h => (hbreaks q h).parting.operator o hq⟩) cs
  rw [operator?, operator?, List.map_findSome?]
  refine congrArg (List.findSome? · operators) (funext fun o => ?_)
  rw [hdrop o, Function.comp_apply, Option.map_map, Option.map_map]
  rfl

/-- A token that is no separator is the same with other newlines behind it. -/
theorem step_restyle (hc : c ≠ '\n') (hraw : ∀ t rest, step c r = .ok (t, rest) → isQuote c = true → '\n' ∉ rawString c r) :
    step c (restyle newline r) = (step c r).map (Prod.map id (restyle newline)) := by
  have hdigits := takeWhile_restyle hne parting_lf.digit (fun d hd => (hbreaks d hd).parting.digit) r
  have hdigits' := dropWhile_restyle hne parting_lf.digit (fun d hd => (hbreaks d hd).parting.digit) r
  have hname := takeWhile_restyle hne parting_lf.name (fun d hd => (hbreaks d hd).parting.name) r
  have hname' := dropWhile_restyle hne parting_lf.name (fun d hd => (hbreaks d hd).parting.name) r
  rw [step_eq c r] at hraw
  rw [step_eq, step_eq c r]
  cases hopening : opening c with
  | newline => exact absurd (eq_newline_of_opening hopening) hc
  | blank | semicolon => rfl
  | integer =>
    dsimp only
    rw [hdigits, hdigits']
    cases (nat? (c :: r.takeWhile Char.isDigit)).filter (· < Nat.pow 2 63) <;> rfl
  | name =>
    dsimp only
    rw [hname, hname']
    rfl
  | string =>
    have hquote := isQuote_of_opening hopening
    cases hbody : stringBody? c r with
    | none =>
      dsimp only
      rw [stringBody?_restyle_none hbreaks hquote hne hbody]
      rfl
    | some body =>
      obtain ⟨s, rest⟩ := body
      rw [hopening, hbody] at hraw
      dsimp only
      rw [stringBody?_restyle_some hbody (hraw _ _ rfl hquote)]
      rfl
  | operator =>
    have hoperator := operator?_restyle hne hbreaks (c :: r)
    rw [restyle_cons hc] at hoperator
    dsimp only
    rw [hoperator]
    cases operator? (c :: r) <;> rfl

end Tokens

theorem step_blank (hc : c ≠ '\n') (hwhite : isWhite c = true) (r : List Char) : step c r = .ok (none, r) := by
  rw [step_eq, opening_of_isWhite hc hwhite]

theorem lex_lf (r : List Char) : lex ('\n' :: r) = (lex r).map (Token.sep :: ·) :=
  lex_of_ok (rfl : step '\n' r = .ok (some .sep, r))

/-- Blanks in front of a token are passed over. -/
theorem lex_blank (hc : c ≠ '\n') (hwhite : isWhite c = true) (r : List Char) : lex (c :: r) = lex r := by
  rw [lex_of_ok (step_blank hc hwhite r)]
  cases lex r <;> rfl

theorem lex_restyle_of_error {p : Problem} (hne : newline ≠ []) (hbreaks : ∀ d ∈ newline, IsBreak d) (hc : c ≠ '\n')
    (h : step c r = .error p) : lex (restyle newline (c :: r)) = .error p := by
  have hstep : step c (restyle newline r) = .error p := by
    rw [step_restyle hne hbreaks hc fun t rest hok => ?_, h]
    · rfl
    · rw [h] at hok
      injection hok
  rw [restyle_cons hc, lex_of_error hstep]

theorem lex_restyle_of_ok (hne : newline ≠ []) (hbreaks : ∀ d ∈ newline, IsBreak d) (hc : c ≠ '\n')
    (h : step c r = .ok (t, rest)) (hliterals : ∀ literal ∈ stringLiterals (c :: r), '\n' ∉ literal) :
    lex (restyle newline (c :: r)) = (lex (restyle newline rest)).map (t.toList ++ ·) := by
  rw [stringLiterals_cons h] at hliterals
  have hstep : step c (restyle newline r) = .ok (t, restyle newline rest) := by
    rw [step_restyle hne hbreaks hc fun _ _ _ hquote hlf => ?_, h]
    · rfl
    · rw [if_pos hquote] at hliterals
      exact hliterals (c :: rawString c r) (List.mem_append_left _ (List.mem_singleton_self _)) (List.mem_cons_of_mem _ hlf)
  rw [restyle_cons hc, lex_of_ok hstep]

/-- Newlines are alike in what they do to the tokens if they do alike in front of all texts. -/
theorem lex_restyle_eq {newline' : List Char} (hne : newline ≠ []) (hne' : newline' ≠ [])
    (hbreaks : ∀ d ∈ newline, IsBreak d) (hbreaks' : ∀ d ∈ newline', IsBreak d)
    (f : Except Problem (List Token) → Except Problem (List Token)) (hf : ∀ r, lex (newline ++ r) = f (lex r))
    (hf' : ∀ r, lex (newline' ++ r) = f (lex r)) (h : ∀ literal ∈ stringLiterals cs, '\n' ∉ literal) :
    lex (restyle newline cs) = lex (restyle newline' cs) := by
  induction cs using stringLiterals.induct with
  | case1 => rfl
  | case2 c r p hstep =>
    have hc : c ≠ '\n' := by
      rintro rfl
      injection hstep
    rw [lex_restyle_of_error hne hbreaks hc hstep, lex_restyle_of_error hne' hbreaks' hc hstep]
  | case3 c r t rest hstep ih =>
    have hrest : ∀ literal ∈ stringLiterals rest, '\n' ∉ literal := fun literal hliteral =>
      h literal (by rw [stringLiterals_cons hstep]; exact List.mem_append_right _ hliteral)
    by_cases hc : c = '\n'
    · subst hc
      cases hstep
      rw [restyle_lf, restyle_lf, hf, hf', ih hrest]
    · rw [lex_restyle_of_ok hne hbreaks hc hstep h, lex_restyle_of_ok hne' hbreaks' hc hstep h, ih hrest]

/-- With CR LF for its newlines, a text has the same tokens. -/
theorem lex_restyle_crlf (h : ∀ literal ∈ stringLiterals cs, '\n' ∉ literal) : lex (restyle crlf cs) = lex cs := by
  have hcrlf : ∀ r, lex (crlf ++ r) = (lex r).map (Token.sep :: ·) := fun r =>
    (lex_blank (by decide) (by decide) _).trans (lex_lf r)
  have hsame : lex (restyle crlf cs) = lex (restyle ['\n'] cs) :=
    lex_restyle_eq (List.cons_ne_nil _ _) (List.cons_ne_nil _ _) (by simp [crlf, IsBreak]) (by simp [IsBreak]) _ hcrlf
      lex_lf h
  rw [hsame, restyle_lf_lf]

/-- With CR for its newlines, a text has the tokens that it has with a blank for each of them. -/
theorem lex_restyle_cr (h : ∀ literal ∈ stringLiterals cs, '\n' ∉ literal) :
    lex (restyle cr cs) = lex (restyle [' '] cs) :=
  lex_restyle_eq (List.cons_ne_nil _ _) (List.cons_ne_nil _ _) (by simp [cr, IsBreak]) (by simp [IsBreak]) id
    (lex_blank (by decide) (by decide)) (lex_blank (by decide) (by decide)) h

/-- A program is read off the tokens alone. -/
theorem read_eq_of_lex {src src' : String} (h : lex src.toList = lex src'.toList) : read src = read src' := by
  rw [Expr.read, Expr.read, h]

end Conformance.Expr
