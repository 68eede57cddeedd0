import Conformance.Proofs.Expr.Newlines
import Conformance.Proofs.Script.Positions
import Conformance.Proofs.Script.Showing

/-!
# The style of the newlines of a script

A script that ends its lines with LF can be written with CR LF, or with CR, instead. It has the same tokens at the same
places then, with the newlines in them written in the other way (`tokens_restyle`), and it does the same as long as the
programs of its blocks stay the same: always with CR LF, and with CR if no block needs its newlines to separate
statements (`runScript_restyle`).
-/
namespace Conformance.Script

open Text Expr

variable {newline cs r text behind : List Char} {c : Char}

/-- A way to write newlines other than LF. -/
def IsStyle (newline : List Char) : Prop := newline = crlf ∨ newline = cr

theorem IsStyle.ne_nil (h : IsStyle newline) : newline ≠ [] := by
  rcases h with rfl | rfl <;> exact List.cons_ne_nil _ _

theorem IsStyle.mem (h : IsStyle newline) {d : Char} (hd : d ∈ newline) : d = '\r' ∨ d = '\n' := by
  rcases h with rfl | rfl
  · simpa [crlf] using hd
  · exact .inl (List.mem_singleton.1 hd)

theorem IsStyle.of_mem {p : Char → Bool} (h : IsStyle newline) (hcr : p '\r' = false) (hlf : p '\n' = false) :
    ∀ d ∈ newline, p d = false := by
  intro d hd
  rcases h.mem hd with rfl | rfl
  · exact hcr
  · exact hlf

/-- A text without newline characters has none of another style. -/
theorem IsStyle.not_mem (h : IsStyle newline) {bracket : List Char} (hchars : ∀ q ∈ bracket, q ≠ '\r' ∧ q ≠ '\n') :
    ∀ q ∈ bracket, q ≠ '\n' ∧ q ∉ newline := by
  intro q hq
  obtain ⟨hcr, hlf⟩ := hchars q hq
  exact ⟨hlf, fun hmem => (h.mem hmem).elim hcr hlf⟩

/-! ## Lexemes -/

/-- What is found at the front of a text, with other newlines. -/
def restyleFound (newline : List Char) : List Char × List Char → List Char × List Char :=
  Prod.map (restyle newline) (restyle newline)

/-- The lexeme with other newlines in its text and behind it. -/
def Lexeme.restyle (newline : List Char) (l : Lexeme) : Lexeme :=
  ⟨l.kind, Text.restyle newline l.text, Text.restyle newline l.rest⟩

section Lexemes

variable (hstyle : IsStyle newline)
include hstyle

/-- No text begins with an LF if it has other newlines. -/
theorem head?_restyle_ne (cs : List Char) : (restyle newline cs).head? ≠ some '\n' := by
  cases cs with
  | nil => simp [restyle]
  | cons c r =>
    by_cases hc : c = '\n'
    · rw [hc, restyle_lf]
      rcases hstyle with rfl | rfl <;> simp [crlf, cr]
    · rw [restyle_cons hc]
      simpa using hc

theorem newline?_restyle (hcr : '\r' ∉ cs) : newline? (restyle newline cs) = (newline? cs).map (restyleFound newline) := by
  cases cs with
  | nil => rfl
  | cons c r =>
    by_cases hc : c = '\n'
    · subst hc
      have hnewline : Form .newline newline (restyle newline r) := by
        rcases hstyle with rfl | rfl
        · exact .crlf _
        · exact .cr (head?_restyle_ne (.inr rfl) r)
      rw [restyle_lf, newline?_eq_some_iff.2 ⟨rfl, hnewline⟩]
      simp [newline?, restyleFound, restyle]
    · obtain ⟨hc', -⟩ := List.ne_and_not_mem_of_not_mem_cons hcr
      have hnone : ∀ r, newline? (c :: r) = none := fun r =>
        newline?_eq_none_iff.2 (by simp [hc, hc'.symm])
      rw [restyle_cons hc, hnone, hnone]
      rfl

theorem blankRun?_restyle (hcr : '\r' ∉ cs) :
    blankRun? (restyle newline cs) = (blankRun? cs).map (restyleFound newline) := by
  have htake : (restyle newline cs).takeWhile isInlineBlank = cs.takeWhile isInlineBlank :=
    takeWhile_restyle hstyle.ne_nil rfl (hstyle.of_mem rfl rfl) cs
  have hdrop : (restyle newline cs).dropWhile isInlineBlank = restyle newline (cs.dropWhile isInlineBlank) :=
    dropWhile_restyle hstyle.ne_nil rfl (hstyle.of_mem rfl rfl) cs
  have hrest : '\r' ∉ cs.dropWhile isInlineBlank := fun hmem => hcr ((List.dropWhile_sublist _).subset hmem)
  have hblanks : restyle newline (cs.takeWhile isInlineBlank) = cs.takeWhile isInlineBlank := by
    refine restyle_eq_self (fun hmem => ?_) _
    have hblank := List.all_eq_true.1 List.all_takeWhile _ hmem
    contradiction
  unfold blankRun?
  rw [htake, hdrop]
  dsimp only
  rw [newline?_restyle hstyle hrest]
  cases hrun : cs.takeWhile isInlineBlank with
  | nil => rfl
  | cons b blanks =>
    rw [hrun] at hblanks
    cases newline? (cs.dropWhile isInlineBlank) with
    | none => simp [restyleFound, hblanks]
    | some found =>
      have htext : restyle newline (b :: blanks ++ found.1) = b :: blanks ++ restyle newline found.1 := by
        rw [restyle_append, hblanks]
      exact congrArg (fun text => some (text, restyle newline found.2)) htext.symm

/-- Brackets are found in the same places. -/
theorem bracketed?_restyle {opening closing : List Char} (hclosing : closing ≠ [])
    (hchars : ∀ q ∈ opening ++ closing, q ≠ '\r' ∧ q ≠ '\n') (cs : List Char) :
    bracketed? opening closing (restyle newline cs) = (bracketed? opening closing cs).map (restyleFound newline) := by
  have hself : ∀ {bracket : List Char}, (∀ q ∈ bracket, q ≠ '\n' ∧ q ∉ newline) → restyle newline bracket = bracket :=
    fun h => restyle_eq_self (fun hmem => (h _ hmem).1 rfl) _
  obtain ⟨hopening, hclosing'⟩ := List.forall_mem_append.1 (hstyle.not_mem hchars)
  unfold bracketed?
  rw [dropPrefix?_restyle hstyle.ne_nil hopening]
  cases dropPrefix? opening cs with
  | none => rfl
  | some body =>
    simp only [Option.map_some, Option.bind_eq_bind, Option.bind_some]
    rw [breakOn?_restyle hstyle.ne_nil hclosing hclosing']
    cases breakOn? closing body with
    | none => rfl
    | some found =>
      have htext : restyle newline (opening ++ found.1 ++ closing) = opening ++ restyle newline found.1 ++ closing := by
        rw [restyle_append, restyle_append, hself hopening, hself hclosing']
      exact congrArg (fun text => some (text, restyle newline found.2)) htext.symm

theorem block?_restyle (cs : List Char) : block? (restyle newline cs) = (block? cs).map (restyleFound newline) := by
  have hblock : ∀ cs, bracketed? ['$', '\x7b'] ['\x7d', '$'] (restyle newline cs) =
      (bracketed? ['$', '\x7b'] ['\x7d', '$'] cs).map (restyleFound newline) :=
    bracketed?_restyle hstyle (by simp) (by simp)
  have hrecorded : ∀ cs, bracketed? ['~', '\x7b'] ['\x7d', '~'] (restyle newline cs) =
      (bracketed? ['~', '\x7b'] ['\x7d', '~'] cs).map (restyleFound newline) :=
    bracketed?_restyle hstyle (by simp) (by simp)
  unfold block?
  rw [hblock]
  cases bracketed? ['$', '\x7b'] ['\x7d', '$'] cs with
  | none => rfl
  | some found =>
    obtain ⟨text, rest⟩ := found
    simp only [Option.map_some, Option.bind_eq_bind, Option.bind_some, restyleFound, Prod.map]
    rw [hrecorded]
    cases bracketed? ['~', '\x7b'] ['\x7d', '~'] rest with
    | none => rfl
    | some recorded => exact congrArg (fun text => some (text, _)) (restyle_append _ _ _).symm

omit hstyle in
theorem reference?_of_ne (hc : c ≠ '$') (r : List Char) : reference? (c :: r) = none := by
  unfold reference?
  split
  next heq => exact absurd (List.cons.inj heq).1 hc
  next => rfl

theorem reference?_restyle (cs : List Char) :
    reference? (restyle newline cs) = (reference? cs).map (restyleFound newline) := by
  -- a newline of either style begins with no dollar sign and with nothing that begins a name
  obtain ⟨b, newline', hnewline⟩ := List.exists_cons_of_ne_nil hstyle.ne_nil
  have hb : b ∈ newline := hnewline ▸ List.mem_cons_self
  cases cs with
  | nil => rfl
  | cons c r =>
    by_cases hdollar : c = '$'
    · subst hdollar
      rw [restyle_cons (by decide)]
      cases r with
      | nil => rfl
      | cons d r =>
        by_cases hd : d = '\n'
        · have hstart : isNameStart b = false := hstyle.of_mem rfl rfl b hb
          rw [hd, restyle_lf, hnewline, List.cons_append, reference?, reference?, hstart]
          rfl
        · rw [restyle_cons hd, reference?, reference?]
          split
          · have htake : (restyle newline r).takeWhile isNameRest = r.takeWhile isNameRest :=
              takeWhile_restyle hstyle.ne_nil rfl (hstyle.of_mem rfl rfl) r
            have hdrop : (restyle newline r).dropWhile isNameRest = restyle newline (r.dropWhile isNameRest) :=
              dropWhile_restyle hstyle.ne_nil rfl (hstyle.of_mem rfl rfl) r
            have hname : '\n' ∉ r.takeWhile isNameRest := fun hmem =>
              absurd (List.all_eq_true.1 List.all_takeWhile _ hmem) (by decide)
            rw [htake, hdrop, Option.map_some, restyleFound, Prod.map, restyle_cons (by decide), restyle_cons hd,
              restyle_eq_self hname]
          · rfl
    · by_cases hc : c = '\n'
      · have hne : b ≠ '$' := by
          rcases hstyle.mem hb with rfl | rfl <;> decide
        rw [hc, restyle_lf, hnewline, List.cons_append, reference?_of_ne hne, reference?_of_ne (by decide)]
        rfl
      · rw [restyle_cons hc, reference?_of_ne hdollar, reference?_of_ne hdollar]
        rfl

theorem commandMarker?_restyle (cs : List Char) :
    commandMarker? (restyle newline cs) = (commandMarker? cs).map (restyleFound newline) := by
  unfold commandMarker?
  rw [dropPrefix?_restyle hstyle.ne_nil (hstyle.not_mem (by simp))]
  cases dropPrefix? ['>', '>', '>'] cs <;> rfl

theorem comment?_restyle (cs : List Char) :
    comment? (restyle newline cs) = (comment? cs).map (restyleFound newline) :=
  bracketed?_restyle hstyle (by simp) (by simp) cs

theorem recognise?_restyle (hcr : '\r' ∉ cs) (k : Kind) :
    recognise? k (restyle newline cs) = (recognise? k cs).map (restyleFound newline) := by
  cases k with
  | newline => exact newline?_restyle hstyle hcr
  | whitespace => exact blankRun?_restyle hstyle hcr
  | expression => exact block?_restyle hstyle cs
  | reference => exact reference?_restyle hstyle cs
  | commandMarker => exact commandMarker?_restyle hstyle cs
  | comment => exact comment?_restyle hstyle cs
  | literal => rfl

/-- The same lexeme stands at the front of a text with other newlines. -/
theorem lexeme?_restyle (hcr : '\r' ∉ cs) : lexeme? (restyle newline cs) = (lexeme? cs).map (Lexeme.restyle newline) := by
  rw [lexeme?_eq_findSome?, lexeme?_eq_findSome?, List.map_findSome?]
  refine congrArg (List.findSome? · lexemeKinds) (funext fun k => ?_)
  rw [recognise?_restyle hstyle hcr, Function.comp_apply, Option.map_map, Option.map_map]
  rfl

theorem literalRun_restyle (hcr : '\r' ∉ cs) :
    literalRun (restyle newline cs) = restyleFound newline (literalRun cs) := by
  induction cs with
  | nil => rfl
  | cons c r ih =>
    have hlexeme := lexeme?_restyle hstyle hcr
    by_cases hc : c = '\n'
    · -- A newline ends the literal, however it is written.
      obtain ⟨b, newline', hnewline⟩ := List.exists_cons_of_ne_nil hstyle.ne_nil
      have hsome : (lexeme? (c :: r)).isSome := by
        rw [hc]
        rfl
      have hsome' : (lexeme? (restyle newline (c :: r))).isSome := by
        rw [hlexeme, Option.isSome_map]
        exact hsome
      rw [literalRun, if_pos hsome]
      have hcons : restyle newline (c :: r) = b :: (newline' ++ restyle newline r) := by
        rw [hc, restyle_lf, hnewline]
        rfl
      rw [hcons] at hsome'
      rw [restyleFound, Prod.map, hcons, literalRun, if_pos hsome']
      rfl
    · obtain ⟨-, hr⟩ := List.ne_and_not_mem_of_not_mem_cons hcr
      rw [restyle_cons hc] at hlexeme ⊢
      rw [literalRun, literalRun, hlexeme, Option.isSome_map, ih hr]
      split
      · exact congrArg (Prod.mk _) (restyle_cons hc _ _).symm
      · exact congrArg (fun run => (run, _)) (restyle_cons hc _ _).symm

/-- A text has the same lexemes with other newlines. -/
theorem lexemes_restyle (hcr : '\r' ∉ cs) : lexemes (restyle newline cs) = (lexemes cs).map (Lexeme.restyle newline) := by
  induction cs using lexemes.induct with
  | case1 =>
    have hnil : restyle newline [] = [] := rfl
    rw [hnil, lexemes]
    rfl
  | case2 c r ih =>
    have hrest : '\r' ∉ (nextLexeme c r).rest := by
      rw [← nextLexeme_append c r] at hcr
      exact fun hmem => hcr (List.mem_append_right _ hmem)
    have hlexeme := lexeme?_restyle hstyle hcr
    rw [lexemes_cons, List.map_cons, ← ih hrest]
    cases h : lexeme? (c :: r) with
    | some l =>
      have hnext : nextLexeme c r = l := by rw [nextLexeme, h]
      rw [h] at hlexeme
      rw [hnext]
      exact lexemes_of_lexeme? hlexeme
    | none =>
      have hc : c ≠ '\n' := by
        rintro rfl
        contradiction
      rw [h, restyle_cons hc] at hlexeme
      have hrun := literalRun_restyle hstyle hcr
      rw [restyle_cons hc] at hrun ⊢
      rw [lexemes_cons, nextLexeme_of_none hlexeme, nextLexeme_of_none h, hrun]
      rfl

/-! ## Tokens -/

theorem advance_restyle (p : Position) (hcr : '\r' ∉ cs) : p.advance (restyle newline cs) = p.advance cs := by
  induction cs generalizing p with
  | nil => rfl
  | cons c r ih =>
    obtain ⟨hc', hr⟩ := List.ne_and_not_mem_of_not_mem_cons hcr
    by_cases hc : c = '\n'
    · rw [hc, restyle_lf, Position.advance, ← ih p.nextLine hr]
      rcases hstyle with rfl | rfl
      · rfl
      · refine Position.advance.eq_3 p _ fun r' heq => ?_
        exact head?_restyle_ne (.inr rfl) r (congrArg List.head? heq)
    · rw [restyle_cons hc, Position.advance.eq_5 p c _ (fun _ h => absurd h hc'.symm) hc'.symm hc,
        Position.advance.eq_5 p c _ (fun _ h => absurd h hc'.symm) hc'.symm hc, ih _ hr]

end Lexemes

/-- The script with other newlines. -/
def restyleScript (newline : List Char) (src : String) : String := String.ofList (restyle newline src.toList)

/-- The token with other newlines in its text. -/
def Token.restyle (newline : List Char) (t : Token) : Token := ⟨restyleScript newline t.text, t.place⟩

section Tokens

variable (hstyle : IsStyle newline)
include hstyle

theorem place_restyle (p : Position) {ts : List (List Char)} (hcr : ∀ t ∈ ts, '\r' ∉ t) :
    place p (ts.map (restyle newline)) = (place p ts).map (Token.restyle newline) := by
  induction ts generalizing p with
  | nil => rfl
  | cons t ts ih =>
    obtain ⟨ht, hts⟩ := List.forall_mem_cons.1 hcr
    rw [List.map_cons, place, place, advance_restyle hstyle p ht, ih _ hts, List.map_cons, Token.restyle, restyleScript,
      String.toList_ofList]

omit hstyle in
theorem not_mem_of_mem_tokens {src : String} {t : Token} (ht : t ∈ tokens src) (hc : c ∉ src.toList) :
    c ∉ t.text.toList := by
  intro hmem
  refine hc ?_
  rw [← textOf_tokens src, toList_textOf]
  exact List.mem_flatten.2 ⟨t.text.toList, List.mem_map_of_mem ht, hmem⟩

/-- With other newlines, a script has the same tokens at the same places. -/
theorem tokens_restyle {src : String} (hcr : '\r' ∉ src.toList) :
    tokens (restyleScript newline src) = (tokens src).map (Token.restyle newline) := by
  have htexts : ∀ t ∈ (lexemes src.toList).map (·.text), '\r' ∉ t := by
    intro text htext
    rw [← tokens_texts] at htext
    obtain ⟨t, ht, rfl⟩ := List.mem_map.1 htext
    exact not_mem_of_mem_tokens ht hcr
  rw [tokens, tokens, restyleScript, String.toList_ofList, lexemes_restyle hstyle hcr, ← place_restyle hstyle _ htexts,
    List.map_map, List.map_map]
  rfl

/-- The tokens are of the same kinds. -/
theorem kind_restyle {src : String} (hcr : '\r' ∉ src.toList) {t : Token} (ht : t ∈ tokens src) :
    (t.restyle newline).kind = t.kind := by
  have hkinds : ((tokens src).map (Token.restyle newline)).map Token.kind = (tokens src).map Token.kind := by
    rw [← tokens_restyle hstyle hcr]
    refine (tokens_kinds (restyleScript newline src)).trans ((Eq.trans ?_ (tokens_kinds src).symm))
    rw [restyleScript, String.toList_ofList, lexemes_restyle hstyle hcr, List.map_map]
    rfl
  rw [List.map_map] at hkinds
  have hsame := List.map_inj_left.1 hkinds t ht
  rwa [Function.comp_apply] at hsame

/-! ## What the tokens do -/

omit hstyle in
/-- Newlines stand in comments, in blocks, and at the end of a line. -/
theorem Form.not_mem_lf {k : Kind} (h : Form k text behind) :
    '\n' ∉ text ∨ k = .comment ∨ k = .expression ∨ endsLine text = true := by
  cases h with
  | crlf | cr | lf => exact .inr (.inr (.inr rfl))
  | blankRun hne hblanks hbehind =>
    refine .inl fun hmem => ?_
    have hblank := hblanks _ hmem
    contradiction
  | @blankLine blanks nl _ hne hblanks hnewline =>
    refine .inr (.inr (.inr ?_))
    cases hnewline with
    | crlf =>
      have hconcat := endsLine_concat (blanks ++ ['\r']) '\n'
      rwa [List.append_assoc] at hconcat
    | cr => exact endsLine_concat blanks '\r'
    | lf => exact endsLine_concat blanks '\n'
  | block | recordedBlock => exact .inr (.inr (.inl rfl))
  | @reference c name _ hc hname hbehind =>
    refine .inl fun hmem => ?_
    rcases List.mem_cons.1 hmem with hdollar | hmem
    · exact absurd hdollar (by decide)
    · rcases List.mem_cons.1 hmem with rfl | hmem
      · exact absurd rfl (ne_newline_of_isNameRest (isNameRest_of_isNameStart hc)).1
      · exact absurd rfl (ne_newline_of_isNameRest (hname _ hmem)).1
  | commandMarker => exact .inl (by decide)
  | comment => exact .inr (.inl rfl)

omit hstyle in
theorem not_mem_lf_of_mem_tokens {src : String} {t : Token} (ht : t ∈ tokens src) :
    '\n' ∉ t.text.toList ∨ t.kind = .comment ∨ t.kind = .expression ∨ t.endsLine = true := by
  by_cases hk : t.kind = .literal
  · obtain ⟨l, hclassified, htext, hkind, -⟩ := exists_lexeme ht
    refine .inl fun hmem => ?_
    have hblank := hclassified.word (hkind.symm.trans hk) '\n' (htext ▸ hmem)
    contradiction
  · obtain ⟨behind, hform⟩ := form_of_mem_tokens ht hk
    exact hform.not_mem_lf

/-- A line ends with any newline. -/
theorem endsLine_restyle {t : Token} (h : t.endsLine = true) (hcr : '\r' ∉ t.text.toList) :
    (t.restyle newline).endsLine = true := by
  obtain ⟨front, c, htext⟩ : ∃ front c, t.text.toList = front ++ [c] := by
    rcases List.eq_nil_or_concat' t.text.toList with hnil | ⟨front, c, htext⟩
    · rw [Token.endsLine, hnil] at h
      contradiction
    · exact ⟨front, c, htext⟩
  have hc : c = '\n' := by
    rw [Token.endsLine, htext, endsLine_concat] at h
    rw [htext] at hcr
    have hne : c ≠ '\r' := fun heq => hcr (List.mem_append_right _ (heq ▸ List.mem_singleton_self _))
    simpa [hne] using h
  rw [Token.endsLine, Token.restyle, restyleScript, String.toList_ofList, htext, restyle_append, hc]
  rcases hstyle with rfl | rfl
  · have hconcat := endsLine_concat (restyle crlf front ++ ['\r']) '\n'
    rwa [List.append_assoc] at hconcat
  · exact endsLine_concat _ '\r'

/-- The source of a block is found in it with other newlines. -/
theorem source?_restyle (t : Token) : (t.restyle newline).source? = t.source?.map (restyleScript newline) := by
  rw [Token.source?, Token.source?, Token.expressionParts?, Token.expressionParts?, Token.restyle, restyleScript,
    String.toList_ofList, dropPrefix?_restyle hstyle.ne_nil (hstyle.not_mem (by simp))]
  cases dropPrefix? ['$', '\x7b'] t.text.toList with
  | none => rfl
  | some body =>
    simp only [Option.map_some, Option.bind_eq_bind, Option.bind_some]
    rw [breakOn?_restyle hstyle.ne_nil (List.cons_ne_nil _ _) (hstyle.not_mem (by simp))]
    cases breakOn? ['\x7d', '$'] body with
    | none => rfl
    | some found =>
      simp [restyleScript]

/-- A token does the same with other newlines in it, if it holds no other program then. -/
theorem sameButShown_restyle {src : String} (hcr : '\r' ∉ src.toList) {t : Token} (ht : t ∈ tokens src)
    (hread : t.kind = .expression → ∀ source ∈ t.source?, Expr.read (restyleScript newline source) = Expr.read source) :
    SameButShown t (t.restyle newline) := by
  have hkind := kind_restyle hstyle hcr ht
  have hself : '\n' ∉ t.text.toList → SameButShown t (t.restyle newline) := by
    intro hlf
    have htoken : t.restyle newline = t := by
      rw [Token.restyle, restyleScript, restyle_eq_self hlf, String.ofList_toList]
    rw [htoken]
    exact .refl t
  rcases not_mem_lf_of_mem_tokens ht with hlf | hk | hk | hends
  · exact hself hlf
  · exact .comment rfl hk (hkind.trans hk)
  · refine .block rfl hk (hkind.trans hk) ?_
    rw [source?_restyle hstyle, Option.map_map]
    refine Option.map_congr fun source hsource => ?_
    exact (hread hk source hsource).symm
  · have hblank := kind_of_endsLine hends
    have hblank' : (t.restyle newline).kind = .newline ∨ (t.restyle newline).kind = .whitespace := by
      rw [hkind]
      exact hblank
    have htext := not_mem_of_mem_tokens ht hcr
    exact .lineEnd rfl ⟨hblank, hends⟩ ⟨hblank', endsLine_restyle hstyle hends htext⟩

end Tokens

/-! ## Runs -/

/-- The sources of the expression blocks of a script. -/
def blocks (src : String) : List String := ((tokens src).filter (·.kind = .expression)).filterMap (·.source?)

theorem mem_blocks {src source : String} :
    source ∈ blocks src ↔ ∃ t ∈ tokens src, t.kind = .expression ∧ source ∈ t.source? := by
  simp [blocks, and_assoc]

/-- The two scripts do the same from a session: they end with the same result, or the same fault, after the same
commands, with the same variables and the same failures at the same places, and in all with the same session but for
the transcript. -/
structure SameRun {σ : Type} (link : Link σ) (file : String) (s : Session σ) (src src' : String) : Prop where
  result : resultOf (runScript link file src') s = resultOf (runScript link file src) s
  sent : (endOf (runScript link file src') s).sent = (endOf (runScript link file src) s).sent
  vars : (endOf (runScript link file src') s).vars = (endOf (runScript link file src) s).vars
  failures : (endOf (runScript link file src') s).failures = (endOf (runScript link file src) s).failures
  mute : (endOf (runScript link file src') s).mute = (endOf (runScript link file src) s).mute

/-- Scripts that do the same but for what they show do the same from every session. -/
theorem sameRun_of_doesSame {σ : Type} {link : Link σ} {file src src' : String}
    (h : DoesSame (runScript link file src) (runScript link file src')) (s : Session σ) :
    SameRun link file s src src' := by
  obtain ⟨hresult, hmute⟩ := ends_of_doesSame h s
  exact ⟨hresult.symm, eq_of_mute hmute.symm Session.sent fun _ => rfl, eq_of_mute hmute.symm Session.vars fun _ => rfl,
    eq_of_mute hmute.symm Session.failures fun _ => rfl, hmute.symm⟩

variable {σ : Type} (link : Link σ) (file : String) (s : Session σ) {src : String}

/-- With other newlines, a script whose blocks hold the same programs does the same. -/
theorem sameRun_restyle (hstyle : IsStyle newline) (hcr : '\r' ∉ src.toList)
    (hread : ∀ source ∈ blocks src, Expr.read (restyleScript newline source) = Expr.read source) :
    SameRun link file s src (restyleScript newline src) := by
  have htokens : List.Forall₂ SameButShown (tokens src) (tokens (restyleScript newline src)) := by
    rw [tokens_restyle hstyle hcr, List.forall₂_map_right_iff, List.forall₂_same]
    exact fun t ht => sameButShown_restyle hstyle hcr ht fun hk source hsource =>
      hread source (mem_blocks.2 ⟨t, ht, hk, hsource⟩)
  exact sameRun_of_doesSame (runScript_doesSame link file htokens) s

/-- The newlines of a script with LF alone can be written as CR LF or as CR, if no string literal in an expression block
has one in it. The tokens are of the same kinds at the same places. With CR LF the script does the same. With CR the
newlines of a block are blanks, so the script does the same if its blocks read the same with blanks for their newlines:
if these do not separate statements. -/
theorem runScript_restyle (hcr : '\r' ∉ src.toList)
    (hliterals : ∀ source ∈ blocks src, ∀ literal ∈ stringLiterals source.toList, '\n' ∉ literal) :
    (∀ newline, IsStyle newline → (tokens (restyleScript newline src)).map (fun t => (t.kind, t.place)) =
      (tokens src).map fun t => (t.kind, t.place)) ∧
    SameRun link file s src (restyleScript crlf src) ∧
    (∀ source ∈ blocks src, Expr.read (restyleScript cr source) = Expr.read (restyleScript [' '] source)) ∧
    ((∀ source ∈ blocks src, Expr.read (restyleScript [' '] source) = Expr.read source) →
      SameRun link file s src (restyleScript cr src)) := by
  have hcrlf : ∀ source ∈ blocks src, Expr.read (restyleScript crlf source) = Expr.read source := by
    intro source hsource
    refine read_eq_of_lex ?_
    rw [restyleScript, String.toList_ofList, lex_restyle_crlf (hliterals source hsource)]
  have hblank : ∀ source ∈ blocks src, Expr.read (restyleScript cr source) = Expr.read (restyleScript [' '] source) := by
    intro source hsource
    refine read_eq_of_lex ?_
    rw [restyleScript, restyleScript, String.toList_ofList, String.toList_ofList, lex_restyle_cr (hliterals source hsource)]
  refine ⟨fun newline hstyle => ?_, sameRun_restyle link file s (.inl rfl) hcr hcrlf, hblank, fun hread => ?_⟩
  · rw [tokens_restyle hstyle hcr, List.map_map]
    refine List.map_congr_left fun t ht => ?_
    exact congrArg (·, t.place) (kind_restyle hstyle hcr ht)
  · exact sameRun_restyle link file s (.inr rfl) hcr fun source hsource =>
      (hblank source hsource).trans (hread source hsource)

/-- A script with a comment and a block over several lines, whose statements are separated by semicolons. -/
def twoStyles : String := "#\x7b two\nlines \x7d#\n>>> greet\nhello $\x7b x = 1;\ny = \"a\" \x7d$\n>>> go $x\n"

/-- A script that separates statements by newlines and by semicolons does the same in each style. -/
theorem runScript_restyle_two_styles :
    let link : Link Unit := ⟨fun _ _ state => (.ok "hello there", state)⟩
    let s : Session Unit := { active := some "alice", clients := [{ name := "alice" }], link := () }
    '\r' ∉ twoStyles.toList ∧ blocks twoStyles = [" x = 1;\ny = \"a\" "] ∧
      (endOf (runScript link "a.btstest" twoStyles) s).sent = [("alice", "greet"), ("alice", "go 1")] ∧
      SameRun link "a.btstest" s twoStyles (restyleScript crlf twoStyles) ∧
      SameRun link "a.btstest" s twoStyles (restyleScript cr twoStyles) := by
  intro link s
  have hblocks : blocks twoStyles = [" x = 1;\ny = \"a\" "] := by decide +kernel
  have hcr : '\r' ∉ twoStyles.toList := by decide +kernel
  obtain ⟨-, hcrlf, -, hkept⟩ := runScript_restyle link "a.btstest" s hcr (by
    rw [hblocks]
    decide +kernel)
  refine ⟨hcr, hblocks, by decide +kernel, hcrlf, hkept ?_⟩
  have hread : Expr.read (restyleScript [' '] " x = 1;\ny = \"a\" ") = Expr.read " x = 1;\ny = \"a\" " := by
    have hblank : lex (restyleScript [' '] " x = 1;\ny = \"a\" ").toList =
        .ok [.ident "x", .op .assign, .int 1, .sep, .ident "y", .op .assign, .str "a"] := by decide +kernel
    have hnewline : lex " x = 1;\ny = \"a\" ".toList =
        .ok [.ident "x", .op .assign, .int 1, .sep, .sep, .ident "y", .op .assign, .str "a"] := by decide +kernel
    -- A further separator makes no further statement.
    have hprogram : program [.ident "x", .op .assign, .int 1, .sep, .ident "y", .op .assign, .str "a"] =
        .ok [.assign "x" (.literal (.int (Int64.ofNat 1))), .assign "y" (.literal (.str "a"))] := rfl
    have hprogram' : program [.ident "x", .op .assign, .int 1, .sep, .sep, .ident "y", .op .assign, .str "a"] =
        .ok [.assign "x" (.literal (.int (Int64.ofNat 1))), .assign "y" (.literal (.str "a"))] := rfl
    exact (congrArg (· >>= program) hblank).trans (hprogram.trans (hprogram'.symm.trans
      (congrArg (· >>= program) hnewline).symm))
  rwa [hblocks, List.forall_mem_singleton]

/-- Two statements on two lines: with CR for the newlines, nothing separates them. -/
theorem statements_need_newlines :
    let link : Link Unit := ⟨fun _ _ state => (.ok "", state)⟩
    let s : Session Unit := { link := () }
    let src := "$\x7b x = 1\ny = 2 \x7d$\n"
    '\r' ∉ src.toList ∧ (∀ source ∈ blocks src, ∀ literal ∈ stringLiterals source.toList, '\n' ∉ literal) ∧
      restyleScript cr src = "$\x7b x = 1\ry = 2 \x7d$\r" ∧
      resultOf (runScript link "a.btstest" src) s = .ok () ∧
      (endOf (runScript link "a.btstest" src) s).vars.get? "y" = some (.int 2) ∧
      resultOf (runScript link "a.btstest" (restyleScript cr src)) s =
        .error (.scriptSyntax "a.btstest" 1 1 "unexpected Ident(\"y\") after statement") ∧
      (endOf (runScript link "a.btstest" (restyleScript cr src)) s).vars.get? "y" = none := by
  decide +kernel

end Conformance.Script
