import Conformance.Proofs.Expr.Composition
import Conformance.Proofs.Script.Course
import Conformance.Proofs.Script.Newlines

/-!
# The newline at the end of a script

A script may end without a newline. With one more LF behind it, it has one more token, which ends the last line; or its
last token takes the LF in, if this token is blank: a CR that becomes CR LF, or blanks that end the line then
(`tokens_append_lf`). The end of a script carries out an open command line as the end of a line does, and blanks at the
end of a command line are no part of the command, so the script does the same (`final_newline_optional`).
-/
namespace Conformance.Script

open Text Expr

variable {cs : List Char}

/-! ## Lexemes -/

/-- What is found at the front of a text, with an LF behind the text. Blanks that are all of the text take the LF in,
unless they end with one. -/
def foundWithLf (k : Kind) (found : List Char × List Char) : List Char × List Char :=
  if (k = .newline ∨ k = .whitespace) ∧ found.2 = [] ∧ '\n' ∉ found.1 then (found.1 ++ ['\n'], [])
  else (found.1, found.2 ++ ['\n'])

theorem foundWithLf_of_inline {k : Kind} (hnewline : k ≠ .newline) (hblank : k ≠ .whitespace)
    (found : List Char × List Char) : foundWithLf k found = Prod.map id (· ++ ['\n']) found :=
  if_neg fun h => h.1.elim hnewline hblank

theorem newline?_append_lf (c : Char) (r : List Char) :
    newline? (c :: r ++ ['\n']) = (newline? (c :: r)).map (foundWithLf .newline) := by
  by_cases hcr : c = '\r'
  · subst hcr
    cases r with
    | nil => rfl
    | cons d r =>
      by_cases hd : d = '\n'
      · subst hd
        simp [newline?, foundWithLf]
      · have hform : ∀ r, newline? ('\r' :: d :: r) = some (['\r'], d :: r) := fun r =>
          newline?_eq_some_iff.2 ⟨rfl, .cr (by simpa using hd)⟩
        rw [List.cons_append, List.cons_append, hform, hform]
        simp [foundWithLf]
  · by_cases hlf : c = '\n'
    · subst hlf
      simp [newline?, foundWithLf]
    · have hnone : ∀ r, newline? (c :: r) = none := fun r => newline?_eq_none_iff.2 (by simp [hcr, hlf])
      rw [List.cons_append, hnone, hnone]
      rfl

theorem blankRun?_append_lf (cs : List Char) :
    blankRun? (cs ++ ['\n']) = (blankRun? cs).map (foundWithLf .whitespace) := by
  obtain ⟨htake, hdrop⟩ := takeWhile_append_lf (p := isInlineBlank) (by decide) cs []
  unfold blankRun?
  rw [htake, hdrop]
  cases hrun : cs.takeWhile isInlineBlank with
  | nil => rfl
  | cons b blanks =>
    have hlf : '\n' ∉ b :: blanks := by
      rw [← hrun]
      exact fun hmem => absurd (List.all_eq_true.1 List.all_takeWhile _ hmem) (by decide)
    obtain ⟨hb, hblanks⟩ := List.ne_and_not_mem_of_not_mem_cons hlf
    dsimp only
    cases cs.dropWhile isInlineBlank with
    | nil => simp [newline?, foundWithLf, hlf]
    | cons d r =>
      rw [newline?_append_lf]
      cases hnewline : newline? (d :: r) with
      | none => simp [foundWithLf]
      | some found =>
        have hmem : '\n' ∈ b :: (blanks ++ found.1) ↔ '\n' ∈ found.1 := by simp [hb, hblanks]
        simp only [foundWithLf, Option.map_some, List.cons_append, hmem, reduceCtorEq, true_or, or_true, true_and]
        split <;> simp

theorem breakOn?_append_lf {pat : List Char} (hne : pat ≠ []) (hpat : '\n' ∉ pat) (cs : List Char) :
    breakOn? pat (cs ++ ['\n']) = (breakOn? pat cs).map (Prod.map id (· ++ ['\n'])) := by
  induction cs with
  | nil =>
    obtain ⟨q, pat, rfl⟩ := List.exists_cons_of_ne_nil hne
    have hq : q ≠ '\n' := fun h => hpat (h ▸ List.mem_cons_self)
    simp [breakOn?, dropPrefix?, hq]
  | cons c r ih =>
    have hdrop := dropPrefix?_append_lf hpat (c :: r) []
    rw [List.cons_append] at hdrop ⊢
    rw [breakOn?, breakOn?, hdrop, ih]
    cases dropPrefix? pat (c :: r) with
    | some after => rfl
    | none => cases breakOn? pat r <;> rfl

/-- An LF closes no bracket. -/
theorem bracketed?_append_lf {opening closing : List Char} (hopening : '\n' ∉ opening) (hne : closing ≠ [])
    (hclosing : '\n' ∉ closing) (cs : List Char) :
    bracketed? opening closing (cs ++ ['\n']) = (bracketed? opening closing cs).map (Prod.map id (· ++ ['\n'])) := by
  unfold bracketed?
  rw [dropPrefix?_append_lf hopening cs []]
  cases dropPrefix? opening cs with
  | none => rfl
  | some body =>
    simp only [Option.map_some, Option.bind_eq_bind, Option.bind_some]
    rw [breakOn?_append_lf hne hclosing]
    cases breakOn? closing body <;> rfl

theorem block?_append_lf (cs : List Char) : block? (cs ++ ['\n']) = (block? cs).map (Prod.map id (· ++ ['\n'])) := by
  unfold block?
  rw [bracketed?_append_lf (by decide) (by decide) (by decide)]
  cases bracketed? ['$', '\x7b'] ['\x7d', '$'] cs with
  | none => rfl
  | some found =>
    obtain ⟨text, rest⟩ := found
    simp only [Option.map_some, Option.bind_eq_bind, Option.bind_some, Prod.map, id]
    rw [bracketed?_append_lf (by decide) (by decide) (by decide)]
    cases bracketed? ['~', '\x7b'] ['\x7d', '~'] rest <;> rfl

theorem reference?_append_lf (cs : List Char) :
    reference? (cs ++ ['\n']) = (reference? cs).map (Prod.map id (· ++ ['\n'])) := by
  cases cs with
  | nil => rfl
  | cons c r =>
    by_cases hc : c = '$'
    · subst hc
      cases r with
      | nil => rfl
      | cons d r =>
        obtain ⟨htake, hdrop⟩ := takeWhile_append_lf (p := isNameRest) (by decide) r []
        rw [List.cons_append, List.cons_append, reference?, reference?, htake, hdrop]
        split <;> rfl
    · rw [List.cons_append, reference?_of_ne hc, reference?_of_ne hc]
      rfl

theorem commandMarker?_append_lf (cs : List Char) :
    commandMarker? (cs ++ ['\n']) = (commandMarker? cs).map (Prod.map id (· ++ ['\n'])) := by
  unfold commandMarker?
  rw [dropPrefix?_append_lf (by decide) cs []]
  cases dropPrefix? ['>', '>', '>'] cs <;> rfl

theorem recognise?_append_lf (k : Kind) (c : Char) (r : List Char) :
    recognise? k (c :: r ++ ['\n']) = (recognise? k (c :: r)).map (foundWithLf k) := by
  have hinline : ∀ {k : Kind}, k ≠ .newline → k ≠ .whitespace → foundWithLf k = Prod.map id (· ++ ['\n']) :=
    fun hnewline hblank => funext (foundWithLf_of_inline hnewline hblank)
  cases k with
  | newline => exact newline?_append_lf c r
  | whitespace => exact blankRun?_append_lf (c :: r)
  | expression =>
    rw [hinline (by decide) (by decide)]
    exact block?_append_lf (c :: r)
  | reference =>
    rw [hinline (by decide) (by decide)]
    exact reference?_append_lf (c :: r)
  | commandMarker =>
    rw [hinline (by decide) (by decide)]
    exact commandMarker?_append_lf (c :: r)
  | comment =>
    rw [hinline (by decide) (by decide)]
    exact bracketed?_append_lf (by decide) (by decide) (by decide) (c :: r)
  | literal => rfl

/-- The lexeme at the front of a text, with an LF behind the text. -/
def Lexeme.withLf (l : Lexeme) : Lexeme :=
  let found := foundWithLf l.kind (l.text, l.rest)
  ⟨l.kind, found.1, found.2⟩

theorem lexeme?_append_lf (c : Char) (r : List Char) :
    lexeme? (c :: r ++ ['\n']) = (lexeme? (c :: r)).map Lexeme.withLf := by
  rw [lexeme?_eq_findSome?, lexeme?_eq_findSome?, List.map_findSome?]
  refine congrArg (List.findSome? · lexemeKinds) (funext fun k => ?_)
  rw [recognise?_append_lf, Function.comp_apply, Option.map_map, Option.map_map]
  rfl

theorem literalRun_append_lf (cs : List Char) :
    literalRun (cs ++ ['\n']) = Prod.map id (· ++ ['\n']) (literalRun cs) := by
  induction cs with
  | nil => rfl
  | cons c r ih =>
    have hsome : (lexeme? (c :: (r ++ ['\n']))).isSome = (lexeme? (c :: r)).isSome := by
      rw [← List.cons_append, lexeme?_append_lf, Option.isSome_map]
    rw [List.cons_append, literalRun, literalRun, hsome, ih]
    split <;> rfl

theorem nextLexeme_append_lf (c : Char) (r : List Char) : nextLexeme c (r ++ ['\n']) = (nextLexeme c r).withLf := by
  have hlexeme := lexeme?_append_lf c r
  rw [List.cons_append] at hlexeme
  rw [nextLexeme, nextLexeme, hlexeme]
  cases lexeme? (c :: r) with
  | some l => rfl
  | none =>
    rw [literalRun_append_lf]
    rfl

/-- With an LF behind it, a text has one more lexeme, or a last one that takes the LF in. -/
theorem lexemes_append_lf (cs : List Char) :
    (lexemes (cs ++ ['\n'])).map (·.text) = (lexemes cs).map (·.text) ++ [['\n']] ∨
    ∃ front l, lexemes cs = front ++ [l] ∧ (l.kind = .newline ∨ l.kind = .whitespace) ∧
      (lexemes (cs ++ ['\n'])).map (·.text) = front.map (·.text) ++ [l.text ++ ['\n']] := by
  induction cs using lexemes.induct with
  | case1 =>
    left
    have hlf : lexeme? ['\n'] = some ⟨.newline, ['\n'], []⟩ := rfl
    rw [List.nil_append, lexemes_of_lexeme? hlf, lexemes]
    rfl
  | case2 c r ih =>
    rw [List.cons_append, lexemes_cons, lexemes_cons, nextLexeme_append_lf]
    generalize nextLexeme c r = l at ih
    by_cases htakes : (l.kind = .newline ∨ l.kind = .whitespace) ∧ l.rest = [] ∧ '\n' ∉ l.text
    · -- This is the last lexeme, and it takes the LF in.
      have hwith : l.withLf = ⟨l.kind, l.text ++ ['\n'], []⟩ := by
        rw [Lexeme.withLf, foundWithLf, if_pos htakes]
      right
      refine ⟨[], l, ?_, htakes.1, ?_⟩
      · rw [htakes.2.1, lexemes]
        rfl
      · rw [hwith, lexemes]
        rfl
    · have hwith : l.withLf = ⟨l.kind, l.text, l.rest ++ ['\n']⟩ := by
        rw [Lexeme.withLf, foundWithLf, if_neg htakes]
      rw [hwith]
      rcases ih with hmore | ⟨front, last, hlast, hkind, htexts⟩
      · left
        rw [List.map_cons, List.map_cons, hmore, List.cons_append]
      · right
        refine ⟨l :: front, last, ?_, hkind, ?_⟩
        · rw [hlast, List.cons_append]
        · rw [List.map_cons, htexts, List.map_cons, List.cons_append]

/-! ## Tokens -/

/-- With an LF behind it, a script has one more token, or a last one that takes the LF in. -/
theorem tokens_append_lf (src : String) :
    (∃ place, tokens (src ++ "\n") = tokens src ++ [⟨"\n", place⟩]) ∨
    ∃ front t, tokens src = front ++ [t] ∧ (t.kind = .newline ∨ t.kind = .whitespace) ∧
      tokens (src ++ "\n") = front ++ [⟨t.text ++ "\n", t.place⟩] := by
  have htext : (src ++ "\n").toList = src.toList ++ ['\n'] := by simp
  have hlf : String.ofList ['\n'] = "\n" := rfl
  rw [tokens, tokens, htext]
  rcases lexemes_append_lf src.toList with hmore | ⟨front, l, hlast, hkind, htexts⟩
  · left
    rw [hmore, place_append]
    exact ⟨_, congrArg _ (by rw [place, place, hlf])⟩
  · right
    have hclassified : Classified l := by
      have hmem : l ∈ lexemes src.toList := hlast ▸ List.mem_append_right _ List.mem_cons_self
      obtain ⟨c, r, rfl⟩ := exists_nextLexeme hmem
      exact nextLexeme_classified c r
    rw [htexts, hlast, List.map_append, List.map_singleton, place_append, place_append, place, place, place, place]
    refine ⟨_, _, rfl, ?_, ?_⟩
    · rw [Token.kind, String.toList_ofList, hclassified.kindOf]
      exact hkind
    · rw [String.ofList_append, hlf]

/-- What ends with an LF ends a line. -/
theorem isLineEnd_append_lf (text : String) (place : Position) : (⟨text ++ "\n", place⟩ : Token).IsLineEnd := by
  have hends : (⟨text ++ "\n", place⟩ : Token).endsLine = true := by
    rw [Token.endsLine, String.toList_append]
    exact endsLine_concat text.toList '\n'
  exact ⟨kind_of_endsLine hends, hends⟩

/-! ## The end of a script -/

section Ends

variable {σ α : Type} (link : Link σ) (file : String)

theorem doesSame_write_left {x y : Action σ α} (h : DoesSame x y) (text : String) :
    DoesSame (write text >>= fun _ => x) y := fun u v hs => by
  rw [run_bind_ok (run_write text u)]
  exact h (u.write text) v hs

theorem doesSame_write_right {x y : Action σ α} (h : DoesSame x y) (text : String) :
    DoesSame x (write text >>= fun _ => y) := fun u v hs => by
  rw [run_bind_ok (run_write text v)]
  exact h u (v.write text) hs

/-- The end of a script does what the end of a line does. -/
theorem conclude_lineEnd_doesSame (line : Option CommandLine) {t : Token} (ht : t.IsLineEnd) :
    DoesSame (conclude link file line) (step link file line t >>= conclude link file) := by
  rw [step_of_blank link file ht.kind, if_pos ht.endsLine, bind_assoc]
  refine (doesSame_finish link file line).bind fun _ => ?_
  rw [bind_assoc]
  exact doesSame_write_right doesSame_flushResidual t.text

/-- Blanks at the end of a command line are no part of the command. -/
theorem finish_add_blanks {line : Option CommandLine} {text : String} (hblank : ∀ c ∈ text.toList, isWhite c = true) :
    finish link file (line.map (·.add text)) = finish link file line := by
  cases line with
  | none => rfl
  | some l =>
    have htrim : (l.text ++ text).trimWhite = l.text.trimWhite := by
      rw [String.trimWhite, String.trimWhite, String.toList_append, trim_append_blanks hblank]
    rw [Option.map_some, finish, finish, execute, execute, CommandLine.add]
    dsimp only
    rw [htrim]

/-- Blanks at the end of a script do what they do with an LF behind them, whether they end a line already or not. -/
theorem lastBlank_doesSame (line : Option CommandLine) {t t' : Token} (hk : t.kind = .newline ∨ t.kind = .whitespace)
    (hblank : ∀ c ∈ t.text.toList, isWhite c = true) (ht' : t'.IsLineEnd) :
    DoesSame (step link file line t >>= conclude link file) (step link file line t' >>= conclude link file) := by
  by_cases hends : t.endsLine = true
  · exact (step_lineEnd_doesSame link file line ⟨hk, hends⟩ ht').bind fun line =>
      (doesSame_finish link file line).bind fun _ => doesSame_flushResidual
  · have hsame : conclude link file (line.map (·.add t.text)) = conclude link file line := by
      rw [conclude, conclude, finish_add_blanks link file hblank]
    rw [step_of_blank link file hk, if_neg hends, bind_assoc]
    refine doesSame_write_left ?_ t.text
    rw [pure_bind, hsame]
    exact conclude_lineEnd_doesSame link file line ht'

/-- A script does the same with an LF behind it, whatever it ends with. -/
theorem final_newline_optional (s : Session σ) (src : String) : SameRun link file s src (src ++ "\n") := by
  have hself : ∀ ts : List Token, List.Forall₂ SameButShown ts ts := fun ts => List.forall₂_same.2 fun t _ => .refl t
  refine sameRun_of_doesSame ?_ s
  rw [runScript_eq, runScript_eq]
  rcases tokens_append_lf src with ⟨place, hmore⟩ | ⟨front, t, hlast, hkind, htakes⟩
  · rw [hmore, runTokens_append, bind_assoc]
    refine (runTokens_doesSame link file none (hself _)).bind fun line => ?_
    rw [runTokens]
    simp only [runTokens, bind_pure]
    exact conclude_lineEnd_doesSame link file line (isLineEnd_append_lf "" place)
  · rw [hlast, htakes, runTokens_append, runTokens_append, bind_assoc, bind_assoc]
    refine (runTokens_doesSame link file none (hself _)).bind fun line => ?_
    have hblank : ∀ c ∈ t.text.toList, isWhite c = true := by
      obtain ⟨l, hclassified, htext, hkind', -⟩ := exists_lexeme (hlast ▸ List.mem_append_right _ List.mem_cons_self)
      intro c hc
      exact isWhite_of_isOutputBlank (hclassified.blank (hkind' ▸ hkind) c (htext ▸ hc))
    rw [runTokens, runTokens]
    simp only [runTokens, bind_pure]
    exact lastBlank_doesSame link file line hkind hblank (isLineEnd_append_lf t.text t.place)

end Ends

end Conformance.Script
