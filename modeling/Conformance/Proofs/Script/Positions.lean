import Mathlib.Data.List.DropRight
import Mathlib.Data.List.Infix
import Conformance.Proofs.Script.Grammar

/-!
# The places of tokens

The place of a token is kept up to date from token to token. Here it is said what it is, from the text in front of the
token alone: the number of newlines in it, and the number of characters behind the last of them (`tokens_place`). The two agree
because no token ends between the two characters of a CR LF (`Form.keeps_newline`).
-/
namespace Conformance.Script

open Text

/-! ## Newlines -/

/-- Whether a newline ends with the first character of a text: with every LF, and with a CR that has no LF behind it. -/
def endsNewline : List Char → Bool
  | '\n' :: _ => true
  | '\r' :: r => r.head? ≠ some '\n'
  | _ => false

/-- The number of newlines in a text. CR LF is one newline. -/
def newlineCount (cs : List Char) : Nat := cs.tails.countP endsNewline

/-- The characters behind the last newline of a text. -/
def lastLine (cs : List Char) : List Char := cs.rtakeWhile fun c => c ≠ '\r' ∧ c ≠ '\n'

theorem newlineCount_nil : newlineCount [] = 0 := rfl

theorem newlineCount_cons (c : Char) (r : List Char) :
    newlineCount (c :: r) = newlineCount r + if endsNewline (c :: r) then 1 else 0 := by
  rw [newlineCount, List.tails_cons, List.countP_cons]
  rfl

theorem endsNewline_of_ne {c : Char} (h : c ≠ '\r' ∧ c ≠ '\n') (r : List Char) : endsNewline (c :: r) = false := by
  unfold endsNewline
  split <;> simp_all

theorem newlineCount_eq_zero_iff {cs : List Char} : newlineCount cs = 0 ↔ ∀ c ∈ cs, c ≠ '\r' ∧ c ≠ '\n' := by
  induction cs with
  | nil => simp [newlineCount_nil]
  | cons c r ih =>
    rw [newlineCount_cons, List.forall_mem_cons, ← ih]
    by_cases hc : c ≠ '\r' ∧ c ≠ '\n'
    · simp [endsNewline_of_ne hc, hc]
    · -- Either a newline ends here, or it is CR LF, which ends with the next character.
      have hcount : newlineCount r + (if endsNewline (c :: r) then 1 else 0) ≠ 0 := by
        by_cases hn : c = '\n'
        · simp [hn, endsNewline]
        · have hr : c = '\r' := by
            by_contra hr
            exact hc ⟨hr, hn⟩
          subst hr
          by_cases hlf : r.head? = some '\n'
          · obtain ⟨r', rfl⟩ := List.head?_eq_some_iff.1 hlf
            simp [newlineCount_cons, endsNewline]
          · simp [endsNewline, hlf]
      simp only [hcount, hc, false_and]

theorem lastLine_append_newline {c : Char} (h : c = '\r' ∨ c = '\n') (a r : List Char) :
    lastLine (a ++ c :: r) = lastLine r := by
  have hstop : (c :: a.reverse).takeWhile (fun c => decide (c ≠ '\r' ∧ c ≠ '\n')) = [] := by
    refine List.takeWhile_cons_of_neg ?_
    rcases h with rfl | rfl <;> decide
  rw [lastLine, lastLine, List.rtakeWhile, List.rtakeWhile, List.reverse_append, List.reverse_cons, List.append_assoc,
    List.singleton_append, List.takeWhile_append, hstop, List.append_nil]
  split
  · rename_i hall
    rw [List.IsPrefix.eq_of_length (List.takeWhile_prefix _) hall]
  · rfl

theorem lastLine_eq_self {cs : List Char} (h : newlineCount cs = 0) : lastLine cs = cs := by
  rw [lastLine, List.rtakeWhile_eq_self_iff]
  intro c hc
  simpa using newlineCount_eq_zero_iff.1 h c hc

theorem lastLine_cons {c : Char} {r : List Char} (h : newlineCount r ≠ 0) : lastLine (c :: r) = lastLine r := by
  obtain ⟨d, hd, hnewline⟩ : ∃ d ∈ r, ¬(d ≠ '\r' ∧ d ≠ '\n') := by
    by_contra hnone
    refine h (newlineCount_eq_zero_iff.2 fun d hd => ?_)
    by_contra hnewline
    exact hnone ⟨d, hd, hnewline⟩
  obtain ⟨x, y, rfl⟩ := List.append_of_mem hd
  have hd : d = '\r' ∨ d = '\n' := by
    by_contra hne
    exact hnewline (not_or.1 hne)
  rw [← List.cons_append, lastLine_append_newline hd, lastLine_append_newline hd]

/-! ## Moving on over a text -/

/-- Behind a text, the line is further on by its newlines; the column is counted from the last of them, or goes on. -/
theorem advance_eq (p : Position) (cs : List Char) :
    p.advance cs =
      ⟨p.line + newlineCount cs, if newlineCount cs = 0 then p.column + cs.length else 1 + (lastLine cs).length⟩ := by
  -- At the start of a line, both cases give the same column.
  have hstart : ∀ r : List Char, (if newlineCount r = 0 then 1 + r.length else 1 + (lastLine r).length) =
      1 + (lastLine r).length := by
    intro r
    split
    · rename_i hnone
      rw [lastLine_eq_self hnone]
    · rfl
  induction p, cs using Position.advance.induct with
  | case1 p => rfl
  | case2 p r ih =>
    have hcount : newlineCount ('\r' :: '\n' :: r) = newlineCount r + 1 := by
      simp [newlineCount_cons, endsNewline]
    have hlast : lastLine ('\r' :: '\n' :: r) = lastLine r := lastLine_append_newline (.inr rfl) ['\r'] r
    rw [Position.advance, ih, hcount, hlast, if_neg (Nat.succ_ne_zero _), Position.nextLine, hstart]
    simp only [Position.mk.injEq, and_true]
    omega
  | case3 p r hne ih =>
    have hhead : r.head? ≠ some '\n' := by
      intro hhead
      obtain ⟨r', rfl⟩ := List.head?_eq_some_iff.1 hhead
      exact hne r' rfl
    have hcount : newlineCount ('\r' :: r) = newlineCount r + 1 := by
      simp [newlineCount_cons, endsNewline, hhead]
    have hlast : lastLine ('\r' :: r) = lastLine r := lastLine_append_newline (.inl rfl) [] r
    rw [Position.advance.eq_3 p r hne, ih, hcount, hlast, if_neg (Nat.succ_ne_zero _), Position.nextLine, hstart]
    simp only [Position.mk.injEq, and_true]
    omega
  | case4 p r ih =>
    have hcount : newlineCount ('\n' :: r) = newlineCount r + 1 := by
      simp [newlineCount_cons, endsNewline]
    have hlast : lastLine ('\n' :: r) = lastLine r := lastLine_append_newline (.inr rfl) [] r
    rw [Position.advance, ih, hcount, hlast, if_neg (Nat.succ_ne_zero _), Position.nextLine, hstart]
    simp only [Position.mk.injEq, and_true]
    omega
  | case5 p c r hcrlf hcr hlf ih =>
    have hc : c ≠ '\r' ∧ c ≠ '\n' := ⟨hcr, hlf⟩
    have hcount : newlineCount (c :: r) = newlineCount r := by
      simp [newlineCount_cons, endsNewline_of_ne hc]
    rw [Position.advance.eq_5 p c r hcrlf hcr hlf, ih, hcount]
    split
    · simp only [List.length_cons, Position.mk.injEq, true_and]
      omega
    · rename_i hsome
      rw [lastLine_cons hsome]

/-- Moving on over two texts is moving on over both, if they do not part a CR LF. -/
theorem advance_append (p : Position) {a b : List Char} (h : a.getLast? = some '\r' → b.head? ≠ some '\n') :
    p.advance (a ++ b) = (p.advance a).advance b := by
  induction p, a using Position.advance.induct with
  | case1 p => rfl
  | case2 p r ih =>
    refine ih fun hlast => h ?_
    rw [List.getLast?_cons_cons, List.getLast?_cons, hlast]
    rfl
  | case3 p r hne ih =>
    -- a CR at the end of the first text may meet a line feed of the second, which is ruled out
    have hjoin : ∀ r', r ++ b ≠ '\n' :: r' := by
      intro r' heq
      cases r with
      | nil =>
        have hhead : b.head? = some '\n' := congrArg List.head? heq
        exact h rfl hhead
      | cons d r =>
        obtain ⟨rfl, -⟩ := List.cons.inj heq
        exact hne r rfl
    rw [List.cons_append, Position.advance.eq_3 p (r ++ b) hjoin, Position.advance.eq_3 p r hne]
    refine ih fun hlast => h ?_
    rw [List.getLast?_cons, hlast]
    rfl
  | case4 p r ih =>
    refine ih fun hlast => h ?_
    rw [List.getLast?_cons, hlast]
    rfl
  | case5 p c r hcrlf hcr hlf ih =>
    have hcrlf' : ∀ r', c = '\r' → r ++ b = '\n' :: r' → False := fun r' hc => absurd hc hcr
    rw [List.cons_append, Position.advance.eq_5 p c (r ++ b) hcrlf' hcr hlf, Position.advance.eq_5 p c r hcrlf hcr hlf]
    refine ih fun hlast => h ?_
    rw [List.getLast?_cons, hlast]
    rfl

/-! ## Between two tokens -/

theorem Enclosed.getLast? {opening closing text behind : List Char} (h : Enclosed opening closing text behind)
    (hne : closing ≠ []) : text.getLast? = closing.getLast? := by
  obtain ⟨inside, rfl, -⟩ := h
  exact List.getLast?_append_of_ne_nil _ hne

/-- No lexeme ends between the two characters of a CR LF. -/
theorem Form.keeps_newline {k : Kind} {text behind : List Char} (h : Form k text behind)
    (hlast : text.getLast? = some '\r') : behind.head? ≠ some '\n' := by
  -- Only a newline and a blank run can end with a CR, and both take the LF behind it.
  induction h with
  | crlf => simp at hlast
  | cr hbehind => exact hbehind
  | lf => simp at hlast
  | blankRun hne hblanks hbehind =>
    have hblank := hblanks '\r' (List.mem_of_getLast? hlast)
    contradiction
  | @blankLine blanks newline behind hne hblanks hnewline ih =>
    refine ih ?_
    have hnl : newline ≠ [] := by
      cases hnewline <;> exact List.cons_ne_nil _ _
    rwa [List.getLast?_append_of_ne_nil _ hnl] at hlast
  | block htext hbehind =>
    rw [htext.getLast? (List.cons_ne_nil _ _)] at hlast
    simp at hlast
  | @recordedBlock text recorded behind htext hrecorded =>
    have hlast' := hrecorded.getLast? (List.cons_ne_nil _ _)
    have hne : recorded ≠ [] := by
      rintro rfl
      simp at hlast'
    rw [List.getLast?_append_of_ne_nil _ hne, hlast'] at hlast
    simp at hlast
  | @reference c name behind hc hname hbehind =>
    have hmem := List.mem_of_getLast? hlast
    rcases List.mem_cons.1 hmem with hdollar | hmem
    · exact absurd hdollar (by decide)
    · rcases List.mem_cons.1 hmem with rfl | hmem
      · exact absurd rfl (ne_newline_of_isNameRest (isNameRest_of_isNameStart hc)).2
      · exact absurd rfl (ne_newline_of_isNameRest (hname _ hmem)).2
  | commandMarker => simp at hlast
  | comment htext =>
    rw [htext.getLast? (List.cons_ne_nil _ _)] at hlast
    simp at hlast

theorem nextLexeme_keeps_newline {c : Char} {r : List Char} (hlast : (nextLexeme c r).text.getLast? = some '\r') :
    (nextLexeme c r).rest.head? ≠ some '\n' := by
  cases h : lexeme? (c :: r) with
  | some l =>
    have hnext : nextLexeme c r = l := by rw [nextLexeme, h]
    obtain ⟨-, earlier, later, -, hform, -⟩ := lexeme?_eq_some_iff.1 h
    rw [hnext] at hlast ⊢
    exact hform.keeps_newline hlast
  | none =>
    -- No character of a literal is a CR, since a newline would begin with it.
    rw [nextLexeme_of_none h] at hlast
    obtain ⟨init, hinit⟩ := List.getLast?_eq_some_iff.1 hlast
    have hplain := literalRun_noLexeme hinit
    exact absurd rfl (isOutputBlank_eq_false_iff.1 hplain.not_blank).2.1

/-- A token stands where the text in front of it ends. -/
theorem place_lexemes {p : Position} {cs : List Char} {front back : List Token} {t : Token}
    (h : place p ((lexemes cs).map (·.text)) = front ++ t :: back) : t.place = p.advance (textOf front).toList := by
  induction front generalizing p cs with
  | nil =>
    cases cs with
    | nil =>
      rw [lexemes] at h
      contradiction
    | cons c r =>
      rw [lexemes_cons] at h
      obtain ⟨rfl, -⟩ := List.cons.inj h
      rfl
  | cons t₀ front ih =>
    cases cs with
    | nil =>
      rw [lexemes] at h
      contradiction
    | cons c r =>
      rw [lexemes_cons] at h
      obtain ⟨rfl, hrest⟩ := List.cons.inj h
      rw [List.append_eq] at hrest
      have htext : (nextLexeme c r).rest = (textOf front).toList ++ (textOf (t :: back)).toList := by
        have hflatten := congrArg (fun ts => (ts.map (·.text.toList)).flatten) hrest
        dsimp only at hflatten
        rw [place_texts, flatten_lexemes, List.map_append, List.flatten_append] at hflatten
        rw [toList_textOf, toList_textOf]
        exact hflatten
      -- no lexeme ends within a CR LF, so positions add up
      have hkeeps : (nextLexeme c r).text.getLast? = some '\r' → (textOf front).toList.head? ≠ some '\n' := by
        intro hlast hhead
        refine nextLexeme_keeps_newline hlast ?_
        rw [htext, List.head?_append, hhead]
        rfl
      rw [ih hrest, ← advance_append p hkeeps]
      congr 1
      rw [toList_textOf, toList_textOf, List.map_cons, List.flatten_cons, String.toList_ofList]

/-- A token stands on the line that the newlines in front of it make, in the column behind the last of them: in front
of it is the text of the tokens before it, with every newline inside of them. -/
theorem tokens_place (src : String) (front back : List Token) (t : Token) (h : tokens src = front ++ t :: back) :
    src = textOf front ++ t.text ++ textOf back ∧
    t.place.line = 1 + newlineCount (textOf front).toList ∧
    t.place.column = 1 + (lastLine (textOf front).toList).length := by
  have hplace : t.place = Position.start.advance (textOf front).toList := place_lexemes h
  refine ⟨?_, ?_, ?_⟩
  · have hsrc := textOf_tokens src
    rw [h] at hsrc
    rw [← hsrc, ← String.toList_inj]
    simp only [toList_textOf, String.toList_append, List.map_append, List.map_cons, List.flatten_append,
      List.flatten_cons, List.append_assoc]
  · rw [hplace, advance_eq]
    rfl
  · rw [hplace, advance_eq]
    dsimp only [Position.start]
    split
    · rename_i hnone
      rw [lastLine_eq_self hnone]
    · rfl

/-- Newlines inside of a comment, of a blank run and of a block with its recorded result all count. -/
theorem tokens_place_mixed_newlines :
    let front : List Token := [⟨"#\x7b a\r\n b \x7d#", ⟨1, 1⟩⟩, ⟨"\r", ⟨2, 6⟩⟩, ⟨"  \r\n", ⟨3, 1⟩⟩,
      ⟨"$\x7b f(\n) \x7d$~\x7b\n\x7d~", ⟨4, 1⟩⟩, ⟨"  ", ⟨6, 3⟩⟩]
    tokens (textOf front ++ "$x") = front ++ [⟨"$x", ⟨6, 5⟩⟩] ∧
      6 = 1 + newlineCount (textOf front).toList ∧ 5 = 1 + (lastLine (textOf front).toList).length := by
  intro front
  have h : tokens (textOf front ++ "$x") = front ++ [⟨"$x", ⟨6, 5⟩⟩] := by decide +kernel
  exact ⟨h, (tokens_place _ front [] _ h).2⟩

/-! ## Further down -/

/-- The place that is some lines further down. -/
def Position.down (p : Position) (n : Nat) : Position := ⟨p.line + n, p.column⟩

/-- The token some lines further down. -/
def Token.down (n : Nat) (t : Token) : Token := ⟨t.text, t.place.down n⟩

theorem advance_down (p : Position) (n : Nat) (cs : List Char) : (p.down n).advance cs = (p.advance cs).down n := by
  rw [advance_eq, advance_eq, Position.down, Position.down]
  simp only [Position.mk.injEq, and_true]
  omega

theorem place_down (p : Position) (n : Nat) (ts : List (List Char)) :
    place (p.down n) ts = (place p ts).map (.down n) := by
  induction ts generalizing p with
  | nil => rfl
  | cons t ts ih =>
    rw [place, place, List.map_cons, advance_down, ih]
    rfl

theorem place_append (p : Position) (a b : List (List Char)) :
    place p (a ++ b) = place p a ++ place (a.foldl Position.advance p) b := by
  induction a generalizing p with
  | nil => rfl
  | cons t a ih => rw [List.cons_append, place, place, ih, List.foldl_cons, List.cons_append]

/-- Moving on over the lexemes of a text is moving on over the text. -/
theorem foldl_advance_lexemes (p : Position) (cs : List Char) :
    ((lexemes cs).map (·.text)).foldl Position.advance p = p.advance cs := by
  induction cs using lexemes.induct generalizing p with
  | case1 =>
    rw [lexemes]
    rfl
  | case2 c r ih =>
    rw [lexemes_cons, List.map_cons, List.foldl_cons, ih, ← advance_append p nextLexeme_keeps_newline,
      nextLexeme_append]

end Conformance.Script
