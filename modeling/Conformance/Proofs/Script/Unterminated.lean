import Conformance.Proofs.Script.Grammar
import Conformance.Proofs.Script.SyntaxFaults

/-!
# Blocks without an end

A block that is opened and has no end anywhere in the script is not a block, and what opens it is left to a literal. The
other way round, a literal opens a block only where no end follows, since otherwise a lexeme would begin inside it
(`not_closed_of_literal`). So whether a block has an end can be told from the text of one token, and the fault that a
run ends with there is neither wrong nor missing (`unterminated_blocks_exact`).
-/
namespace Conformance.Script

open Text

variable {x r cs a b : List Char} {c : Char} {src : String} {t : Token} {front back : List Token}

/-! ## Places in tokens -/

theorem toList_textOf_cons (t : Token) (ts : List Token) :
    (textOf (t :: ts)).toList = t.text.toList ++ (textOf ts).toList := by
  rw [toList_textOf, toList_textOf, List.map_cons, List.flatten_cons]

/-- Each character of the text of tokens stands in one of them. -/
theorem exists_token_at {ts : List Token} (h : (textOf ts).toList = a ++ c :: b) :
    ∃ front t back x r, ts = front ++ t :: back ∧ a = (textOf front).toList ++ x ∧ t.text.toList = x ++ c :: r ∧
      b = r ++ (textOf back).toList := by
  induction ts generalizing a with
  | nil => simp [toList_textOf] at h
  | cons t ts ih =>
    rw [toList_textOf_cons] at h
    -- The character stands in the first token, or behind a part of the rest.
    have hcases : (∃ r, t.text.toList = a ++ c :: r ∧ b = r ++ (textOf ts).toList) ∨
        ∃ a', a = t.text.toList ++ a' ∧ (textOf ts).toList = a' ++ c :: b := by
      rcases List.append_eq_append_iff.1 h with ⟨z, ha, hz⟩ | ⟨z, ht, hz⟩
      · exact .inr ⟨z, ha, hz⟩
      · cases z with
        | nil => exact .inr ⟨[], by rw [ht]; simp, hz.symm⟩
        | cons d r =>
          obtain ⟨rfl, hb⟩ := List.cons.inj hz
          exact .inl ⟨r, ht, hb⟩
    rcases hcases with ⟨r, ht, hb⟩ | ⟨a', rfl, hrest⟩
    · exact ⟨[], t, ts, a, r, rfl, by simp [toList_textOf], ht, hb⟩
    · obtain ⟨front, u, back, x, r, rfl, rfl, hu, hb⟩ := ih hrest
      exact ⟨t :: front, u, back, x, r, rfl, by rw [toList_textOf_cons, List.append_assoc], hu, hb⟩

/-! ## Inside literals -/

/-- What the tokens of a division make up is the text that is divided. -/
theorem Scan.flatten {ts : List (Kind × List Char)} (h : Scan cs ts) : (ts.map (·.2)).flatten = cs := by
  rw [h.eq_labels, labels, List.map_map]
  exact flatten_lexemes cs

/-- No lexeme begins inside a literal, with all that stands behind it. -/
theorem Scan.plain {ts front back : List (Kind × List Char)} {text : List Char} (h : Scan cs ts)
    (hts : ts = front ++ (.literal, text) :: back) (htext : text = x ++ c :: r) :
    Plain (c :: (r ++ (back.map (·.2)).flatten)) := by
  induction h generalizing front with
  | nil => simp at hts
  | lexeme hbegins _ ih =>
    cases front with
    | nil =>
      -- No form is that of a literal.
      obtain ⟨hhead, -⟩ := List.cons.inj hts
      obtain ⟨rfl, -⟩ := Prod.mk.inj hhead
      obtain ⟨-, -, -, hform, -⟩ := hbegins
      cases hform
    | cons p front => exact ih (List.cons.inj hts).2
  | literal _ hinside _ hscan ih =>
    cases front with
    | nil =>
      obtain ⟨hhead, rfl⟩ := List.cons.inj hts
      obtain ⟨-, rfl⟩ := Prod.mk.inj hhead
      rw [hscan.flatten]
      exact hinside x c r htext
    | cons p front => exact ih (List.cons.inj hts).2

theorem plain_of_literal (htokens : tokens src = front ++ t :: back) (hk : t.kind = .literal)
    (htext : t.text.toList = x ++ c :: r) : Plain (c :: (r ++ (textOf back).toList)) := by
  have hscan := scan_lexemes src.toList
  rw [← tokens_labels, htokens, List.map_append, List.map_cons, hk] at hscan
  have hplain := hscan.plain rfl htext
  rw [List.map_map] at hplain
  rwa [toList_textOf]

/-- Where no lexeme begins, a block that is opened has no end. -/
theorem not_closed_of_plain (h : Plain ('$' :: '\x7b' :: cs)) : ¬['\x7d', '$'] <:+: cs := by
  have hfirst : NoLexeme ('$' :: '\x7b' :: cs ++ []) := by
    rw [List.append_nil]
    exact lexeme?_eq_none_iff.1 (plain_iff.1 h)
  have hnone := hfirst.not_expression
  rintro ⟨x, y, rfl⟩
  rw [List.append_assoc] at hnone
  exact Bool.false_ne_true (hnone.symm.trans (isSome_breakOn?_append _ x y))

/-- Nowhere behind a literal that opens a block, nor in the rest of it, is the end of the block. -/
theorem not_closed_of_literal (htokens : tokens src = front ++ t :: back) (hk : t.kind = .literal)
    (htext : t.text.toList = x ++ ['$', '\x7b'] ++ r) : ¬['\x7d', '$'] <:+: r ++ (textOf back).toList := by
  rw [List.append_assoc] at htext
  exact not_closed_of_plain (plain_of_literal htokens hk htext)

/-! ## Outside literals -/

theorem Form.blank {k : Kind} {text behind : List Char} (h : Form k text behind) (hk : k = .newline ∨ k = .whitespace) :
    ∀ c ∈ text, isOutputBlank c = true := by
  rcases hk with rfl | rfl
  · exact (newline?_kind (newline?_eq_some_iff.2 ⟨rfl, h⟩)).2
  · exact (blankRun?_kind (blankRun?_eq_some_iff.2 ⟨rfl, h⟩)).2

/-- A dollar is part of a block or of a comment, or it begins a reference. -/
theorem Form.of_dollar {k : Kind} {behind : List Char} (h : Form k (x ++ '$' :: r) behind) :
    k = .expression ∨ k = .comment ∨ ∃ c name, r = c :: name ∧ isNameStart c = true := by
  have hmem : '$' ∈ x ++ '$' :: r := List.mem_append_right _ List.mem_cons_self
  generalize htext : x ++ '$' :: r = text at h hmem
  cases k with
  | newline => exact absurd (h.blank (.inl rfl) _ hmem) (by decide)
  | whitespace => exact absurd (h.blank (.inr rfl) _ hmem) (by decide)
  | expression => exact .inl rfl
  | comment => exact .inr (.inl rfl)
  | literal => cases h
  | commandMarker =>
    cases h
    exact absurd hmem (by decide)
  | reference =>
    cases h with
    | @reference c name _ hc hname _ =>
      cases x with
      | nil => exact .inr (.inr ⟨c, name, (List.cons.inj htext).2, hc⟩)
      | cons d x =>
        -- No character of a name is a dollar.
        have hdollar : '$' ∈ c :: name := by
          rw [← (List.cons.inj htext).2]
          exact List.mem_append_right _ List.mem_cons_self
        have hrest : isNameRest '$' = true := by
          rcases List.mem_cons.1 hdollar with rfl | hdollar
          · exact isNameRest_of_isNameStart hc
          · exact hname _ hdollar
        exact absurd hrest (by decide)

theorem Form.head?_ne_brace {k : Kind} {text behind : List Char} (h : Form k text behind) :
    text.head? ≠ some '\x7b' := by
  intro hhead
  obtain ⟨r, rfl⟩ := List.head?_eq_some_iff.1 hhead
  generalize htext : '\x7b' :: r = text at h
  -- each kind begins with a character of its own
  cases k with
  | newline => exact absurd (h.blank (.inl rfl) '\x7b' (htext ▸ List.mem_cons_self)) (by decide)
  | whitespace => exact absurd (h.blank (.inr rfl) '\x7b' (htext ▸ List.mem_cons_self)) (by decide)
  | literal => cases h
  | commandMarker =>
    cases h
    exact absurd (List.cons.inj htext).1 (by decide)
  | reference =>
    cases h
    exact absurd (List.cons.inj htext).1 (by decide)
  | comment =>
    cases h with
    | comment henclosed =>
      obtain ⟨inside, rfl, -⟩ := henclosed
      exact absurd (List.cons.inj htext).1 (by decide)
  | expression =>
    cases h with
    | block henclosed =>
      obtain ⟨inside, rfl, -⟩ := henclosed
      exact absurd (List.cons.inj htext).1 (by decide)
    | recordedBlock henclosed =>
      obtain ⟨inside, rfl, -⟩ := henclosed
      exact absurd (List.cons.inj htext).1 (by decide)

/-- Behind a literal that ends with a dollar, no brace follows. -/
theorem textOf_ne_of_literal {ts : List Token} (htokens : tokens src = front ++ t :: ts) (hk : t.kind = .literal) :
    (textOf ts).toList ≠ '\x7b' :: b := by
  intro hts
  cases ts with
  | nil => simp [toList_textOf] at hts
  | cons u ts =>
    have hmem : u ∈ tokens src := by simp [htokens]
    -- The next token is no literal, and no other token begins with a brace.
    have hchain := isChain_tokens src
    rw [htokens] at hchain
    have hku : u.kind ≠ .literal :=
      (List.isChain_cons_cons.1 (List.isChain_append.1 hchain).2.1).1 hk
    obtain ⟨behind, hform⟩ := form_of_mem_tokens hmem hku
    obtain ⟨l, -, hl, -, hne⟩ := exists_lexeme hmem
    rw [toList_textOf_cons] at hts
    cases htext : u.text.toList with
    | nil => exact hne (hl.symm.trans htext)
    | cons d r =>
      rw [htext, List.cons_append] at hts
      refine hform.head?_ne_brace ?_
      rw [htext, (List.cons.inj hts).1]
      rfl

/-- The token that holds the dollar of an opening is a block or a comment, or a literal that holds the brace as well. -/
theorem opening_cases (htokens : tokens src = front ++ t :: back) (htext : t.text.toList = x ++ '$' :: r)
    (hbehind : r ++ (textOf back).toList = '\x7b' :: b) :
    t.kind = .expression ∨ t.kind = .comment ∨ t.kind = .literal ∧ ∃ y, r = '\x7b' :: y := by
  by_cases hk : t.kind = .literal
  · cases r with
    | nil => exact absurd hbehind (textOf_ne_of_literal htokens hk)
    | cons d y => exact .inr (.inr ⟨hk, y, by rw [(List.cons.inj hbehind).1]⟩)
  · have hmem : t ∈ tokens src := htokens ▸ List.mem_append_right _ List.mem_cons_self
    obtain ⟨behind, hform⟩ := form_of_mem_tokens hmem hk
    rw [htext] at hform
    rcases hform.of_dollar with hk | hk | ⟨c, name, rfl, hc⟩
    · exact .inl hk
    · exact .inr (.inl hk)
    · obtain rfl := (List.cons.inj hbehind).1
      exact absurd hc (by decide)

/-! ## Runs -/

/-- A run that comes to a literal that opens a block ends there. -/
theorem runScript_of_opens {σ : Type} (link : Link σ) (file : String) (htokens : tokens src = front ++ t :: back)
    (hk : t.kind = .literal) (hopens : occurs ['$', '\x7b'] t.text.toList = true) :
    runScript link file src =
      runTokens link file none front >>= fun _ => throw (Site.syntaxFault ⟨file, t.place⟩ unterminated) := by
  rw [runScript_eq, htokens, runTokens_append, bind_assoc]
  refine congrArg _ (funext fun line => ?_)
  rw [runTokens, step_of_opens link file line hk hopens]
  rfl

theorem occurs_of_split {pat : List Char} (h : cs = x ++ pat ++ r) : occurs pat cs = true := by
  rw [h, List.append_assoc]
  exact isSome_breakOn?_append pat x r

/-- Blocks without an end are found, and nothing else is taken for one.

A literal opens a block only if the end of a block occurs nowhere behind the opening. Wherever a script opens a block,
the token that holds the dollar is a block or a comment, or it is a literal that holds the whole opening, and no end
follows. A run that comes to such a literal has done what the tokens in front of it say, and ends with the fault at the
place of the literal; a run ends with this fault only so. -/
theorem unterminated_blocks_exact (src : String) :
    (∀ front t back x y, tokens src = front ++ t :: back → t.kind = .literal →
      t.text.toList = x ++ ['$', '\x7b'] ++ y → ¬['\x7d', '$'] <:+: y ++ (textOf back).toList) ∧
    (∀ a b, src.toList = a ++ ['$', '\x7b'] ++ b →
      ∃ front t back x r, tokens src = front ++ t :: back ∧ a = (textOf front).toList ++ x ∧
        t.text.toList = x ++ '$' :: r ∧
        (t.kind = .expression ∨ t.kind = .comment ∨
          t.kind = .literal ∧ (∃ y, r = '\x7b' :: y ∧ b = y ++ (textOf back).toList) ∧ ¬['\x7d', '$'] <:+: b)) ∧
    (∀ {σ : Type} (link : Link σ) (file : String) front t back x y, tokens src = front ++ t :: back →
      t.kind = .literal → t.text.toList = x ++ ['$', '\x7b'] ++ y →
      runScript link file src =
        runTokens link file none front >>= fun _ => throw (Site.syntaxFault ⟨file, t.place⟩ unterminated)) ∧
    ∀ {σ : Type} (link : Link σ) (file : String) (s s' : Session σ) (f : String) (line column : Nat),
      (runScript link file src).run s = .error (.scriptSyntax f line column unterminated) s' →
      f = file ∧ ∃ front t back x y command, tokens src = front ++ t :: back ∧ t.kind = .literal ∧
        t.place = ⟨line, column⟩ ∧ t.text.toList = x ++ ['$', '\x7b'] ++ y ∧
        (¬['\x7d', '$'] <:+: y ++ (textOf back).toList) ∧ (runTokens link file none front).run s = .ok command s' := by
  refine ⟨fun front t back x y htokens hk htext => not_closed_of_literal htokens hk htext, fun a b hsrc => ?_,
    fun link file front t back x y htokens hk htext => ?_, ?_⟩
  · rw [List.append_assoc, ← textOf_tokens src] at hsrc
    obtain ⟨front, t, back, x, r, htokens, ha, htext, hbehind⟩ := exists_token_at hsrc
    refine ⟨front, t, back, x, r, htokens, ha, htext, ?_⟩
    refine (opening_cases htokens htext hbehind.symm).imp_right (Or.imp_right ?_)
    rintro ⟨hk, y, rfl⟩
    obtain rfl : b = y ++ (textOf back).toList := (List.cons.inj hbehind).2
    exact ⟨hk, ⟨y, rfl, rfl⟩, not_closed_of_plain (plain_of_literal htokens hk htext)⟩
  · exact runScript_of_opens link file htokens hk (occurs_of_split htext)
  · intro σ link file s s' f line column hrun
    have hmessage : ∀ p : Expr.Problem, p.message ≠ unterminated := fun p => (problem_message_ne p).1
    obtain ⟨front, t, back, command, htokens, hk, hopens, hfault, hfront⟩ :=
      runScript_error hmessage hrun (.scriptSyntax f line column)
    obtain ⟨hf, hplace⟩ : f = file ∧ t.place = ⟨line, column⟩ := by
      injection hfault with hf hline hcolumn
      exact ⟨hf, by rw [hline, hcolumn]⟩
    obtain ⟨⟨x, y⟩, hbreak⟩ := Option.isSome_iff_exists.1 hopens
    have htext := eq_of_breakOn?_eq_some hbreak
    have hclosed := not_closed_of_literal htokens hk htext
    exact ⟨hf, front, t, back, x, y, command, htokens, hk, hplace, htext, hclosed, hfront⟩

/-- An opening behind a block that has an end. -/
theorem unterminated_blocks_exact_behind_block :
    tokens "$\x7ba\x7d$b$\x7bc" = [⟨"$\x7ba\x7d$", ⟨1, 1⟩⟩] ++ ⟨"b$\x7bc", ⟨1, 6⟩⟩ :: [] ∧
      (⟨"b$\x7bc", ⟨1, 6⟩⟩ : Token).kind = .literal ∧ ¬['\x7d', '$'] <:+: ['c'] ++ (textOf []).toList ∧
      runScript (⟨fun _ _ state => (.ok "", state)⟩ : Link Unit) "a.btstest" "$\x7ba\x7d$b$\x7bc" =
        runTokens ⟨fun _ _ state => (.ok "", state)⟩ "a.btstest" none [⟨"$\x7ba\x7d$", ⟨1, 1⟩⟩] >>= fun _ =>
          throw (.scriptSyntax "a.btstest" 1 6 unterminated) := by
  have htokens : tokens "$\x7ba\x7d$b$\x7bc" = [⟨"$\x7ba\x7d$", ⟨1, 1⟩⟩] ++ ⟨"b$\x7bc", ⟨1, 6⟩⟩ :: [] := by
    decide +kernel
  have hk : (⟨"b$\x7bc", ⟨1, 6⟩⟩ : Token).kind = .literal := by decide +kernel
  have htext : (⟨"b$\x7bc", ⟨1, 6⟩⟩ : Token).text.toList = ['b'] ++ ['$', '\x7b'] ++ ['c'] := by decide +kernel
  obtain ⟨hclosed, -, hrun, -⟩ := unterminated_blocks_exact "$\x7ba\x7d$b$\x7bc"
  exact ⟨htokens, hk, hclosed _ _ _ _ _ htokens hk htext, hrun _ _ _ _ _ _ _ htokens hk htext⟩

end Conformance.Script
