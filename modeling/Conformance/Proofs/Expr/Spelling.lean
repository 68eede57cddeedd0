import Mathlib.Data.List.Chain
import Conformance.Proofs.Expr.Names
import Conformance.Proofs.Text.Decimal

/-!
# Writing tokens

A list of tokens that is written down is read back. Integers are written in decimal, strings in either kind of quote with
backslashes in front of what would end or change them, and separators as semicolons or newlines. A space stands between
two tokens only where they would run together: two names, two integers, a name and an integer behind it, and `=` or `!`
in front of an operator that begins with `=`.

* `Token.WrittenAs` says how a token is written, and `lex_written` that it is read back in front of everything that does
  not continue it (`Token.continuedBy`);
* `Token.runsInto` is the table of the tokens that run together; the first character of the second one continues the
  first (`WrittenAs.continuedBy_eq`);
* `lex_write_of_merge` says what becomes of two tokens that run together. No text is read as more tokens than have been
  written (`length_lex_write_le`), so they are never read back.
-/
namespace Conformance.Expr

open Text

variable {c quote : Char} {cs r rest : List Char} {t u : Token}

/-! ## How tokens are written -/

/-- The content of a string as it is written between quotes of this kind: a backslash stands in front of every backslash
and of every such quote. -/
def escaped (quote : Char) (s : List Char) : List Char :=
  s.flatMap fun c => if c = '\\' ∨ c = quote then ['\\', c] else [c]

namespace Token

/-- The characters write the token. Names are those that the lexer gives back (`isName_of_mem_lex`). -/
inductive WrittenAs : Token → List Char → Prop where
  | int {n : Nat} (h : n < Nat.pow 2 63) : WrittenAs (.int n) (Nat.toDigits 10 n)
  | str {quote : Char} (h : isQuote quote = true) (s : String) :
    WrittenAs (.str s) (quote :: (escaped quote s.toList ++ [quote]))
  | ident {name : String} (h : IsName name.toList) : WrittenAs (.ident name) name.toList
  | op (o : Op) : WrittenAs (.op o) o.text.toList
  | semicolon : WrittenAs .sep [';']
  | newline : WrittenAs .sep ['\n']

/-- Whether the token would go on with the character behind it. -/
def continuedBy : Token → Char → Bool
  | ident _, c => continuesName c
  | int _, c => c.isDigit
  | op o, c => (o = .assign || o = .not) && c = '='
  | str _, _ | sep, _ => false

/-- Whether the first token runs into the second one if no space stands between them. -/
def runsInto : Token → Token → Bool
  | ident _, ident _ | ident _, int _ | int _, int _ => true
  | op o, op p => (o = .assign || o = .not) && (p = .assign || p = .eq)
  | _, _ => false

end Token

open Token

/-! ## Reading one token -/

theorem isQuote_cases (h : isQuote quote = true) : quote = '"' ∨ quote = '\x27' := by
  simpa [isQuote] using h

theorem stringBody?_escaped (h : isQuote quote = true) (s rest : List Char) :
    stringBody? quote (escaped quote s ++ quote :: rest) = some (s, rest) := by
  have hquote : quote ≠ '\\' := by rcases isQuote_cases h with rfl | rfl <;> decide
  induction s with
  | nil => exact stringBody?_quote hquote rest
  | cons c s ih =>
    rw [escaped, List.flatMap_cons, ← escaped, List.append_assoc]
    by_cases hc : c = '\\' ∨ c = quote
    · have hsame : unescape c = c := by
        rcases isQuote_cases h with rfl | rfl <;> rcases hc with rfl | rfl <;> decide
      rw [if_pos hc, List.cons_append, List.singleton_append, stringBody?_escape, ih, hsame]
      rfl
    · rw [if_neg hc, List.singleton_append, stringBody?_cons (fun h => hc (.inl h)) (fun h => hc (.inr h)), ih]
      rfl

theorem step_string (h : isQuote quote = true) (s : String) (rest : List Char) :
    step quote (escaped quote s.toList ++ quote :: rest) = .ok (some (.str s), rest) := by
  rw [step_eq, opening_of_isQuote h]
  dsimp only
  rw [stringBody?_escaped h, Option.elim_some, String.ofList_toList]

/-- A digit begins an integer of all digits that follow, if that is in range. -/
theorem step_digit (hc : c.isDigit = true) (r : List Char) :
    step c r = ((nat? (c :: r.takeWhile Char.isDigit)).filter (· < Nat.pow 2 63)).elim
      (.error (.literalTooLarge (String.ofList (c :: r.takeWhile Char.isDigit))))
      fun n => .ok (some (.int n), r.dropWhile Char.isDigit) := by
  rw [step_eq, opening_of_isDigit hc]

theorem exists_of_step_digit (hc : c.isDigit = true) {t : Option Token} (h : step c r = .ok (t, rest)) :
    ∃ n, t = some (.int n) ∧ rest = r.dropWhile Char.isDigit := by
  rw [step_digit hc] at h
  cases hn : (nat? (c :: r.takeWhile Char.isDigit)).filter (· < Nat.pow 2 63) with
  | none =>
    rw [hn] at h
    cases h
  | some n =>
    rw [hn] at h
    cases h
    exact ⟨n, rfl, rfl⟩

/-- An operator is looked for at a character that one begins with. -/
theorem step_operator {o p : Op} (hc : o.text.toList.head? = some c) (h : operator? (c :: r) = some (p, rest)) :
    step c r = .ok (some (.op p), rest) := by
  rw [step_eq, opening_of_operator hc]
  dsimp only
  rw [h]
  rfl

theorem operator?_append {o : Op} (h : ∀ c ∈ rest.head?, (Token.op o).continuedBy c = false) :
    operator? (o.text.toList ++ rest) = some (o, rest) := by
  -- only the two operators that others begin with depend on what follows
  have hequals : o = .assign ∨ o = .not → ∀ c ∈ rest.head?, c ≠ '=' := by
    intro ho c hc
    have hc := h c hc
    rcases ho with rfl | rfl <;> simpa [continuedBy] using hc
  cases o with
  | assign =>
    cases rest with
    | nil => rfl
    | cons c rest =>
      have hc : ¬ '=' = c := (hequals (.inl rfl) c rfl).symm
      simp [operator?, operators, Op.text, dropPrefix?, hc]
  | not =>
    cases rest with
    | nil => rfl
    | cons c rest =>
      have hc : ¬ '=' = c := (hequals (.inr rfl) c rfl).symm
      simp [operator?, operators, Op.text, dropPrefix?, hc]
  | eq | ne | plus | minus | times | divide | rem | lparen | rparen | lbracket | rbracket | comma => rfl

/-- A token that is written in front of something that does not continue it is read back. -/
theorem lex_written {cs : List Char} (h : t.WrittenAs cs) (hrest : ∀ c ∈ rest.head?, t.continuedBy c = false) :
    lex (cs ++ rest) = (lex rest).map (t :: ·) := by
  cases h with
  | @int n hn =>
    obtain ⟨c, r, hdigits, hc, hr⟩ := toDigits_eq_cons n
    obtain ⟨htake, hdrop⟩ := takeWhile_dropWhile_iff.2 ⟨rfl, hr, hrest⟩
    have hvalue : (nat? (c :: (r ++ rest).takeWhile Char.isDigit)).filter (· < Nat.pow 2 63) = some n := by
      rw [htake, ← hdigits, nat?, natIn?_toDigits]
      simp only [Option.filter_some, hn, decide_true, if_true]
    have hstep : step c (r ++ rest) = .ok (some (.int n), rest) := by
      rw [step_digit hc, hvalue, hdrop]
      rfl
    rw [hdigits, List.cons_append, lex_of_ok hstep]
    rfl
  | str hquote s =>
    rw [List.cons_append, List.append_assoc, List.singleton_append, lex_of_ok (step_string hquote s rest)]
    rfl
  | ident hname => exact hname.lex_append hrest
  | op o =>
    have hoperator := operator?_append hrest
    obtain ⟨c, r, hcr⟩ : ∃ c r, o.text.toList = c :: r := by cases o <;> exact ⟨_, _, rfl⟩
    rw [hcr, List.cons_append] at hoperator ⊢
    rw [lex_of_ok (step_operator (congrArg List.head? hcr) hoperator)]
    rfl
  | semicolon => exact lex_of_ok (rfl : step ';' rest = .ok (some .sep, rest))
  | newline => exact lex_lf rest

/-! ## What runs together -/

theorem continuesName_of_isDigit (h : c.isDigit = true) : continuesName c = true := by
  have hascii : c.toNat < 0x80 := Nat.lt_of_le_of_lt (toNat_of_isDigit h).2 (by decide)
  simp [continuesName, isAlphanumeric, isNumeric, hascii, h]

theorem OpensName.continuesName (h : OpensName c) : continuesName c = true := by
  have hbegins := h.begins
  simp only [beginsName, Bool.or_eq_true] at hbegins
  simp only [Expr.continuesName, isAlphanumeric, Bool.or_eq_true]
  exact hbegins.imp_left .inl

/-- The first character of a token continues exactly the tokens that run into it. -/
theorem Token.WrittenAs.continuedBy_eq {cs : List Char} (h : u.WrittenAs cs) :
    ∃ c r, cs = c :: r ∧ ∀ t : Token, t.continuedBy c = t.runsInto u := by
  cases h with
  | @int n hn =>
    obtain ⟨c, r, hdigits, hc⟩ := head_toDigits n
    have hequals : c ≠ '=' := by
      rintro rfl
      cases hc
    refine ⟨c, r, hdigits, fun t => ?_⟩
    cases t <;> simp [continuedBy, runsInto, hc, continuesName_of_isDigit hc, hequals]
  | @str quote hquote s =>
    have hplain : continuesName quote = false ∧ quote.isDigit = false ∧ quote ≠ '=' := by
      rcases isQuote_cases hquote with rfl | rfl <;> decide +kernel
    refine ⟨quote, _, rfl, fun t => ?_⟩
    cases t <;> simp [continuedBy, runsInto, hplain]
  | ident hname =>
    obtain ⟨c, r, hname, hopens, -⟩ := hname
    have hequals : c ≠ '=' := by
      rintro rfl
      have hbegins : beginsName '=' = false := by decide +kernel
      cases hbegins.symm.trans hopens.begins
    refine ⟨c, r, hname, fun t => ?_⟩
    cases t <;> simp [continuedBy, runsInto, hopens.digit, hopens.continuesName, hequals]
  | op o =>
    -- no operator begins with what could go on a name or a number, and two begin with an equals sign
    obtain ⟨c, r, htext, hplain, hequals⟩ : ∃ c r, o.text.toList = c :: r ∧
        (continuesName c = false ∧ c.isDigit = false) ∧ decide (c = '=') = (o = .assign || o = .eq : Bool) := by
      cases o <;> exact ⟨_, _, rfl, by decide +kernel⟩
    refine ⟨c, r, htext, fun t => ?_⟩
    cases t with
    | op p => exact congrArg ((p = .assign || p = .not : Bool) && ·) hequals
    | int n => exact hplain.2
    | ident name => exact hplain.1
    | str s => rfl
    | sep => rfl
  | semicolon =>
    have hplain : continuesName ';' = false := by decide +kernel
    refine ⟨';', [], rfl, fun t => ?_⟩
    cases t <;> simp [continuedBy, runsInto, hplain]
  | newline =>
    refine ⟨'\n', [], rfl, fun t => ?_⟩
    cases t <;> simp [continuedBy, runsInto, parting_lf.name]

/-! ## Writing all tokens -/

/-- A token, how it is written, and whether a space stands behind it. -/
structure Piece where
  token : Token
  text : List Char
  spaced : Bool
  written : token.WrittenAs text

/-- What stands between the token and the next one. -/
def Piece.gap (p : Piece) : List Char := if p.spaced then [' '] else []

/-- The text that the pieces make up. -/
def write (ps : List Piece) : List Char := ps.flatMap fun p => p.text ++ p.gap

variable {p q : Piece} {ps : List Piece}

theorem write_cons (p : Piece) (ps : List Piece) : write (p :: ps) = p.text ++ (p.gap ++ write ps) := by
  rw [write, List.flatMap_cons, List.append_assoc]
  rfl

theorem lex_gap (p : Piece) (cs : List Char) : lex (p.gap ++ cs) = lex cs := by
  rw [Piece.gap]
  split
  · exact lex_blank (by decide) (by decide) cs
  · rfl

theorem continuedBy_space (t : Token) : t.continuedBy ' ' = false := by
  have hparting : Parting ' ' := IsBreak.parting (.inr (.inr rfl))
  cases t <;> simp [continuedBy, hparting.name, hparting.digit]

/-- The piece does not run into the next one: a space stands between them, or none is needed. -/
def Piece.StandsApart (p : Piece) (ps : List Piece) : Prop :=
  p.spaced = true ∨ ∀ q ∈ ps.head?, ¬ p.token.runsInto q.token = true

theorem exists_of_not_standsApart (h : ¬ p.StandsApart ps) :
    ∃ q ps', ps = q :: ps' ∧ p.spaced = false ∧ p.token.runsInto q.token = true := by
  obtain ⟨hspaced, hruns⟩ := not_or.1 h
  cases ps with
  | nil => exact absurd (fun q hq => by cases hq) hruns
  | cons q ps' =>
    have hruns : p.token.runsInto q.token = true := by simpa using hruns
    exact ⟨q, ps', rfl, by simpa using hspaced, hruns⟩

/-- A piece that does not run into the next one is read back. -/
theorem lex_write_of_standsApart (h : p.StandsApart ps) :
    lex (write (p :: ps)) = (lex (write ps)).map (p.token :: ·) := by
  have hstop : ∀ c ∈ (p.gap ++ write ps).head?, p.token.continuedBy c = false := by
    intro c hc
    by_cases hspaced : p.spaced = true
    · rw [Piece.gap, if_pos hspaced] at hc
      obtain rfl : ' ' = c := Option.some.inj hc
      exact continuedBy_space p.token
    · rw [Piece.gap, if_neg hspaced, List.nil_append] at hc
      cases ps with
      | nil => cases hc
      | cons q ps =>
        obtain ⟨d, r, htext, hcontinued⟩ := q.written.continuedBy_eq
        rw [write_cons, htext] at hc
        obtain rfl : d = c := Option.some.inj hc
        rw [hcontinued, Bool.eq_false_iff]
        exact h.resolve_left hspaced q rfl
  rw [write_cons, lex_written p.written hstop, lex_gap]

theorem map_cons_eq_ok {x : Except Problem (List Token)} {ts : List Token} (h : x.map (t :: ·) = .ok ts) :
    ∃ ts', x = .ok ts' ∧ ts = t :: ts' := by
  cases x with
  | error e => cases h
  | ok ts' =>
    cases h
    exact ⟨ts', rfl, rfl⟩

/-! ## Tokens that run together -/

/-- Where a name or an integer goes on, it goes on to the end of a piece. -/
theorem lex_dropWhile_write (hwhole : ∀ q : Piece, t.runsInto q.token = true → ∀ c ∈ q.text, t.continuedBy c = true)
    (ps : List Piece) :
    ∃ ps', lex ((write ps).dropWhile t.continuedBy) = lex (write ps') ∧ ps'.length ≤ ps.length ∧
      ∀ q ∈ ps.head?, t.runsInto q.token = true → ps'.length < ps.length := by
  induction ps with
  | nil => exact ⟨[], rfl, Nat.le_refl _, fun q hq => by cases hq⟩
  | cons q ps ih =>
    rw [write_cons]
    by_cases hruns : t.runsInto q.token = true
    · rw [List.dropWhile_append_of_pos (hwhole q hruns)]
      obtain ⟨ps', hlex, hlength, -⟩ := ih
      by_cases hspaced : q.spaced = true
      · refine ⟨ps, ?_, Nat.le_succ _, fun _ _ _ => Nat.lt_succ_self _⟩
        have hspace : ¬ t.continuedBy ' ' = true := by simp [continuedBy_space]
        rw [Piece.gap, if_pos hspaced, List.singleton_append, List.dropWhile_cons_of_neg hspace]
        exact lex_blank (by decide) (by decide) _
      · refine ⟨ps', ?_, Nat.le_succ_of_le hlength, fun _ _ _ => Nat.lt_succ_of_le hlength⟩
        rw [Piece.gap, if_neg hspaced, List.nil_append, hlex]
    · refine ⟨q :: ps, ?_, Nat.le_refl _, fun q' hq' hruns' => ?_⟩
      · obtain ⟨c, r, htext, hcontinued⟩ := q.written.continuedBy_eq
        rw [write_cons, htext, List.cons_append, List.dropWhile_cons_of_neg (by rwa [hcontinued])]
      · obtain rfl := Option.some.inj hq'
        exact absurd hruns' hruns

theorem isDigit_of_runsInto (n : Nat) (q : Piece) (h : (Token.int n).runsInto q.token = true) :
    ∀ c ∈ q.text, (Token.int n).continuedBy c = true := by
  obtain ⟨token, text, spaced, written⟩ := q
  cases written with
  | int hn => exact isDigit_of_mem_toDigits
  | str | ident | op | semicolon | newline => cases h

theorem continuesName_of_runsInto (name : String) (q : Piece) (h : (Token.ident name).runsInto q.token = true) :
    ∀ c ∈ q.text, (Token.ident name).continuedBy c = true := by
  obtain ⟨token, text, spaced, written⟩ := q
  cases written with
  | int hn => exact fun c hc => continuesName_of_isDigit (isDigit_of_mem_toDigits c hc)
  | ident hname =>
    obtain ⟨c, r, hname, hopens, hr⟩ := hname
    dsimp only
    rw [hname]
    exact List.forall_mem_cons.2 ⟨hopens.continuesName, hr⟩
  | str | op | semicolon | newline => cases h

/-- What is read behind a first token. -/
theorem lex_eq_ok_of_step {ts : List Token} (hstep : step c r = .ok (some t, rest)) (h : lex (c :: r) = .ok ts) :
    ∃ ts', lex rest = .ok ts' ∧ ts = t :: ts' := by
  rw [lex_of_ok hstep] at h
  exact map_cons_eq_ok h

theorem runsInto_op_iff {o : Op} :
    (Token.op o).runsInto u = true ↔ (o = .assign ∨ o = .not) ∧ (u = .op .assign ∨ u = .op .eq) := by
  cases u <;> simp [runsInto]

/-- An operator that runs into another one is the beginning of a longer one. -/
theorem longer_operator {o : Op} (h : (Token.op o).runsInto u = true) :
    ∃ c m, o.text.toList = [c] ∧ m ≠ o ∧ ∀ rest, step c ('=' :: rest) = .ok (some (.op m), rest) := by
  rcases (runsInto_op_iff.1 h).1 with rfl | rfl
  · exact ⟨'=', .eq, rfl, by decide, fun rest => step_operator (o := .eq) rfl rfl⟩
  · exact ⟨'!', .ne, rfl, by decide, fun rest => step_operator (o := .ne) rfl rfl⟩

/-- Two tokens that run together are read as one, or as another one in front of what is left of the second. -/
theorem lex_write_of_merge {ts : List Token} (hspaced : p.spaced = false) (hruns : p.token.runsInto q.token = true)
    (h : lex (write (p :: q :: ps)) = .ok ts) :
    ∃ t ts' ps', ts = t :: ts' ∧ lex (write ps') = .ok ts' ∧
      (ps'.length ≤ ps.length ∨ ps'.length ≤ ps.length + 1 ∧ t ≠ p.token) := by
  rw [write_cons, Piece.gap, if_neg (by simp [hspaced]), List.nil_append] at h
  obtain ⟨token, text, spaced, written⟩ := p
  cases written with
  | @int n hn =>
    -- the digits of both are one number, and what is left of the second begins behind its last digit
    obtain ⟨c, r, hdigits, hc, hr⟩ := toDigits_eq_cons n
    obtain ⟨ps', hlex, -, hlength⟩ := lex_dropWhile_write (isDigit_of_runsInto n) (q :: ps)
    dsimp only at h
    rw [hdigits, List.cons_append] at h
    cases hstep : step c (r ++ write (q :: ps)) with
    | error e =>
      rw [lex_of_error hstep] at h
      cases h
    | ok found =>
      obtain ⟨m, ht, hrest⟩ := exists_of_step_digit hc hstep
      rw [List.dropWhile_append_of_pos hr] at hrest
      obtain ⟨ts', hts', rfl⟩ := lex_eq_ok_of_step (by rw [hstep, ← ht]) h
      rw [hrest] at hts'
      exact ⟨_, ts', ps', rfl, hlex.symm.trans hts', .inl (Nat.le_of_lt_succ (hlength q rfl hruns))⟩
  | @ident name hname =>
    obtain ⟨c, r, hcr, hopens, hr⟩ := hname
    obtain ⟨ps', hlex, -, hlength⟩ := lex_dropWhile_write (continuesName_of_runsInto name) (q :: ps)
    dsimp only at h
    rw [hcr, List.cons_append] at h
    obtain ⟨ts', hts', rfl⟩ := lex_eq_ok_of_step (hopens.step_eq _) h
    rw [List.dropWhile_append_of_pos hr] at hts'
    exact ⟨_, ts', ps', rfl, hlex.symm.trans hts', .inl (Nat.le_of_lt_succ (hlength q rfl hruns))⟩
  | op o =>
    obtain ⟨c, m, htext, hne, hstep⟩ := longer_operator hruns
    obtain ⟨token, text, spaced', written⟩ := q
    dsimp only at h
    rw [htext, write_cons, List.singleton_append] at h
    cases written with
    | op p =>
      rcases (runsInto_op_iff.1 hruns).2 with hp | hp
      · obtain rfl := Token.op.inj hp
        obtain ⟨ts', hts', rfl⟩ := lex_eq_ok_of_step (hstep _) h
        exact ⟨_, ts', ps, rfl, (lex_gap _ _).symm.trans hts', .inl (Nat.le_refl _)⟩
      · -- an equals sign is left of the second operator
        obtain rfl := Token.op.inj hp
        obtain ⟨ts', hts', rfl⟩ := lex_eq_ok_of_step (hstep _) h
        refine ⟨_, ts', ⟨.op .assign, ['='], spaced', .op .assign⟩ :: ps, rfl, ?_, .inr ⟨Nat.le_refl _, ?_⟩⟩
        · rw [write_cons]
          exact hts'
        · exact fun heq => hne (Token.op.inj heq)
    | int | str | ident | semicolon | newline => cases hruns
  | str | semicolon | newline => cases hruns

/-- No text is read as more tokens than have been written. -/
theorem length_lex_write_le {ts : List Token} (h : lex (write ps) = .ok ts) : ts.length ≤ ps.length := by
  induction hn : ps.length using Nat.strong_induction_on generalizing ps ts with
  | _ n ih =>
    subst hn
    cases ps with
    | nil =>
      rw [write, List.flatMap_nil, lex] at h
      cases h
      exact Nat.le_refl _
    | cons p ps =>
      by_cases hapart : p.StandsApart ps
      · rw [lex_write_of_standsApart hapart] at h
        obtain ⟨ts', hrest, rfl⟩ := map_cons_eq_ok h
        exact Nat.succ_le_succ (ih ps.length (Nat.lt_succ_self _) hrest rfl)
      · obtain ⟨q, ps, rfl, hspaced, hruns⟩ := exists_of_not_standsApart hapart
        obtain ⟨t, ts', ps', rfl, hrest, hlength⟩ := lex_write_of_merge hspaced hruns h
        have hle : ps'.length ≤ ps.length + 1 := by omega
        exact Nat.succ_le_succ ((ih ps'.length (Nat.lt_succ_of_le hle) hrest rfl).trans hle)

/-! ## Reading all tokens back -/

/-- No two neighbours run together: between those that would a space stands. -/
def Apart (ps : List Piece) : Prop :=
  ps.IsChain fun p q => p.spaced = true ∨ ¬ p.token.runsInto q.token = true

theorem apart_cons : Apart (p :: ps) ↔ p.StandsApart ps ∧ Apart ps := by
  have hhead : (∀ q ∈ ps.head?, p.spaced = true ∨ ¬ p.token.runsInto q.token = true) ↔ p.StandsApart ps := by
    rw [Piece.StandsApart]
    by_cases hspaced : p.spaced = true <;> simp [hspaced]
  rw [Apart, List.isChain_cons, hhead]
  rfl

theorem lex_write_of_apart (h : Apart ps) : lex (write ps) = .ok (ps.map Piece.token) := by
  induction ps with
  | nil => rw [write, List.flatMap_nil, lex, List.map_nil]
  | cons p ps ih =>
    obtain ⟨hfirst, hrest⟩ := apart_cons.1 h
    rw [lex_write_of_standsApart hfirst, ih hrest]
    rfl

theorem apart_of_lex_write (h : lex (write ps) = .ok (ps.map Piece.token)) : Apart ps := by
  induction ps with
  | nil => exact .nil
  | cons p ps ih =>
    by_cases hapart : p.StandsApart ps
    · rw [lex_write_of_standsApart hapart] at h
      obtain ⟨ts', hrest, heq⟩ := map_cons_eq_ok h
      obtain rfl : ps.map Piece.token = ts' := (List.cons.inj heq).2
      exact apart_cons.2 ⟨hapart, ih hrest⟩
    · -- what is read begins with another token, or has one token less
      obtain ⟨q, ps, rfl, hspaced, hruns⟩ := exists_of_not_standsApart hapart
      obtain ⟨t, ts', ps', heq, hrest, hlength⟩ := lex_write_of_merge hspaced hruns h
      obtain ⟨rfl, rfl⟩ := List.cons.inj heq
      have hle := length_lex_write_le hrest
      rw [List.length_map, List.length_cons] at hle
      rcases hlength with hlength | ⟨-, hne⟩
      · omega
      · exact absurd rfl hne

/-- Tokens that are written down are read back if a space stands between all neighbours, and exactly then if it is left
out at most between neighbours that do not run together. -/
theorem lex_write (ps : List Piece) :
    (ps.IsChain (fun p _ => p.spaced = true) → lex (write ps) = .ok (ps.map Piece.token)) ∧
      (lex (write ps) = .ok (ps.map Piece.token) ↔ Apart ps) :=
  ⟨fun hspaced => lex_write_of_apart (hspaced.imp fun _ _ h => .inl h), apart_of_lex_write, lex_write_of_apart⟩

/-- Only the two names need the space: the operators stand close to what is around them. -/
theorem lex_write_closely :
    ∃ ps : List Piece, write ps = "x y=-1;z!='it\\'s'".toList ∧ Apart ps ∧ lex "x y=-1;z!='it\\'s'".toList =
      .ok [.ident "x", .ident "y", .op .assign, .op .minus, .int 1, .sep, .ident "z", .op .ne, .str "it's"] := by
  have hname : ∀ c : Char, c = 'x' ∨ c = 'y' ∨ c = 'z' → (Token.ident (String.singleton c)).WrittenAs [c] := by
    intro c hc
    have hopens : OpensName c := by
      rcases hc with rfl | rfl | rfl <;> exact ⟨by decide, by decide, by decide, by decide +kernel⟩
    have hisName : IsName (String.singleton c).toList :=
      ⟨c, [], String.toList_singleton c, hopens, fun d hd => absurd hd List.not_mem_nil⟩
    exact String.toList_singleton c ▸ WrittenAs.ident hisName
  let ps : List Piece := [⟨.ident "x", ['x'], true, hname 'x' (by decide)⟩,
    ⟨.ident "y", ['y'], false, hname 'y' (by decide)⟩,
    ⟨.op .assign, ['='], false, .op .assign⟩, ⟨.op .minus, ['-'], false, .op .minus⟩,
    ⟨.int 1, ['1'], false, .int (by decide)⟩, ⟨.sep, [';'], false, .semicolon⟩,
    ⟨.ident "z", ['z'], false, hname 'z' (by decide)⟩, ⟨.op .ne, ['!', '='], false, .op .ne⟩,
    ⟨.str "it's", _, false, .str (rfl : isQuote '\x27' = true) "it's"⟩]
  have hapart : Apart ps := by simp [ps, Apart, runsInto]
  exact ⟨ps, rfl, hapart, (lex_write ps).2.2 hapart⟩

end Conformance.Expr
