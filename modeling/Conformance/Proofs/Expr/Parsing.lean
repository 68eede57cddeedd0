import Conformance.Proofs.Expr.Grammar

/-!
# The parser reads the grammar

What is a program by the grammar is read, and as the statements of its derivation, so that the parser accepts the
grammar and nothing else (`program_eq_ok_iff`).

The readers of one phrase call those of the next with less and less fuel, and an operand goes on behind its first part:
with operators of its level, or with calls and indices. `Parses` therefore says what comes out of an operand from what
comes out of going on behind it, and how much fuel that takes.
-/
namespace Conformance.Expr

variable {ts rest : List Token} {e : Tree} {p : Phrase} {name : String} {fuel level : Nat}

/-! ## The first token -/

/-- No phrase begins with a closing parenthesis, and only one that may have a sign begins with one. -/
def Begins (p : Phrase) (ts : List Token) : Prop :=
  ∃ t r, ts = t :: r ∧ t ≠ .op .rparen ∧ (p = .applied ∨ p = .primary → ∀ s : Sign, t ≠ .op s.op)

theorem begins_of_ne {t : Token} (hparen : t ≠ .op .rparen) (hsign : ∀ s : Sign, t ≠ .op s.op) (r : List Token) :
    Begins p (t :: r) :=
  ⟨t, r, rfl, hparen, fun _ => hsign⟩

theorem Begins.append (h : Begins p ts) (rest : List Token) : Begins p (ts ++ rest) := by
  obtain ⟨t, r, rfl, ht⟩ := h
  exact ⟨t, r ++ rest, rfl, ht⟩

theorem Begins.outer (h : Begins p.inner ts) : Begins p ts := by
  obtain ⟨t, r, rfl, hparen, hsign⟩ := h
  refine ⟨t, r, rfl, hparen, ?_⟩
  rintro (rfl | rfl)
  · exact hsign (.inr rfl)
  · exact hsign (.inr rfl)

theorem Begins.length_pos (h : Begins p ts) : 0 < ts.length := by
  obtain ⟨t, r, rfl, -⟩ := h
  exact Nat.succ_pos _

theorem begins_lparen (ts : List Token) : Begins p (.op .lparen :: ts) :=
  begins_of_ne (by decide) (fun s => by cases s <;> decide) ts

theorem begins_ident (name : String) : Begins p [.ident name] :=
  begins_of_ne Token.noConfusion (fun _ => Token.noConfusion) []

theorem Callee.begins (h : Callee ts name) : Begins p ts := by
  cases h with
  | name h => exact begins_ident name
  | parens h => exact begins_lparen _

theorem Writes.begins (h : Writes p ts e) : Begins p ts := by
  induction h with
  | inner h ih => exact ih.outer
  | binary o hp hl hr ihl ihr => exact ihl.append _
  | sign s h ih => exact ⟨_, _, rfl, by cases s <;> decide, by rintro (h | h) <;> cases h⟩
  | call h args hargs ih => exact h.begins.append _
  | index h hi ih ihi => exact ih.append _
  | int n => exact begins_of_ne Token.noConfusion (fun _ => Token.noConfusion) []
  | str s => exact begins_of_ne Token.noConfusion (fun _ => Token.noConfusion) []
  | true => exact begins_ident _
  | false => exact begins_ident _
  | null => exact begins_ident _
  | name h => exact begins_ident _
  | parens h ih => exact begins_lparen _

/-! ## Where an operand ends -/

/-- The tokens go on with an operand of the level: with a call, an index or an operator that binds as tightly. -/
def GoesOn (level : Nat) (ts : List Token) : Prop :=
  ∃ o r, ts = .op o :: r ∧ (o = .lparen ∨ o = .lbracket ∨ ∃ b, Binary.ofOp? o = some b ∧ level ≤ b.level)

theorem GoesOn.anti {level' : Nat} (h : GoesOn level' ts) (hle : level ≤ level') : GoesOn level ts := by
  obtain ⟨o, r, rfl, ho⟩ := h
  refine ⟨o, r, rfl, ho.imp_right (Or.imp_right ?_)⟩
  rintro ⟨b, hb, hlevel⟩
  exact ⟨b, hb, Nat.le_trans hle hlevel⟩

/-- An operator goes on with operands of its own level at most. -/
theorem not_goesOn_binary (o : Binary) (ts : List Token) : ¬ GoesOn (o.level + 1) (.op o.op :: ts) := by
  rintro ⟨_, _, heq, h⟩
  cases heq
  cases o <;> simp [Binary.op, Binary.ofOp?, Binary.level] at h

theorem not_goesOn_rparen (ts : List Token) : ¬ GoesOn level (.op .rparen :: ts) := by
  rintro ⟨_, _, heq, h⟩
  cases heq
  simp [Binary.ofOp?] at h

theorem not_goesOn_rbracket (ts : List Token) : ¬ GoesOn level (.op .rbracket :: ts) := by
  rintro ⟨_, _, heq, h⟩
  cases heq
  simp [Binary.ofOp?] at h

theorem not_goesOn_comma (ts : List Token) : ¬ GoesOn level (.op .comma :: ts) := by
  rintro ⟨_, _, heq, h⟩
  cases heq
  simp [Binary.ofOp?] at h

/-- The tokens are at their end, or a separator comes next. -/
def AtEnd (ts : List Token) : Prop := ts = [] ∨ ∃ r, ts = .sep :: r

theorem AtEnd.not_goesOn (h : AtEnd rest) : ¬ GoesOn level rest := by
  rintro ⟨_, _, rfl, -⟩
  rcases h with h | ⟨_, h⟩ <;> cases h

theorem chain_of_not_goesOn (h : ¬ GoesOn level rest) (e : Tree) (fuel : Nat) :
    chain (fuel + 1) level e rest = .ok (e, rest) := by
  unfold chain
  split
  next o r =>
    split
    next b hb =>
      obtain ⟨hb, hlevel⟩ := Option.filter_eq_some_iff.1 hb
      exact absurd ⟨o, r, rfl, .inr (.inr ⟨b, hb, Nat.le_of_eq (of_decide_eq_true hlevel).symm⟩)⟩ h
    next => rfl
  next => rfl

theorem suffixes_of_not_goesOn (h : ¬ GoesOn level rest) (e : Tree) (fuel : Nat) :
    suffixes (fuel + 1) e rest = .ok (e, rest) := by
  unfold suffixes
  split
  next r => exact absurd ⟨_, r, rfl, .inl rfl⟩ h
  next r => exact absurd ⟨_, r, rfl, .inr (.inl rfl)⟩ h
  next => rfl

/-! ## What comes out of a phrase -/

/-- What comes out of the operand at the level is what comes out of going on behind it at that level. -/
def ParsesAt (level : Nat) (ts : List Token) (e : Tree) : Prop :=
  ∀ rest out m fuel, ¬ GoesOn (level + 1) rest → (∀ k, m < k → chain k level e rest = .ok out) →
    6 * ts.length + m < fuel + level → operand fuel level (ts ++ rest) = .ok out

/-- What comes out of the operand is what comes out of the calls and indices behind it. -/
def ParsesApplied (ts : List Token) (e : Tree) : Prop :=
  ∀ rest out m fuel, (∀ k, m < k → suffixes k e rest = .ok out) → 6 * ts.length + m < fuel + tightest →
    operand fuel tightest (ts ++ rest) = .ok out

/-- A literal, a name or an expression in parentheses is read as it is, whatever stands behind it. -/
def ParsesPrimary (ts : List Token) (e : Tree) : Prop :=
  ∀ rest fuel, 6 * ts.length ≤ fuel + 5 → primary fuel (ts ++ rest) = .ok (e, rest)

/-- The parser reads the tokens as the phrase. -/
def Parses (p : Phrase) : List Token → Tree → Prop :=
  match p with
  | .equality => ParsesAt 0
  | .additive => ParsesAt 1
  | .term => ParsesAt 2
  | .unary => ParsesAt tightest
  | .applied => ParsesApplied
  | .primary => ParsesPrimary

/-- An operand that nothing goes on with is read as a whole. -/
theorem ParsesAt.operand_eq (h : ParsesAt level ts e) (hrest : ¬ GoesOn level rest) (fuel : Nat)
    (hfuel : 6 * ts.length < fuel + level) : operand fuel level (ts ++ rest) = .ok (e, rest) := by
  refine h rest (e, rest) 0 fuel (fun hgoes => hrest (hgoes.anti (Nat.le_succ _))) (fun k hk => ?_) hfuel
  obtain ⟨k, rfl⟩ := Nat.exists_eq_add_of_le' hk
  exact chain_of_not_goesOn hrest e k

/-! ## One phrase from the next -/

theorem closing_cons (o : Op) (r : List Token) : closing o (.op o :: r) = .ok r := by
  rw [closing, if_pos rfl]

/-- The operators of a level stand between operands of the next. -/
theorem ParsesAt.inner (h : ParsesAt (level + 1) ts e) (hlevel : level < tightest) (hpos : 0 < ts.length) :
    ParsesAt level ts e := by
  intro rest out m fuel hrest hchain hfuel
  have : level < 3 := hlevel
  obtain ⟨fuel, rfl⟩ : ∃ k, fuel = k + 1 := Nat.exists_eq_add_of_le' (by omega)
  have hinner := h.operand_eq hrest fuel (by omega)
  unfold operand
  rw [if_pos hlevel, hinner]
  exact hchain fuel (by omega)

theorem ParsesAt.binary {o : Binary} {ls rs : List Token} {l r : Tree} (hl : ParsesAt o.level ls l)
    (hr : ParsesAt (o.level + 1) rs r) (hpos : 0 < rs.length) :
    ParsesAt o.level (ls ++ .op o.op :: rs) (.binary o l r) := by
  intro rest out m fuel hrest hchain hfuel
  rw [List.length_append, List.length_cons] at hfuel
  rw [List.append_assoc, List.cons_append]
  refine hl _ out (6 * rs.length + m) fuel (not_goesOn_binary o _) (fun k hk => ?_) (by omega)
  obtain ⟨k, rfl⟩ : ∃ k', k = k' + 1 := Nat.exists_eq_add_of_le' (by omega)
  have hright := hr.operand_eq hrest k (by omega)
  have hop : (Binary.ofOp? o.op).filter (·.level = o.level) = some o := by cases o <;> rfl
  rw [chain]
  simp only [hop, hright]
  exact hchain k (by omega)

/-- At the tightest level no operator is left to go on with. -/
theorem parsesAt_tightest (h : ∀ rest fuel, ¬ GoesOn tightest rest → 6 * ts.length < fuel + tightest →
    operand fuel tightest (ts ++ rest) = .ok (e, rest)) : ParsesAt tightest ts e := by
  intro rest out m fuel hrest hchain hfuel
  have hrest' : ¬ GoesOn tightest rest := by
    rintro ⟨o, r, rfl, ho⟩
    refine hrest ⟨o, r, rfl, ho.imp_right (Or.imp_right ?_)⟩
    rintro ⟨b, -, hb⟩
    cases b <;> exact absurd hb (by decide)
  have hout := hchain (m + 1) (Nat.lt_succ_self m)
  rw [chain_of_not_goesOn hrest'] at hout
  rw [← hout]
  exact h rest fuel hrest' (by omega)

theorem ParsesAt.sign (s : Sign) (h : ParsesAt tightest ts e) : ParsesAt tightest (.op s.op :: ts) (.sign s e) := by
  refine parsesAt_tightest fun rest fuel hrest hfuel => ?_
  rw [List.length_cons] at hfuel
  have : tightest = 3 := rfl
  obtain ⟨fuel, rfl⟩ : ∃ k, fuel = k + 1 := Nat.exists_eq_add_of_le' (by omega)
  have hoperand := h.operand_eq hrest fuel (by omega)
  unfold operand
  rw [if_neg (Nat.lt_irrefl _)]
  cases s with
  | negate =>
    simp only [List.cons_append, Sign.op, hoperand]
    rfl
  | not =>
    simp only [List.cons_append, Sign.op, hoperand]
    rfl

theorem ParsesApplied.parsesAt (h : ParsesApplied ts e) : ParsesAt tightest ts e := by
  refine parsesAt_tightest fun rest fuel hrest hfuel => ?_
  refine h rest (e, rest) 0 fuel (fun k hk => ?_) hfuel
  obtain ⟨k, rfl⟩ := Nat.exists_eq_add_of_le' hk
  exact suffixes_of_not_goesOn hrest e k

theorem ParsesPrimary.applied (h : ParsesPrimary ts e) (hbegins : Begins .primary ts) : ParsesApplied ts e := by
  intro rest out m fuel hsuffixes hfuel
  have hpos := hbegins.length_pos
  have : tightest = 3 := rfl
  obtain ⟨fuel, rfl⟩ : ∃ k, fuel = k + 1 := Nat.exists_eq_add_of_le' (by omega)
  have hprimary := h rest fuel (by omega)
  obtain ⟨t, r, rfl, -, hsign⟩ := hbegins
  unfold operand
  rw [if_neg (Nat.lt_irrefl _)]
  split
  next heq =>
    cases heq
    exact absurd rfl (hsign (.inr rfl) .negate)
  next heq =>
    cases heq
    exact absurd rfl (hsign (.inr rfl) .not)
  next =>
    rw [hprimary]
    exact hsuffixes fuel (by omega)

theorem ParsesAt.parens (h : ParsesAt 0 ts e) : ParsesPrimary (.op .lparen :: (ts ++ [.op .rparen])) e := by
  intro rest fuel hfuel
  rw [List.length_cons, List.length_append, List.length_singleton] at hfuel
  obtain ⟨fuel, rfl⟩ : ∃ k, fuel = k + 1 := Nat.exists_eq_add_of_le' (by omega)
  have hoperand := h.operand_eq (not_goesOn_rparen rest) fuel (by omega)
  rw [List.cons_append, List.append_assoc, List.singleton_append, primary, hoperand]
  simp only [bind, Except.bind, closing_cons]
  rfl

theorem ParsesApplied.index {is : List Token} {i : Tree} (h : ParsesApplied ts e) (hi : ParsesAt 0 is i) :
    ParsesApplied (ts ++ .op .lbracket :: (is ++ [.op .rbracket])) (.index e i) := by
  intro rest out m fuel hsuffixes hfuel
  rw [List.length_append, List.length_cons, List.length_append, List.length_singleton] at hfuel
  simp only [List.append_assoc, List.cons_append, List.nil_append]
  refine h _ out (6 * is.length + m + 2) fuel (fun k hk => ?_) (by omega)
  obtain ⟨k, rfl⟩ : ∃ k', k = k' + 1 := Nat.exists_eq_add_of_le' (by omega)
  have hoperand := hi.operand_eq (not_goesOn_rbracket rest) k (by omega)
  rw [suffixes, hoperand]
  simp only [bind, Except.bind, closing_cons]
  exact hsuffixes k (by omega)

/-! ## Calls -/

theorem someArguments_eq {args : List (List Token × Tree)} (hne : args ≠ []) (hargs : ∀ a ∈ args, ParsesAt 0 a.1 a.2)
    (rest : List Token) (fuel : Nat) (hfuel : 6 * (separated args).length + 1 < fuel) :
    someArguments fuel (separated args ++ .op .rparen :: rest) = .ok (args.map (·.2), .op .rparen :: rest) := by
  induction args generalizing fuel with
  | nil => contradiction
  | cons a args ih =>
    obtain ⟨ha, hargs⟩ := List.forall_mem_cons.1 hargs
    obtain ⟨fuel, rfl⟩ : ∃ k, fuel = k + 1 := Nat.exists_eq_add_of_le' (by omega)
    cases args with
    | nil =>
      rw [separated_singleton] at hfuel ⊢
      rw [someArguments, ha.operand_eq (not_goesOn_rparen rest) fuel (by omega)]
      rfl
    | cons b args =>
      rw [separated_cons, List.length_append, List.length_cons] at hfuel
      rw [separated_cons, List.append_assoc, List.cons_append, someArguments,
        ha.operand_eq (not_goesOn_comma _) fuel (by omega)]
      simp only [bind, Except.bind, ih (List.cons_ne_nil _ _) hargs fuel (by omega)]
      rfl

theorem begins_separated {a : List Token × Tree} (h : Begins p a.1) (args : List (List Token × Tree)) :
    Begins p (separated (a :: args)) := by
  cases args with
  | nil => rwa [separated_singleton]
  | cons b args =>
    rw [separated_cons]
    exact h.append _

theorem arguments_eq {args : List (List Token × Tree)} (hargs : ∀ a ∈ args, ParsesAt 0 a.1 a.2)
    (hbegins : ∀ a ∈ args, Begins .equality a.1) (rest : List Token) (fuel : Nat)
    (hfuel : 6 * (separated args).length + 2 < fuel) :
    arguments fuel (separated args ++ .op .rparen :: rest) = .ok (args.map (·.2), .op .rparen :: rest) := by
  obtain ⟨fuel, rfl⟩ : ∃ k, fuel = k + 1 := Nat.exists_eq_add_of_le' (by omega)
  cases args with
  | nil => rw [separated_nil, List.nil_append, arguments, List.map_nil]
  | cons a args =>
    have hsome := someArguments_eq (List.cons_ne_nil a args) hargs rest fuel (by omega)
    obtain ⟨t, r, heq, hparen, -⟩ := begins_separated (hbegins a List.mem_cons_self) args
    unfold arguments
    split
    next heq' =>
      rw [heq, List.cons_append] at heq'
      cases heq'
      contradiction
    next => exact hsome

theorem ParsesApplied.call {args : List (List Token × Tree)} (h : ParsesApplied ts (.var name))
    (hargs : ∀ a ∈ args, ParsesAt 0 a.1 a.2) (hbegins : ∀ a ∈ args, Begins .equality a.1) :
    ParsesApplied (ts ++ .op .lparen :: (separated args ++ [.op .rparen])) (.call name (args.map (·.2))) := by
  intro rest out m fuel hsuffixes hfuel
  rw [List.length_append, List.length_cons, List.length_append, List.length_singleton] at hfuel
  simp only [List.append_assoc, List.cons_append, List.nil_append]
  refine h _ out (6 * (separated args).length + m + 3) fuel (fun k hk => ?_) (by omega)
  obtain ⟨k, rfl⟩ : ∃ k', k = k' + 1 := Nat.exists_eq_add_of_le' (by omega)
  have hlist := arguments_eq hargs hbegins rest k (by omega)
  rw [suffixes, hlist]
  simp only [bind, Except.bind, closing_cons]
  exact hsuffixes k (by omega)

/-! ## Every phrase -/

/-- A phrase that is one of the next tighter kind. -/
theorem Parses.outer (h : Parses p.inner ts e) (hbegins : Begins p.inner ts) : Parses p ts e := by
  have hpos := hbegins.length_pos
  cases p with
  | equality => exact ParsesAt.inner h (by decide) hpos
  | additive => exact ParsesAt.inner h (by decide) hpos
  | term => exact ParsesAt.inner h (by decide) hpos
  | unary => exact ParsesApplied.parsesAt h
  | applied => exact ParsesPrimary.applied h hbegins
  | primary => exact h

theorem parsesPrimary_singleton {t : Token} (h : ∀ fuel rest, primary (fuel + 1) (t :: rest) = .ok (e, rest)) :
    ParsesPrimary [t] e := by
  intro rest fuel hfuel
  rw [List.length_singleton] at hfuel
  obtain ⟨fuel, rfl⟩ : ∃ k, fuel = k + 1 := Nat.exists_eq_add_of_le' (by omega)
  exact h fuel rest

theorem parses_name (h : name ∉ keywords) : Parses .primary [.ident name] (.var name) := by
  refine parsesPrimary_singleton fun fuel rest => ?_
  simp only [keywords, List.mem_cons, List.not_mem_nil, or_false, not_or] at h
  rw [primary, named, if_neg h.1, if_neg h.2.1, if_neg h.2.2]

theorem Callee.parses (h : Callee ts name) : Parses .primary ts (.var name) := by
  induction h with
  | name h => exact parses_name h
  | @parens ts name h ih =>
    have happlied : Parses .applied ts (.var name) := Parses.outer ih h.begins
    have hunary : Parses .unary ts (.var name) := Parses.outer happlied h.begins
    have hterm : Parses .term ts (.var name) := Parses.outer hunary h.begins
    have hadditive : Parses .additive ts (.var name) := Parses.outer hterm h.begins
    exact ParsesAt.parens (Parses.outer (p := .equality) hadditive h.begins)

theorem Parses.binary {o : Binary} {ls rs : List Token} {l r : Tree} (hl : Parses o.phrase ls l)
    (hr : Parses o.phrase.inner rs r) (hpos : 0 < rs.length) :
    Parses o.phrase (ls ++ .op o.op :: rs) (.binary o l r) := by
  have hphrase : Parses o.phrase = ParsesAt o.level ∧ Parses o.phrase.inner = ParsesAt (o.level + 1) := by
    cases o <;> exact ⟨rfl, rfl⟩
  rw [hphrase.1] at hl ⊢
  rw [hphrase.2] at hr
  exact hl.binary hr hpos

/-- The parser reads every phrase as the tree of its derivation. -/
theorem Writes.parses (h : Writes p ts e) : Parses p ts e := by
  induction h with
  | inner h ih => exact ih.outer h.begins
  | binary o hp hl hr ihl ihr =>
    subst hp
    exact ihl.binary ihr hr.begins.length_pos
  | sign s h ih => exact ParsesAt.sign s ih
  | call h args hargs ih =>
    have hcallee : ParsesApplied _ _ := ParsesPrimary.applied h.parses h.begins
    exact hcallee.call ih fun a ha => (hargs a ha).begins
  | index h hi ih ihi => exact ParsesApplied.index ih ihi
  | int n => exact parsesPrimary_singleton fun fuel rest => by rw [primary]
  | str s => exact parsesPrimary_singleton fun fuel rest => by rw [primary]
  | true => exact parsesPrimary_singleton fun fuel rest => by rw [primary]; rfl
  | false => exact parsesPrimary_singleton fun fuel rest => by rw [primary]; rfl
  | null => exact parsesPrimary_singleton fun fuel rest => by rw [primary]; rfl
  | name h => exact parses_name h
  | parens h ih => exact ParsesAt.parens ih

/-! ## Statements and programs -/

theorem Writes.operand_eq (h : Writes .equality ts e) (hrest : AtEnd rest) (hfuel : 6 * ts.length < fuel) :
    operand fuel 0 (ts ++ rest) = .ok (e, rest) :=
  ParsesAt.operand_eq h.parses hrest.not_goesOn fuel hfuel

theorem WritesStatement.statement_eq {s : Statement} (h : WritesStatement ts s) (hrest : AtEnd rest) :
    statement (ts ++ rest) = .ok (s, rest) := by
  have hfuel : ∀ r, 6 * r.length < fuelFor (r ++ rest) := by
    intro r
    rw [fuelFor, List.length_append]
    omega
  cases h with
  | assign name h =>
    rw [List.cons_append, List.cons_append, statement, h.operand_eq hrest (hfuel _)]
    rfl
  | eval h =>
    have hoperand := h.operand_eq hrest (hfuel ts)
    -- An expression that begins with a name has no assignment behind it.
    obtain ⟨t, r, rfl, -⟩ := h.begins
    unfold statement
    split
    next name r' heq =>
      obtain ⟨-, hr⟩ := List.cons.inj heq
      cases r with
      | nil =>
        rcases hrest with hrest | ⟨_, hrest⟩
        · cases hrest.symm.trans hr
        · cases hrest.symm.trans hr
      | cons t' r =>
        obtain ⟨ht', -⟩ := List.cons.inj hr
        exact absurd (.inr ht') (h.not_dividing t' (List.mem_cons_of_mem _ List.mem_cons_self))
    next =>
      rw [hoperand]
      rfl

/-- A statement begins with a token of its own. -/
theorem WritesStatement.exists_cons {s : Statement} (h : WritesStatement ts s) : ∃ t r, ts = t :: r ∧ t ≠ .sep := by
  cases h with
  | assign name h => exact ⟨_, _, rfl, Token.noConfusion⟩
  | eval h =>
    obtain ⟨t, r, rfl, -⟩ := h.begins
    refine ⟨t, r, rfl, ?_⟩
    rintro rfl
    exact h.not_dividing .sep List.mem_cons_self (.inl rfl)

theorem statements_sep (fuel : Nat) (ts : List Token) : statements fuel (.sep :: ts) = statements fuel ts := by
  cases fuel with
  | zero => rw [statements, statements]
  | succ fuel => rw [statements, statements]; rfl

theorem WritesStatement.statements_last {s : Statement} (h : WritesStatement ts s) (fuel : Nat) :
    statements (fuel + 1) ts = .ok [s] := by
  have hstatement := h.statement_eq (.inl rfl : AtEnd [])
  obtain ⟨t, r, rfl, ht⟩ := h.exists_cons
  rw [List.append_nil] at hstatement
  rw [statements, List.dropWhile_cons_of_neg (by simpa using ht)]
  dsimp only
  rw [hstatement]
  rfl

/-- The separator behind a statement parts it from the rest of the program. -/
theorem WritesStatement.statements_more {s : Statement} (h : WritesStatement ts s) (fuel : Nat) (rest : List Token) :
    statements (fuel + 1) (ts ++ .sep :: rest) = (statements fuel rest).map (s :: ·) := by
  have hstatement := h.statement_eq (.inr ⟨rest, rfl⟩ : AtEnd (.sep :: rest))
  obtain ⟨t, r, rfl, ht⟩ := h.exists_cons
  rw [List.cons_append] at hstatement ⊢
  rw [statements, List.dropWhile_cons_of_neg (by simpa using ht)]
  dsimp only
  rw [hstatement]
  dsimp only [bind, Except.bind]
  cases statements fuel rest <;> rfl

theorem WritesProgram.statements_eq {ss : List Statement} (h : WritesProgram ts ss) (hfuel : ts.length < fuel) :
    statements fuel ts = .ok ss := by
  induction h generalizing fuel with
  | empty =>
    cases fuel with
    | zero => rw [statements]
    | succ fuel => rw [statements, List.dropWhile_nil]
  | sep h ih =>
    rw [statements_sep]
    exact ih (Nat.lt_of_succ_lt hfuel)
  | last h =>
    obtain ⟨fuel, rfl⟩ := Nat.exists_eq_add_of_le' (Nat.one_le_of_lt hfuel)
    exact h.statements_last fuel
  | more h hrest ih =>
    rw [List.length_append, List.length_cons] at hfuel
    obtain ⟨fuel, rfl⟩ := Nat.exists_eq_add_of_le' (Nat.one_le_of_lt hfuel)
    rw [h.statements_more, ih (by omega)]
    rfl

/-- What is a program of the grammar is read as that program. -/
theorem program_of_writesProgram {ss : List Statement} (h : WritesProgram ts ss) : program ts = .ok ss :=
  h.statements_eq (Nat.lt_succ_self _)

/-- The parser accepts the grammar and nothing else: it takes all the tokens, and the statements that it gives back are
those of the derivation. -/
theorem program_eq_ok_iff (ts : List Token) (ss : List Statement) : program ts = .ok ss ↔ WritesProgram ts ss :=
  ⟨writesProgram_of_program, program_of_writesProgram⟩

end Conformance.Expr
