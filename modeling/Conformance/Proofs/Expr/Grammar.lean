import Conformance.Proofs.Expr.Names

/-!
# The grammar of programs

A program is made of statements with separators between them, and a statement is an assignment or an expression. An
expression is read by phrases that bind tighter and tighter: comparisons, sums, products, signs, calls and indices, and
at last literals, names and parentheses.

* `Writes`, `WritesStatement` and `WritesProgram` are the grammar, with the tree that each derivation stands for;
* `operandsWrite` says of every reader of the parser that the tokens it takes write what it gives back, so that a
  program that is read is one of the grammar (`writesProgram_of_program`).
-/
namespace Conformance.Expr

/-! ## Derivations -/

/-- The phrases of an expression, from the one that binds weakest. -/
inductive Phrase where
  | equality
  | additive
  | term
  | unary
  /-- Calls and indices. -/
  | applied
  | primary
  deriving DecidableEq, Repr

/-- The phrase that binds next tighter. -/
def Phrase.inner : Phrase → Phrase
  | equality => additive
  | additive => term
  | term => unary
  | unary => applied
  | applied => primary
  | primary => primary

/-- The phrase whose parts the operator stands between. -/
def Binary.phrase : Binary → Phrase
  | eq | ne => .equality
  | add | sub => .additive
  | mul | div | rem => .term

/-- The names that are literals. -/
def keywords : List String := ["true", "false", "null"]

/-- The tokens name a function: a name, or one in parentheses. -/
inductive Callee : List Token → String → Prop where
  | name {n : String} (h : n ∉ keywords) : Callee [.ident n] n
  | parens {ts : List Token} {n : String} (h : Callee ts n) : Callee (.op .lparen :: (ts ++ [.op .rparen])) n

/-- The tokens of arguments, with commas between them. -/
def separated (args : List (List Token × Tree)) : List Token := [Token.op .comma].intercalate (args.map (·.1))

/-- The tokens are a phrase of this kind, and the tree is what they stand for. The left part of an operator may hold
operators that bind as tightly, and the right part only tighter ones. -/
inductive Writes : Phrase → List Token → Tree → Prop where
  | inner {p : Phrase} {ts : List Token} {e : Tree} (h : Writes p.inner ts e) : Writes p ts e
  | binary {p : Phrase} (o : Binary) (hp : o.phrase = p) {ls rs : List Token} {l r : Tree} (hl : Writes p ls l)
    (hr : Writes p.inner rs r) : Writes p (ls ++ .op o.op :: rs) (.binary o l r)
  | sign (s : Sign) {ts : List Token} {e : Tree} (h : Writes .unary ts e) : Writes .unary (.op s.op :: ts) (.sign s e)
  | call {ts : List Token} {name : String} (h : Callee ts name) (args : List (List Token × Tree))
    (hargs : ∀ a ∈ args, Writes .equality a.1 a.2) :
    Writes .applied (ts ++ .op .lparen :: (separated args ++ [.op .rparen])) (.call name (args.map (·.2)))
  | index {ts is : List Token} {e i : Tree} (h : Writes .applied ts e) (hi : Writes .equality is i) :
    Writes .applied (ts ++ .op .lbracket :: (is ++ [.op .rbracket])) (.index e i)
  | int (n : Nat) : Writes .primary [.int n] (.literal (.int (Int64.ofNat n)))
  | str (s : String) : Writes .primary [.str s] (.literal (.str s))
  | true : Writes .primary [.ident "true"] (.literal (.bool true))
  | false : Writes .primary [.ident "false"] (.literal (.bool false))
  | null : Writes .primary [.ident "null"] (.literal .null)
  | name {n : String} (h : n ∉ keywords) : Writes .primary [.ident n] (.var n)
  | parens {ts : List Token} {e : Tree} (h : Writes .equality ts e) :
    Writes .primary (.op .lparen :: (ts ++ [.op .rparen])) e

/-- The tokens are a statement. -/
inductive WritesStatement : List Token → Statement → Prop where
  | assign (name : String) {ts : List Token} {e : Tree} (h : Writes .equality ts e) :
    WritesStatement (.ident name :: .op .assign :: ts) (.assign name e)
  | eval {ts : List Token} {e : Tree} (h : Writes .equality ts e) : WritesStatement ts (.eval e)

/-- The tokens are a program: statements with one separator or more between them, and any number in front and behind. -/
inductive WritesProgram : List Token → List Statement → Prop where
  | empty : WritesProgram [] []
  | sep {ts : List Token} {ss : List Statement} (h : WritesProgram ts ss) : WritesProgram (.sep :: ts) ss
  | last {ts : List Token} {s : Statement} (h : WritesStatement ts s) : WritesProgram ts [s]
  | more {ts rest : List Token} {s : Statement} {ss : List Statement} (h : WritesStatement ts s)
    (hrest : WritesProgram rest ss) : WritesProgram (ts ++ .sep :: rest) (s :: ss)

variable {ts rest : List Token} {e : Tree} {p : Phrase} {name : String} {fuel level : Nat}

/-! ## The tokens of a phrase -/

theorem separated_nil : separated [] = [] := rfl

theorem separated_singleton (a : List Token × Tree) : separated [a] = a.1 := by
  rw [separated, List.map_singleton, List.intercalate_singleton]

theorem separated_cons (a b : List Token × Tree) (args : List (List Token × Tree)) :
    separated (a :: b :: args) = a.1 ++ .op .comma :: separated (b :: args) := by
  simp only [separated, List.map_cons, List.intercalate_cons_cons, List.append_assoc, List.singleton_append]

/-- What holds of a comma and of the tokens of each argument holds of the tokens of all of them. -/
theorem forall_separated {P : Token → Prop} {args : List (List Token × Tree)} (hcomma : P (.op .comma))
    (h : ∀ a ∈ args, ∀ t ∈ a.1, P t) : ∀ t ∈ separated args, P t := by
  induction args with
  | nil => exact List.forall_mem_nil P
  | cons a args ih =>
    obtain ⟨ha, hargs⟩ := List.forall_mem_cons.1 h
    cases args with
    | nil => rwa [separated_singleton]
    | cons b args =>
      rw [separated_cons]
      exact List.forall_mem_append.2 ⟨ha, List.forall_mem_cons.2 ⟨hcomma, ih hargs⟩⟩

/-- What holds of two brackets and of the tokens between them holds of all these tokens. -/
private theorem forall_enclosed {P : Token → Prop} {opening closing : Token} (hopening : P opening)
    (h : ∀ t ∈ ts, P t) (hclosing : P closing) : ∀ t ∈ opening :: (ts ++ [closing]), P t :=
  List.forall_mem_cons.2 ⟨hopening, List.forall_mem_append.2 ⟨h, List.forall_mem_singleton.2 hclosing⟩⟩

/-- The tokens that occur in no expression. -/
def Token.dividing (t : Token) : Prop := t = .sep ∨ t = .op .assign

theorem Token.not_dividing_op {o : Op} (h : o ≠ .assign) : ¬ (Token.op o).dividing := by
  simp [Token.dividing, h]

theorem Callee.not_dividing (h : Callee ts name) : ∀ t ∈ ts, ¬ t.dividing := by
  induction h with
  | name h => simp [Token.dividing]
  | parens h ih =>
    exact forall_enclosed (Token.not_dividing_op Op.noConfusion) ih (Token.not_dividing_op Op.noConfusion)

/-- Separators and assignments are no part of an expression. -/
theorem Writes.not_dividing (h : Writes p ts e) : ∀ t ∈ ts, ¬ t.dividing := by
  have hbrackets {opening closing : Op} {ts : List Token} (hopening : opening ≠ .assign) (hclosing : closing ≠ .assign)
      (h : ∀ t ∈ ts, ¬ t.dividing) : ∀ t ∈ .op opening :: (ts ++ [.op closing]), ¬ t.dividing :=
    forall_enclosed (Token.not_dividing_op hopening) h (Token.not_dividing_op hclosing)
  induction h with
  | inner h ih => exact ih
  | binary o hp hl hr ihl ihr =>
    have ho : o.op ≠ .assign := by cases o <;> exact Op.noConfusion
    exact List.forall_mem_append.2 ⟨ihl, List.forall_mem_cons.2 ⟨Token.not_dividing_op ho, ihr⟩⟩
  | sign s h ih =>
    have hs : s.op ≠ .assign := by cases s <;> exact Op.noConfusion
    exact List.forall_mem_cons.2 ⟨Token.not_dividing_op hs, ih⟩
  | call h args hargs ih =>
    have hargs := forall_separated (Token.not_dividing_op Op.noConfusion) ih
    exact List.forall_mem_append.2 ⟨h.not_dividing, hbrackets Op.noConfusion Op.noConfusion hargs⟩
  | index h hi ih ihi => exact List.forall_mem_append.2 ⟨ih, hbrackets Op.noConfusion Op.noConfusion ihi⟩
  | parens h ih => exact hbrackets Op.noConfusion Op.noConfusion ih
  | int | str | true | false | null | name => simp [Token.dividing]

/-- Only a name stands for a variable. -/
theorem Writes.callee (h : Writes p ts e) (he : e = .var name) : Callee ts name := by
  induction h with
  | inner h ih => exact ih he
  | name h =>
    cases he
    exact .name h
  | parens h ih => exact .parens (ih he)
  | _ => cases he

/-! ## What the parser takes -/

/-- The tokens that the reader takes from the front are related so to what it gives back. -/
def Takes {α : Type} (P : List Token → α → Prop) (x : Except Problem (α × List Token)) (ts : List Token) : Prop :=
  ∀ a rest, x = .ok (a, rest) → ∃ front, ts = front ++ rest ∧ P front a

section Readers

variable {α β : Type} {P Q : List Token → α → Prop} {R : List Token → β → Prop}
  {x : Except Problem (α × List Token)} {ts : List Token}

theorem takes_ok {a : α} (h : P [] a) : Takes P (.ok (a, ts)) ts := by
  intro b rest heq
  cases heq
  exact ⟨[], rfl, h⟩

theorem takes_error (problem : Problem) : Takes P (.error problem) ts := by
  intro a rest heq
  cases heq

theorem Takes.mono (h : Takes P x ts) (hPQ : ∀ front a, P front a → Q front a) : Takes Q x ts := by
  intro a rest heq
  obtain ⟨front, hts, hP⟩ := h a rest heq
  exact ⟨front, hts, hPQ front a hP⟩

/-- A reader behind the token `t`. -/
theorem Takes.cons {t : Token} (h : Takes (fun front a => P (t :: front) a) x ts) : Takes P x (t :: ts) := by
  intro a rest heq
  obtain ⟨front, rfl, hP⟩ := h a rest heq
  exact ⟨t :: front, rfl, hP⟩

/-- One reader after another: the second takes its tokens behind those of the first. -/
theorem Takes.bind {f : α × List Token → Except Problem (β × List Token)} (hx : Takes P x ts)
    (hf : ∀ front a rest, P front a → Takes (fun behind b => R (front ++ behind) b) (f (a, rest)) rest) :
    Takes R (x >>= f) ts := by
  cases hx' : x with
  | error problem => exact takes_error problem
  | ok p =>
    obtain ⟨front, rfl, hP⟩ := hx p.1 p.2 hx'
    intro b rest' heq
    obtain ⟨behind, hrest, hR⟩ := hf front p.1 p.2 hP b rest' heq
    exact ⟨front ++ behind, by rw [hrest, List.append_assoc], hR⟩

theorem takes_closing {o : Op} {f : List Token → Except Problem (β × List Token)}
    (hf : ∀ rest, Takes (fun behind b => R (.op o :: behind) b) (f rest) rest) : Takes R (closing o ts >>= f) ts := by
  cases ts with
  | nil => exact takes_error _
  | cons t r =>
    rw [closing]
    split
    next ht =>
      subst ht
      exact (hf r).cons
    · exact takes_error _

end Readers

/-- The phrase of the operands at a level. -/
def phraseAt (level : Nat) : Phrase :=
  match level with
  | 0 => .equality
  | 1 => .additive
  | 2 => .term
  | _ => .unary

theorem inner_phraseAt (h : level < tightest) : (phraseAt level).inner = phraseAt (level + 1) := by
  match level, h with
  | 0, _ => rfl
  | 1, _ => rfl
  | 2, _ => rfl

theorem phraseAt_of_tightest (h : ¬ level < tightest) : phraseAt level = .unary := by
  match level, h with
  | _ + 3, _ => rfl

theorem Binary.phraseAt_level (o : Binary) : phraseAt o.level = o.phrase := by
  cases o <;> rfl

theorem Binary.op_of_ofOp? {o : Op} {b : Binary} (h : Binary.ofOp? o = some b) : b.op = o := by
  cases o <;> cases h <;> rfl

theorem writes_named (name : String) : Writes .primary [.ident name] (named name) := by
  unfold named
  split
  next h => exact h ▸ .true
  split
  next h => exact h ▸ .false
  split
  next h => exact h ▸ .null
  next htrue hfalse hnull => exact .name (by simp [keywords, htrue, hfalse, hnull])

/-- Arguments of a call, by their tokens and their trees. -/
def WritesArguments (ts : List Token) (es : List Tree) : Prop :=
  ∃ args : List (List Token × Tree), ts = separated args ∧ es = args.map (·.2) ∧ ∀ a ∈ args, Writes .equality a.1 a.2

/-- All readers of operands take what writes the tree that they give back. -/
structure OperandsWrite (fuel : Nat) : Prop where
  operand : ∀ level ts, Takes (Writes (phraseAt level)) (operand fuel level ts) ts
  chain : ∀ level ls left ts, level < tightest → Writes (phraseAt level) ls left →
    Takes (fun front e => Writes (phraseAt level) (ls ++ front) e) (chain fuel level left ts) ts
  suffixes : ∀ ls left ts, Writes .applied ls left →
    Takes (fun front e => Writes .applied (ls ++ front) e) (suffixes fuel left ts) ts
  arguments : ∀ ts, Takes WritesArguments (arguments fuel ts) ts
  someArguments : ∀ ts, Takes (fun front es => es ≠ [] ∧ WritesArguments front es) (someArguments fuel ts) ts
  primary : ∀ ts, Takes (Writes .primary) (primary fuel ts) ts

section Step

variable (ih : OperandsWrite fuel)
include ih

theorem takes_operand (level : Nat) (ts : List Token) :
    Takes (Writes (phraseAt level)) (operand (fuel + 1) level ts) ts := by
  unfold operand
  split
  next hlevel =>
    refine (ih.operand (level + 1) ts).bind fun front e rest h => ?_
    rw [← inner_phraseAt hlevel] at h
    exact ih.chain level front e rest hlevel h.inner
  next hlevel =>
    have hsign : ∀ s : Sign, ∀ r, Takes (Writes (phraseAt level))
        (operand fuel level r >>= fun p => .ok (.sign s p.1, p.2)) (.op s.op :: r) := by
      intro s r
      refine ((ih.operand level r).bind fun front e rest h => ?_).cons
      refine takes_ok ?_
      rw [phraseAt_of_tightest hlevel] at h ⊢
      rw [List.append_nil]
      exact h.sign s
    split
    next r => exact hsign .negate r
    next r => exact hsign .not r
    next =>
      rw [phraseAt_of_tightest hlevel]
      refine (ih.primary ts).bind fun front e rest h => ?_
      exact (ih.suffixes front e rest (.inner h)).mono fun behind e h => .inner h

theorem takes_chain (level : Nat) (ls : List Token) (left : Tree) (ts : List Token) (hlevel : level < tightest)
    (h : Writes (phraseAt level) ls left) :
    Takes (fun front e => Writes (phraseAt level) (ls ++ front) e) (chain (fuel + 1) level left ts) ts := by
  have hnone : Takes (fun front e => Writes (phraseAt level) (ls ++ front) e) (.ok (left, ts)) ts := by
    refine takes_ok ?_
    rwa [List.append_nil]
  unfold chain
  split
  next o r =>
    split
    next b hb =>
      obtain ⟨hb, hlevel'⟩ := Option.filter_eq_some_iff.1 hb
      obtain rfl := Binary.op_of_ofOp? hb
      obtain rfl : b.level = level := of_decide_eq_true hlevel'
      refine ((ih.operand (b.level + 1) r).bind fun front right rest hright => ?_).cons
      rw [← inner_phraseAt hlevel] at hright
      have hbinary := Writes.binary b b.phraseAt_level.symm h hright
      refine (ih.chain b.level _ _ rest hlevel hbinary).mono fun behind e he => ?_
      simpa only [List.append_assoc, List.cons_append] using he
    next => exact hnone
  next => exact hnone

theorem takes_suffixes (ls : List Token) (left : Tree) (ts : List Token) (h : Writes .applied ls left) :
    Takes (fun front e => Writes .applied (ls ++ front) e) (suffixes (fuel + 1) left ts) ts := by
  unfold suffixes
  split
  next r =>
    split
    next name =>
      refine ((ih.arguments r).bind fun front args rest hargs => takes_closing fun rest => ?_).cons
      obtain ⟨args, rfl, rfl, hargs⟩ := hargs
      have hcall := Writes.call (h.callee rfl) args hargs
      refine (ih.suffixes _ _ rest hcall).mono fun behind e he => ?_
      simpa only [List.append_assoc, List.cons_append, List.nil_append] using he
    next => exact takes_error _
  next r =>
    refine ((ih.operand 0 r).bind fun front i rest hi => takes_closing fun rest => ?_).cons
    refine (ih.suffixes _ _ rest (h.index hi)).mono fun behind e he => ?_
    simpa only [List.append_assoc, List.cons_append, List.nil_append] using he
  next =>
    refine takes_ok ?_
    rwa [List.append_nil]

theorem takes_arguments (ts : List Token) : Takes WritesArguments (arguments (fuel + 1) ts) ts := by
  unfold arguments
  split
  · exact takes_ok ⟨[], rfl, rfl, List.forall_mem_nil _⟩
  · exact (ih.someArguments ts).mono fun front es h => h.2

theorem takes_someArguments (ts : List Token) :
    Takes (fun front es => es ≠ [] ∧ WritesArguments front es) (someArguments (fuel + 1) ts) ts := by
  unfold someArguments
  refine (ih.operand 0 ts).bind fun front e rest he => ?_
  dsimp only
  split
  next r =>
    refine ((ih.someArguments r).bind fun front' es rest hes => ?_).cons
    refine takes_ok ?_
    obtain ⟨hne, args, rfl, rfl, hargs⟩ := hes
    obtain ⟨a, args, rfl⟩ := List.exists_cons_of_ne_nil (mt List.map_eq_nil_iff.2 hne)
    refine ⟨List.cons_ne_nil _ _, (front, e) :: a :: args, ?_, rfl, List.forall_mem_cons.2 ⟨he, hargs⟩⟩
    rw [separated_cons, List.append_nil]
  next =>
    refine takes_ok ⟨List.cons_ne_nil _ _, [(front, e)], ?_, rfl, List.forall_mem_singleton.2 he⟩
    rw [separated_singleton, List.append_nil]

theorem takes_primary (ts : List Token) : Takes (Writes .primary) (primary (fuel + 1) ts) ts := by
  unfold primary
  split
  · exact takes_error _
  next n r => exact (takes_ok (.int n)).cons
  next s r => exact (takes_ok (.str s)).cons
  next name r => exact (takes_ok (writes_named name)).cons
  next r =>
    refine ((ih.operand 0 r).bind fun front e rest he => takes_closing fun rest => takes_ok ?_).cons
    exact he.parens
  · exact takes_error _

end Step

theorem operandsWrite (fuel : Nat) : OperandsWrite fuel := by
  induction fuel with
  | zero =>
    refine ⟨fun _ _ => ?_, fun _ _ _ _ _ _ => ?_, fun _ _ _ _ => ?_, fun _ => ?_, fun _ => ?_, fun _ => ?_⟩
    · rw [operand]
      exact takes_error _
    · rw [chain]
      exact takes_error _
    · rw [suffixes]
      exact takes_error _
    · rw [arguments]
      exact takes_error _
    · rw [someArguments]
      exact takes_error _
    · rw [primary]
      exact takes_error _
  | succ fuel ih =>
    exact ⟨takes_operand ih, takes_chain ih, takes_suffixes ih, takes_arguments ih, takes_someArguments ih,
      takes_primary ih⟩

theorem takes_statement (ts : List Token) : Takes WritesStatement (statement ts) ts := by
  unfold statement
  split
  next name r =>
    refine (((operandsWrite _).operand 0 r).bind fun front e rest he => ?_).cons.cons
    refine takes_ok ?_
    rw [List.append_nil]
    exact .assign name he
  next =>
    refine ((operandsWrite _).operand 0 ts).bind fun front e rest he => ?_
    refine takes_ok ?_
    rw [List.append_nil]
    exact .eval he

/-! ## Programs -/

/-- Separators in front of a program make no difference to it. -/
theorem writesProgram_of_dropWhile {ss : List Statement} (h : WritesProgram (ts.dropWhile (· = .sep)) ss) :
    WritesProgram ts ss := by
  induction ts with
  | nil => exact h
  | cons t ts ih =>
    rw [List.dropWhile_cons] at h
    split at h
    next ht =>
      obtain rfl : t = .sep := of_decide_eq_true ht
      exact .sep (ih h)
    next => exact h

theorem writesProgram_of_statements {ss : List Statement} (h : statements fuel ts = .ok ss) (hfuel : ts.length < fuel) :
    WritesProgram ts ss := by
  induction fuel generalizing ts ss with
  | zero => omega
  | succ fuel ih =>
    rw [statements] at h
    refine writesProgram_of_dropWhile ?_
    have hdrop : (ts.dropWhile (· = .sep)).length ≤ ts.length := (List.dropWhile_suffix _).length_le
    split at h
    next heq =>
      cases h
      rw [heq]
      exact .empty
    next t r heq =>
      obtain ⟨⟨s, rest⟩, hs, h⟩ := bind_eq_ok h
      obtain ⟨front, hfront, hwrites⟩ := takes_statement (t :: r) s rest hs
      rw [heq, hfront] at hdrop ⊢
      dsimp only at h
      split at h
      next =>
        cases h
        rw [List.append_nil]
        exact .last hwrites
      next r' =>
        obtain ⟨more, hmore, heq⟩ := bind_eq_ok h
        cases heq
        rw [List.length_append, List.length_cons] at hdrop
        exact .more hwrites (ih hmore (by omega))
      next => cases h

/-- What is read is a program of the grammar. -/
theorem writesProgram_of_program {ss : List Statement} (h : program ts = .ok ss) : WritesProgram ts ss :=
  writesProgram_of_statements h (Nat.lt_succ_self _)

end Conformance.Expr
