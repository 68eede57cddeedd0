import Conformance.Proofs.Expr.Arithmetic
import Conformance.Proofs.Expr.Composition
import Conformance.Proofs.Expr.Spelling

/-!
# Integers written and read

The text of an integer is an expression: digits, behind a sign if the integer is negative. The sign is an operator, so
the digits have to be an integer of their own, and those of the least integer are not (`lex_toDigits_of_large`). All
other integers are read back from their texts (`eval_text`), and the conversions to a text and from it agree on all of
them (`run_int_str`).
-/
namespace Conformance.Expr

open Text

variable {n : Int64}

/-! ## Tokens of an integer -/

/-- Digits that write no 64-bit integer are no token. -/
theorem lex_toDigits_of_large {k : Nat} (h : Nat.pow 2 63 ≤ k) :
    lex (Nat.toDigits 10 k) = .error (.literalTooLarge (String.ofList (Nat.toDigits 10 k))) := by
  obtain ⟨c, r, hdigits, hc, hr⟩ := toDigits_eq_cons k
  have htake : r.takeWhile Char.isDigit = r :=
    (takeWhile_dropWhile_iff.2 ⟨(List.append_nil r).symm, hr, fun c hc => by cases hc⟩).1
  have hvalue : (nat? (c :: r)).filter (· < Nat.pow 2 63) = none := by
    rw [← hdigits, nat?, natIn?_toDigits]
    simp [Option.filter_some, h]
  have hstep : step c r = .error (.literalTooLarge (String.ofList (c :: r))) := by
    rw [step_digit hc, htake, hvalue]
    rfl
  rw [hdigits, lex_of_error hstep]

theorem lex_toDigits {k : Nat} (h : k < Nat.pow 2 63) : lex (Nat.toDigits 10 k) = .ok [.int k] := by
  have hlex : lex (Nat.toDigits 10 k ++ []) = (lex []).map (.int k :: ·) := lex_written (.int h) fun c hc => by cases hc
  rwa [List.append_nil, lex] at hlex

/-- A minus sign in front of digits is a token of its own. -/
theorem lex_minus_toDigits (k : Nat) :
    lex ('-' :: Nat.toDigits 10 k) = (lex (Nat.toDigits 10 k)).map (.op .minus :: ·) :=
  lex_written (.op .minus) fun _ _ => rfl

/-! ## Programs -/

theorem program_int (k : Nat) : program [.int k] = .ok [.eval (.literal (.int (Int64.ofNat k)))] := rfl

theorem program_minus_int (k : Nat) :
    program [.op .minus, .int k] = .ok [.eval (.sign .negate (.literal (.int (Int64.ofNat k))))] := rfl

section Evaluation

variable {σ : Type} {host : Host σ} {env : Env} {s s' : σ}

theorem checked_toInt (n : Int64) : checked n.toInt = .ok (.int n) := by
  rw [checked, int64?_of_inRange (inRange_toInt n), Int64.ofInt_toInt]

/-- A program of one expression. -/
theorem run_eval_of_read {src : String} {e : Tree} {v : Value} (hread : read src = .ok [.eval e])
    (hrun : (evalTree host env e).run s = .ok v s') : (eval host src).run (env, s) = .ok v (env, s') := by
  rw [eval_of_ok host hread, runStatements, EStateM.run_bind, run_runStatement_of_ok hrun]
  rfl

theorem text_of_nonneg (h : 0 ≤ n.toInt) : (Value.int n).text.toList = Nat.toDigits 10 n.toInt.toNat := by
  rw [Value.text, toList_toString_int, if_pos h]

theorem text_of_neg (h : n.toInt < 0) : (Value.int n).text.toList = '-' :: Nat.toDigits 10 (-n.toInt).toNat := by
  rw [Value.text, toList_toString_int, if_neg (by omega)]

/-- An integer that is not the least one is read back from its text. -/
theorem eval_text (hn : n ≠ Int64.minValue) : (eval host (Value.int n).text).run (env, s) = .ok (.int n) (env, s) := by
  obtain ⟨hlow, hhigh⟩ := inRange_iff.1 (inRange_toInt n)
  have hpow : Nat.pow 2 63 = 9223372036854775808 := rfl
  have hleast : n.toInt ≠ -9223372036854775808 := fun h => hn (Int64.toInt.inj h)
  by_cases h : 0 ≤ n.toInt
  · have hlt : n.toInt.toNat < Nat.pow 2 63 := by omega
    have hliteral : Int64.ofNat n.toInt.toNat = n := by
      apply Int64.toInt.inj
      rw [Int64.toInt_ofNat_of_lt hlt, Int.toNat_of_nonneg h]
    have hread : read (Value.int n).text = .ok [.eval (.literal (.int n))] := by
      rw [read, text_of_nonneg h, lex_toDigits hlt]
      exact (program_int _).trans (by rw [hliteral])
    exact run_eval_of_read hread rfl
  · have hlt : (-n.toInt).toNat < Nat.pow 2 63 := by omega
    have hnegated : -(Int64.ofNat (-n.toInt).toNat).toInt = n.toInt := by
      rw [Int64.toInt_ofNat_of_lt hlt]
      omega
    have hread : read (Value.int n).text =
        .ok [.eval (.sign .negate (.literal (.int (Int64.ofNat (-n.toInt).toNat))))] := by
      rw [read, text_of_neg (by omega), lex_minus_toDigits, lex_toDigits hlt]
      exact program_minus_int _
    refine run_eval_of_read hread ?_
    rw [evalTree, evalTree, pure_bind, applySign, hnegated, checked_toInt]
    rfl

/-- The text of the least integer is not read at all. -/
theorem eval_text_minValue : (eval host (Value.int Int64.minValue).text).run (env, s) =
    .error (Problem.literalTooLarge "9223372036854775808").fault (env, s) := by
  have hread : read (Value.int Int64.minValue).text = .error (.literalTooLarge "9223372036854775808") := by
    rw [read, text_of_neg (by decide), lex_minus_toDigits, lex_toDigits_of_large (by decide)]
    rfl
  rw [eval_of_error host hread]
  rfl

/-! ## Conversions -/

theorem run_call_of_ok {name : String} {f : Builtin} {e : Tree} {v : Value} (hf : Builtin.ofName? name = some f)
    (h : (evalTree host env e).run s = .ok v s') :
    (evalTree host env (.call name [e])).run s = (applyBuiltin host f name [v]).run s' := by
  have hargs : (evalTrees host env [e]).run s = .ok [v] s' := by
    rw [evalTrees, EStateM.run_bind, h]
    rfl
  rw [evalTree, EStateM.run_bind, hargs, hf]

/-- The text of an integer has no blanks at its ends. -/
theorem trim_text (n : Int64) : trim (Value.int n).text.toList = (Value.int n).text.toList := by
  have hdigits : ∀ k : Nat, ∀ c ∈ Nat.toDigits 10 k, isWhite c = false := fun k c hc =>
    isWhite_of_isDigit (isDigit_of_mem_toDigits c hc)
  refine trim_eq_self ?_
  by_cases h : 0 ≤ n.toInt
  · rw [text_of_nonneg h]
    exact hdigits _
  · rw [text_of_neg (by omega)]
    exact List.forall_mem_cons.2 ⟨by decide, hdigits _⟩

theorem toInt_text (n : Int64) : toInt (.str (Value.int n).text) = .ok (.int n) := by
  rw [toInt, trim_text, Value.text, readInt64?_toString]

/-- An integer that is converted to a text and back is the same. -/
theorem run_int_str {e : Tree} (h : (evalTree host env e).run s = .ok (.int n) s') :
    (evalTree host env (.call "int" [.call "str" [e]])).run s = .ok (.int n) s' := by
  have hstr : (evalTree host env (.call "str" [e])).run s = .ok (.str (Value.int n).text) s' :=
    run_call_of_ok (f := .str) rfl h
  rw [run_call_of_ok (f := .int) rfl hstr, applyBuiltin, toInt_text]
  rfl

variable (host env s)

/-- All integers but the least one are read back from their texts, and all are converted to their texts and back. -/
theorem integers_read_back :
    (∀ n : Int64, (eval host (Value.int n).text).run (env, s) =
      if n = Int64.minValue then .error (Problem.literalTooLarge "9223372036854775808").fault (env, s)
      else .ok (.int n) (env, s)) ∧
    (∀ (e : Tree) (n : Int64) (s' : σ), (evalTree host env e).run s = .ok (.int n) s' →
      (evalTree host env (.call "int" [.call "str" [e]])).run s = .ok (.int n) s') ∧
    ∀ n : Int64, env.get? "n" = some (.int n) → (eval host "int(str(n))").run (env, s) = .ok (.int n) (env, s) := by
  refine ⟨fun n => ?_, fun e n s' h => run_int_str h, fun n hn => ?_⟩
  · split
    next hleast => rw [hleast, eval_text_minValue]
    next hleast => exact eval_text hleast
  · have hlex : (lex "int(str(n))".toList).toOption =
        some [.ident "int", .op .lparen, .ident "str", .op .lparen, .ident "n", .op .rparen, .op .rparen] := by
      decide +kernel
    have hread : read "int(str(n))" = .ok [.eval (.call "int" [.call "str" [.var "n"]])] :=
      (read_of_lex hlex).trans rfl
    have hvariable : (evalTree host env (.var "n")).run s = .ok (.int n) s := by
      rw [evalTree, hn]
      rfl
    exact run_eval_of_read hread (run_int_str hvariable)

end Evaluation

/-- Both ends of the range: the largest integer is read back, the least one is only converted. -/
theorem integers_read_back_ends :
    let host : Host Unit := fun _ => pure []
    let env : Env := ⟨[("n", .int Int64.minValue)]⟩
    (eval host "9223372036854775807").run (env, ()) = .ok (.int Int64.maxValue) (env, ()) ∧
    (evalTree host env (.var "n")).run () = .ok (.int Int64.minValue) () ∧
    (evalTree host env (.call "int" [.call "str" [.var "n"]])).run () = .ok (.int Int64.minValue) () ∧
    env.get? "n" = some (.int Int64.minValue) ∧
    (eval host "int(str(n))").run (env, ()) = .ok (.int Int64.minValue) (env, ()) := by
  intro host env
  obtain ⟨htext, htree, hprogram⟩ := integers_read_back host env ()
  exact ⟨htext Int64.maxValue, rfl, htree (.var "n") Int64.minValue () rfl, rfl, hprogram Int64.minValue rfl⟩

/-- The least integer is written as a text that is refused as an expression, though it can be converted. -/
theorem least_integer_not_read_back :
    let host : Host Unit := fun _ => pure []
    (Value.int Int64.minValue).text = "-9223372036854775808" ∧
    (eval host "-9223372036854775808").run (.empty, ()) =
      .error (.expression "integer literal out of range: 9223372036854775808") (.empty, ()) ∧
    (eval host "int('-9223372036854775808')").run (.empty, ()) = .ok (.int Int64.minValue) (.empty, ()) := by
  intro host
  have hlex : (lex "int('-9223372036854775808')".toList).toOption =
      some [.ident "int", .op .lparen, .str "-9223372036854775808", .op .rparen] := by
    decide +kernel
  have hread : read "int('-9223372036854775808')" =
      .ok [.eval (.call "int" [.literal (.str "-9223372036854775808")])] := (read_of_lex hlex).trans rfl
  exact ⟨rfl, eval_text_minValue, run_eval_of_read hread rfl⟩

end Conformance.Expr
