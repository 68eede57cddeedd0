import Conformance.Expr.Lexer
import Conformance.Proofs.Text.Decimal

/-!
# What a token begins with

The character that a token begins with says which kind of token is read (`opening`). What is proved of a token is proved
kind by kind, from `step_eq`, and nothing else knows in which order the kinds are tried.
-/
namespace Conformance.Expr

open Text

/-- What can begin with a character. -/
inductive Opening where
  | newline
  | blank
  | integer
  | name
  | string
  | semicolon
  | operator
  deriving DecidableEq

/-- What begins with a character, the first kind that it fits. -/
def opening (c : Char) : Opening :=
  if c = '\n' then .newline
  else if isWhite c then .blank
  else if c.isDigit then .integer
  else if beginsName c then .name
  else if isQuote c then .string
  else if c = ';' then .semicolon
  else .operator

variable {c : Char}

/-- The token, or the blank, that begins with a character. -/
theorem step_eq (c : Char) (r : List Char) : step c r = match opening c with
    | .newline => .ok (some .sep, r)
    | .blank => .ok (none, r)
    | .integer => ((nat? (c :: r.takeWhile Char.isDigit)).filter (· < Nat.pow 2 63)).elim
        (.error (.literalTooLarge (String.ofList (c :: r.takeWhile Char.isDigit))))
        fun n => .ok (some (.int n), r.dropWhile Char.isDigit)
    | .name => .ok (some (.ident (String.ofList (c :: r.takeWhile continuesName))), r.dropWhile continuesName)
    | .string => (stringBody? c r).elim (.error .unterminatedString)
        fun (s, rest) => .ok (some (.str (String.ofList s)), rest)
    | .semicolon => .ok (some .sep, r)
    | .operator => (operator? (c :: r)).elim (.error (.unexpectedCharacter c))
        fun (o, rest) => .ok (some (.op o), rest) := by
  unfold step opening
  split
  · rfl
  split
  · rfl
  split
  · dsimp only
    cases (nat? (c :: r.takeWhile Char.isDigit)).filter (· < Nat.pow 2 63) <;> rfl
  split
  · rfl
  split
  · cases stringBody? c r <;> rfl
  split
  · rfl
  · cases operator? (c :: r) <;> rfl

/-! ## Which characters begin what -/

theorem eq_newline_of_opening (h : opening c = .newline) : c = '\n' := by
  unfold opening at h
  repeat' split at h
  all_goals first | contradiction | assumption

theorem opening_of_isWhite (hc : c ≠ '\n') (hwhite : isWhite c = true) : opening c = .blank := by
  rw [opening, if_neg hc, if_pos hwhite]

theorem opening_of_isDigit (hdigit : c.isDigit = true) : opening c = .integer := by
  have hc : c ≠ '\n' := by
    rintro rfl
    cases hdigit
  rw [opening, if_neg hc, if_neg (by simp [isWhite_of_isDigit hdigit]), if_pos hdigit]

theorem opening_of_isQuote (hquote : isQuote c = true) : opening c = .string := by
  obtain rfl | rfl : c = '"' ∨ c = '\x27' := by simpa [isQuote] using hquote
  · decide +kernel
  · decide +kernel

theorem isQuote_of_opening (h : opening c = .string) : isQuote c = true := by
  unfold opening at h
  repeat' split at h
  all_goals first | contradiction | assumption

theorem opening_of_operator {o : Op} (hc : o.text.toList.head? = some c) : opening c = .operator := by
  cases o <;> (obtain rfl := Option.some.inj hc.symm; decide +kernel)

end Conformance.Expr
