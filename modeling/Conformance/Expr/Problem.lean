import Conformance.Expr.Token
import Conformance.Fault

/-!
# What can be wrong with an expression
-/
namespace Conformance.Expr

/-- Why an expression cannot be read or evaluated. -/
inductive Problem where
  /-- An integer literal that is not below `2 ^ 63`. -/
  | literalTooLarge (digits : String)
  /-- A character that begins no token. -/
  | unexpectedCharacter (c : Char)
  /-- A string literal without its closing quote. -/
  | unterminatedString
  /-- Another token, or none, where a bracket has to be closed. -/
  | expected (o : Op) (found : Option Token)
  /-- A token behind a complete statement. -/
  | afterStatement (t : Token)
  /-- A call of something that is no name. -/
  | notCallable
  /-- A token that begins no operand. -/
  | unexpected (t : Token)
  /-- The end where an operand has to follow. -/
  | unexpectedEnd
  /-- A name without a value. -/
  | undefined (name : String)
  /-- An integer result outside the signed 64-bit range. -/
  | overflow
  | divisionByZero
  /-- A sign in front of a value that it does not apply to. -/
  | operand (o : Op) (type : String)
  /-- An operator between values that it does not apply to. -/
  | operands (o : Op) (left right : String)
  | missingKey (key : String)
  | missingIndex (i : Int64)
  /-- An index of the wrong type, or a value that has no elements. -/
  | notIndexable (target index : String)
  /-- A call with the wrong number of arguments. -/
  | arity (name : String) (takes got : Nat)
  /-- A text that writes no integer. -/
  | notInteger (text : String)
  /-- A value of a type that has no integers in it. -/
  | noInteger (type : String)
  | noLength (type : String)
  /-- A length outside the signed 64-bit range. -/
  | lengthTooLarge
  /-- A pattern that is no string. -/
  | patternType (name : String)
  | unknownFunction (name : String)
  /-- A pattern that is no regular expression. -/
  | invalidPattern (pattern detail : String)
  deriving DecidableEq, Repr, Inhabited

namespace Problem

/-- The text shown to the user. -/
def message : Problem → String
  | literalTooLarge digits => s!"integer literal out of range: {digits}"
  | unexpectedCharacter c => s!"unexpected character '{c}'"
  | unterminatedString => "unterminated string literal"
  | expected o found => s!"expected '{o.text}', found {Token.shownOrNone found}"
  | afterStatement t => s!"unexpected {t.shown} after statement"
  | notCallable => "only named functions can be called"
  | unexpected t => s!"unexpected {t.shown}"
  | unexpectedEnd => "unexpected end of expression"
  | undefined name => s!"undefined variable '{name}'"
  | overflow => "integer overflow"
  | divisionByZero => "division by zero"
  | operand o type => s!"cannot apply '{o.text}' to {type}"
  | operands o left right => s!"unsupported operands for '{o.text}': {left} and {right}"
  | missingKey key => s!"no element '{key}'"
  | missingIndex i => s!"no element at index {i.toInt}"
  | notIndexable target index => s!"cannot index {target} with {index}"
  | arity name takes got => s!"{name}() takes {takes} argument(s), got {got}"
  | notInteger text => s!"cannot convert '{text}' to int"
  | noInteger type => s!"cannot convert {type} to int"
  | noLength type => s!"{type} has no length"
  | lengthTooLarge => "length out of range"
  | patternType name => s!"{name}() expects a string pattern"
  | unknownFunction name => s!"unknown function '{name}'"
  | invalidPattern pattern detail => s!"invalid regex '{pattern}': {detail}"

/-- The problem as a fault of the run. -/
def fault (p : Problem) : Fault := .expression p.message

end Problem

end Conformance.Expr
