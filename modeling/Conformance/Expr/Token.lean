import Conformance.Text.Listing

/-!
# Tokens of expressions
-/
namespace Conformance.Expr

open Text

/-- An operator or bracket. -/
inductive Op where
  | eq | ne | assign | plus | minus | times | divide | rem | not
  | lparen | rparen | lbracket | rbracket | comma
  deriving DecidableEq, Repr, Inhabited

namespace Op

/-- How the operator is written. -/
def text : Op → String
  | eq => "=="
  | ne => "!="
  | assign => "="
  | plus => "+"
  | minus => "-"
  | times => "*"
  | divide => "/"
  | rem => "%"
  | not => "!"
  | lparen => "("
  | rparen => ")"
  | lbracket => "["
  | rbracket => "]"
  | comma => ","

end Op

/-- A token of an expression. -/
inductive Token where
  /-- An integer literal, below `2 ^ 63`. -/
  | int (n : Nat)
  /-- A string literal, by its content. -/
  | str (s : String)
  /-- A name. -/
  | ident (name : String)
  | op (o : Op)
  /-- What separates statements. -/
  | sep
  deriving DecidableEq, Repr, Inhabited

namespace Token

/-- The token as error messages show it. -/
def shown : Token → String
  | int n => s!"Int({n})"
  | str s => s!"Str({listing s})"
  | ident name => s!"Ident({listing name})"
  | op o => s!"Op({listing o.text})"
  | sep => "Sep"

/-- A token that may be missing, as error messages show it. -/
def shownOrNone : Option Token → String
  | some t => s!"Some({t.shown})"
  | none => "None"

end Token

end Conformance.Expr
