import Conformance.Expr.Token
import Conformance.Expr.Value

/-!
# Trees of expressions and programs
-/
namespace Conformance.Expr

/-- A sign in front of an operand. -/
inductive Sign where
  | negate
  | not
  deriving DecidableEq, Repr, Inhabited

/-- The operator that writes the sign. -/
def Sign.op : Sign → Op
  | negate => .minus
  | not => .not

/-- An operator between two operands. -/
inductive Binary where
  | eq | ne | add | sub | mul | div | rem
  deriving DecidableEq, Repr, Inhabited

namespace Binary

/-- The operator that writes it. -/
def op : Binary → Op
  | eq => .eq
  | ne => .ne
  | add => .plus
  | sub => .minus
  | mul => .times
  | div => .divide
  | rem => .rem

/-- How tightly it binds: comparisons least, then sums, then products. -/
def level : Binary → Nat
  | eq | ne => 0
  | add | sub => 1
  | mul | div | rem => 2

/-- The binary operator that a token writes. -/
def ofOp? : Op → Option Binary
  | .eq => some eq
  | .ne => some ne
  | .plus => some add
  | .minus => some sub
  | .times => some mul
  | .divide => some div
  | .rem => some rem
  | _ => none

end Binary

/-- An expression. -/
inductive Tree where
  | literal (v : Value)
  | var (name : String)
  | sign (s : Sign) (operand : Tree)
  | binary (o : Binary) (left right : Tree)
  | call (name : String) (arguments : List Tree)
  | index (target index : Tree)
  deriving Repr, Inhabited

/-- A statement of a program. -/
inductive Statement where
  | assign (name : String) (e : Tree)
  | eval (e : Tree)
  deriving Repr, Inhabited

end Conformance.Expr
