import Conformance.Expr.Lexer
import Conformance.Expr.Tree

/-!
# Reading programs

A program is a list of statements with separators between them. Every reader takes tokens from the
front and gives back the tokens behind what it read. The readers call each other at most a fixed
number of times before a token is taken, which bounds the depth of the recursion.
-/
namespace Conformance.Expr

/-- The tokens behind the bracket `o`, which has to come next. -/
def closing (o : Op) : List Token → Except Problem (List Token)
  | [] => .error (.expected o none)
  | t :: r => if t = .op o then .ok r else .error (.expected o (some t))

/-- The operand that a name stands for. -/
def named (name : String) : Tree :=
  if name = "true" then .literal (.bool true)
  else if name = "false" then .literal (.bool false)
  else if name = "null" then .literal .null
  else .var name

/-- The level of an operand that holds no binary operator outside brackets. -/
def tightest : Nat := 3

mutual

/-- An operand whose binary operators outside brackets bind at `level` or tighter. -/
def operand (fuel level : Nat) (ts : List Token) : Except Problem (Tree × List Token) :=
  match fuel with
  | 0 => .error .unexpectedEnd
  | fuel + 1 =>
    if level < tightest then do
      let (e, rest) ← operand fuel (level + 1) ts
      chain fuel level e rest
    else
      match ts with
      | .op .minus :: r => do
        let (e, rest) ← operand fuel level r
        return (.sign .negate e, rest)
      | .op .not :: r => do
        let (e, rest) ← operand fuel level r
        return (.sign .not e, rest)
      | _ => do
        let (e, rest) ← primary fuel ts
        suffixes fuel e rest

/-- The operand `left` together with all operators of `level` that follow it. -/
def chain (fuel level : Nat) (left : Tree) (ts : List Token) : Except Problem (Tree × List Token) :=
  match fuel with
  | 0 => .error .unexpectedEnd
  | fuel + 1 =>
    match ts with
    | .op o :: r =>
      match (Binary.ofOp? o).filter (·.level = level) with
      | some b => do
        let (right, rest) ← operand fuel (level + 1) r
        chain fuel level (.binary b left right) rest
      | none => .ok (left, ts)
    | _ => .ok (left, ts)

/-- The operand `e` together with all calls and indices that follow it. -/
def suffixes (fuel : Nat) (e : Tree) (ts : List Token) : Except Problem (Tree × List Token) :=
  match fuel with
  | 0 => .error .unexpectedEnd
  | fuel + 1 =>
    match ts with
    | .op .lparen :: r =>
      match e with
      | .var name => do
        let (args, rest) ← arguments fuel r
        let rest ← closing .rparen rest
        suffixes fuel (.call name args) rest
      | _ => .error .notCallable
    | .op .lbracket :: r => do
      let (i, rest) ← operand fuel 0 r
      let rest ← closing .rbracket rest
      suffixes fuel (.index e i) rest
    | _ => .ok (e, ts)

/-- The arguments of a call up to its closing parenthesis, with commas between them. -/
def arguments (fuel : Nat) (ts : List Token) : Except Problem (List Tree × List Token) :=
  match fuel with
  | 0 => .error .unexpectedEnd
  | fuel + 1 =>
    match ts with
    | .op .rparen :: _ => .ok ([], ts)
    | _ => someArguments fuel ts

/-- At least one argument, with commas between them. -/
def someArguments (fuel : Nat) (ts : List Token) : Except Problem (List Tree × List Token) :=
  match fuel with
  | 0 => .error .unexpectedEnd
  | fuel + 1 => do
    let (e, rest) ← operand fuel 0 ts
    match rest with
    | .op .comma :: r => do
      let (es, rest) ← someArguments fuel r
      return (e :: es, rest)
    | _ => return ([e], rest)

/-- A literal, a name, or an expression in parentheses. -/
def primary (fuel : Nat) (ts : List Token) : Except Problem (Tree × List Token) :=
  match fuel with
  | 0 => .error .unexpectedEnd
  | fuel + 1 =>
    match ts with
    | [] => .error .unexpectedEnd
    | .int n :: r => .ok (.literal (.int (Int64.ofNat n)), r)
    | .str s :: r => .ok (.literal (.str s), r)
    | .ident name :: r => .ok (named name, r)
    | .op .lparen :: r => do
      let (e, rest) ← operand fuel 0 r
      let rest ← closing .rparen rest
      return (e, rest)
    | t :: _ => .error (.unexpected t)

end

/-- Calls enough to read any list of tokens of this length. -/
def fuelFor (ts : List Token) : Nat := 8 * (ts.length + 1)

/-- A statement: an assignment, or an expression. -/
def statement (ts : List Token) : Except Problem (Statement × List Token) :=
  match ts with
  | .ident name :: .op .assign :: r => do
    let (e, rest) ← operand (fuelFor r) 0 r
    return (.assign name e, rest)
  | _ => do
    let (e, rest) ← operand (fuelFor ts) 0 ts
    return (.eval e, rest)

/-- Statements with separators before, between and behind them. -/
def statements (fuel : Nat) (ts : List Token) : Except Problem (List Statement) :=
  match fuel with
  | 0 => .ok []
  | fuel + 1 =>
    match ts.dropWhile (· = .sep) with
    | [] => .ok []
    | t :: r => do
      let (s, rest) ← statement (t :: r)
      match rest with
      | [] => return [s]
      | .sep :: r => do
        let more ← statements fuel r
        return s :: more
      | t :: _ => .error (.afterStatement t)

/-- The program that a list of tokens writes. -/
def program (ts : List Token) : Except Problem (List Statement) := statements (ts.length + 1) ts

/-- The program that a text writes. -/
def read (src : String) : Except Problem (List Statement) := do
  let ts ← lex src.toList
  program ts

end Conformance.Expr
