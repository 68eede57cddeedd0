import Conformance.Expr.Parser

/-!
# Evaluating programs

Operands are evaluated from left to right, and a problem ends the evaluation where it arises. The
functions that compare output are served by a host, which has a state of its own.
-/
namespace Conformance.Expr

open Text

/-- What a program can demand of the output. -/
inductive Expectation where
  /-- This text. -/
  | literal (s : String)
  /-- A text of this pattern. -/
  | regex (pattern : String)
  /-- One JSON value. -/
  | json
  /-- A relative time. -/
  | relativeTime
  /-- A date with a time of day. -/
  | isoTime
  deriving DecidableEq, Repr, Inhabited

/-- The named groups of a pattern that took part in a match, and what they matched. -/
abbrev Captures := List (String × String)

/-- Checks an expectation and gives back what its groups captured. -/
abbrev Host (σ : Type) := Expectation → EStateM Fault σ Captures

/-- A built-in function. -/
inductive Builtin where
  | str
  | int
  | len
  | expectStr
  | expectRegex
  | expectJson
  | expectRelativeTime
  | expectIsoTime
  deriving DecidableEq, Repr, Inhabited

namespace Builtin

/-- The function called by this name. -/
def ofName? (name : String) : Option Builtin :=
  [("str", str), ("int", int), ("len", len), ("expect_str", expectStr),
    ("expect_regex", expectRegex), ("regex", expectRegex), ("expect_json", expectJson),
    ("expect_reltime", expectRelativeTime), ("expect_isotime", expectIsoTime)].lookup name

/-- How many arguments the function takes. -/
def arity : Builtin → Nat
  | str | int | len | expectStr | expectRegex => 1
  | expectJson | expectRelativeTime | expectIsoTime => 0

end Builtin

/-- The integer `n`, if it is in range. -/
def checked (n : Int) : Except Problem Value :=
  match int64? n with
  | some i => .ok (.int i)
  | none => .error .overflow

/-- A sign applied to a value. -/
def applySign (s : Sign) (v : Value) : Except Problem Value :=
  match s, v with
  | .negate, .int n => checked (-n.toInt)
  | .negate, v => .error (.operand .minus v.typeName)
  | .not, v => .ok (.bool (!v.truthy))

/-- An operator applied to two integers. A remainder belongs to a quotient, so it is out of range
with it. -/
def applyInts (o : Binary) (a b : Int64) : Except Problem Value :=
  match o with
  | .eq => .ok (.bool (a = b))
  | .ne => .ok (.bool (a ≠ b))
  | .add => checked (a.toInt + b.toInt)
  | .sub => checked (a.toInt - b.toInt)
  | .mul => checked (a.toInt * b.toInt)
  | .div => if b = 0 then .error .divisionByZero else checked (a.toInt.tdiv b.toInt)
  | .rem =>
    if b = 0 then .error .divisionByZero
    else if (int64? (a.toInt.tdiv b.toInt)).isNone then .error .overflow
    else checked (a.toInt.tmod b.toInt)

/-- An operator applied to two values. -/
def applyBinary (o : Binary) (l r : Value) : Except Problem Value :=
  match o, l, r with
  | .eq, l, r => .ok (.bool (l = r))
  | .ne, l, r => .ok (.bool (l ≠ r))
  | o, .int a, .int b => applyInts o a b
  | .add, .str a, r => .ok (.str (a ++ r.text))
  | .add, l, .str b => .ok (.str (l.text ++ b))
  | o, l, r => .error (.operands o.op l.typeName r.typeName)

/-- The element of `items` at the index `i`. -/
def elementAt {α : Type} (items : List α) (i : Int64) : Except Problem α :=
  if i < 0 then .error (.missingIndex i)
  else
    match items[i.toNatClampNeg]? with
    | some item => .ok item
    | none => .error (.missingIndex i)

/-- The element of a value: a member of an object by name, an item of an array or a character of a
string by position. -/
def applyIndex (target index : Value) : Except Problem Value :=
  match target, index with
  | .json (.obj members), .str key =>
    match members.lookup key with
    | some v => .ok (.ofJson v)
    | none => .error (.missingKey key)
  | .json (.arr items), .int i => (elementAt items i).map .ofJson
  | .str s, .int i => (elementAt s.toList i).map fun c => .str (String.singleton c)
  | t, i => .error (.notIndexable t.typeName i.typeName)

/-- The integer that a value stands for. -/
def toInt (v : Value) : Except Problem Value :=
  match v with
  | .int n => .ok (.int n)
  | .bool b => .ok (.int (if b then 1 else 0))
  | .str s =>
    match readInt64? (trim s.toList) with
    | some n => .ok (.int n)
    | none => .error (.notInteger s)
  | v => .error (.noInteger v.typeName)

/-- The number of characters, items or members of a value. -/
def lengthOf (v : Value) : Except Problem Value :=
  let size : Except Problem Nat :=
    match v with
    | .str s => .ok s.toList.length
    | .json (.arr items) => .ok items.length
    | .json (.obj members) => .ok members.length
    | v => .error (.noLength v.typeName)
  size.bind fun n =>
    match int64? n with
    | some n => .ok (.int n)
    | none => .error .lengthTooLarge

/-- The object of captured texts. -/
def capturesObject (captures : Captures) : Value :=
  .json (Json.ofMembers (captures.map fun (name, text) => (name, .str text)))

section Evaluation

variable {σ : Type} (host : Host σ)

/-- Carries on with a result, or fails with the problem. -/
def orFail {α : Type} : Except Problem α → EStateM Fault σ α
  | .ok v => pure v
  | .error p => throw p.fault

/-- A built-in function, called by `name`, applied to values. -/
def applyBuiltin (f : Builtin) (name : String) (args : List Value) : EStateM Fault σ Value :=
  match f, args with
  | .str, [v] => pure (.str v.text)
  | .int, [v] => orFail (toInt v)
  | .len, [v] => orFail (lengthOf v)
  | .expectStr, [v] => do
    let _ ← host (.literal v.text)
    return .null
  | .expectRegex, [.str pattern] => do
    let captures ← host (.regex pattern)
    return capturesObject captures
  | .expectRegex, [_] => throw (Problem.patternType name).fault
  | .expectJson, [] => do
    let _ ← host .json
    return .null
  | .expectRelativeTime, [] => do
    let _ ← host .relativeTime
    return .null
  | .expectIsoTime, [] => do
    let _ ← host .isoTime
    return .null
  | f, args => throw (Problem.arity name f.arity args.length).fault

mutual

/-- The value of an expression. -/
def evalTree (env : Env) : Tree → EStateM Fault σ Value
  | .literal v => pure v
  | .var name =>
    match env.get? name with
    | some v => pure v
    | none => throw (Problem.undefined name).fault
  | .sign s e => do
    let v ← evalTree env e
    orFail (applySign s v)
  | .binary o l r => do
    let a ← evalTree env l
    let b ← evalTree env r
    orFail (applyBinary o a b)
  | .index t i => do
    let target ← evalTree env t
    let index ← evalTree env i
    orFail (applyIndex target index)
  | .call name args => do
    let values ← evalTrees env args
    match Builtin.ofName? name with
    | some f => applyBuiltin host f name values
    | none => throw (Problem.unknownFunction name).fault

/-- The values of expressions, from left to right. -/
def evalTrees (env : Env) : List Tree → EStateM Fault σ (List Value)
  | [] => pure []
  | e :: es => do
    let v ← evalTree env e
    let vs ← evalTrees env es
    return v :: vs

end

/-- An expression evaluated beside the environment that it only reads. -/
def evalBeside (e : Tree) : EStateM Fault (Env × σ) Value := fun (env, s) =>
  match evalTree host env e s with
  | .ok v s => .ok v (env, s)
  | .error f s => .error f (env, s)

/-- A statement carried out. An assignment has no value of its own. -/
def runStatement : Statement → EStateM Fault (Env × σ) Value
  | .assign name e => do
    let v ← evalBeside host e
    modify fun (env, s) => (env.set name v, s)
    return .null
  | .eval e => evalBeside host e

/-- Statements carried out in order. The value is that of the last one, or `last` without any. -/
def runStatements (last : Value) : List Statement → EStateM Fault (Env × σ) Value
  | [] => pure last
  | s :: rest => do
    let v ← runStatement host s
    runStatements v rest

/-- A program text read as a whole and then carried out. -/
def eval (src : String) : EStateM Fault (Env × σ) Value :=
  match read src with
  | .ok statements => runStatements host .null statements
  | .error p => throw p.fault

end Evaluation

end Conformance.Expr
