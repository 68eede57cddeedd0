import Conformance.Json.Printer

/-!
# Values and environments of expressions

A value taken out of JSON is a plain value where it can be: only decimals, large integers, arrays
and objects stay JSON.
-/
namespace Conformance.Expr

open Text

/-- A value of the expression language. -/
inductive Value where
  | null
  | bool (b : Bool)
  | int (n : Int64)
  | str (s : String)
  | json (j : Json)
  deriving DecidableEq, Repr, Inhabited

namespace Value

/-- The name of the value's type in messages. -/
def typeName : Value → String
  | null => "null"
  | bool _ => "bool"
  | int _ => "int"
  | str _ => "string"
  | json _ => "json"

/-- Whether the value counts as true under `!`. -/
def truthy : Value → Bool
  | null => false
  | bool b => b
  | int n => n ≠ 0
  | str s => s ≠ ""
  | json j => j ≠ .null

/-- The value of a JSON value: a plain one if there is one of the same content. -/
def ofJson : Json → Value
  | .null => null
  | .bool b => bool b
  | .str s => str s
  | .number text =>
    match Json.int64? (.number text) with
    | some n => int n
    | none => json (.number text)
  | j => json j

/-- The text of the value, as commands and expectations see it. -/
def text : Value → String
  | null => "null"
  | bool b => if b then "true" else "false"
  | int n => toString n.toInt
  | str s => s
  | json j => j.compact

/-- Whether the value is JSON that has no plain form, or is plain. -/
def isNormal : Value → Bool
  | json j => ofJson j = json j
  | _ => true

end Value

/-- The variables of a run, each name once. -/
structure Env where
  bindings : List (String × Value) := []
  deriving DecidableEq, Repr, Inhabited

namespace Env

/-- The environment without variables. -/
def empty : Env := ⟨[]⟩

/-- The value of the variable, if there is one. -/
def get? (env : Env) (name : String) : Option Value := env.bindings.lookup name

/-- The bindings with the variable set. -/
def bind (name : String) (v : Value) : List (String × Value) → List (String × Value)
  | [] => [(name, v)]
  | (k, w) :: r => if name = k then (name, v) :: r else (k, w) :: bind name v r

/-- The environment with the variable set. -/
def set (env : Env) (name : String) (v : Value) : Env := ⟨bind name v env.bindings⟩

/-- A variable that was set has the value it was set to. -/
@[simp] theorem get?_set_self (env : Env) (name : String) (v : Value) :
    (env.set name v).get? name = some v := by
  obtain ⟨bindings⟩ := env
  simp only [set, get?]
  induction bindings with
  | nil => simp [bind]
  | cons b r ih =>
    obtain ⟨k, w⟩ := b
    by_cases h : name = k
    · simp [bind, h]
    · simp [bind, h, List.lookup_cons, beq_eq_false_iff_ne.2 h, ih]

/-- Setting a variable leaves all others as they are. -/
@[simp] theorem get?_set_of_ne (env : Env) {name other : String} (v : Value) (h : other ≠ name) :
    (env.set name v).get? other = env.get? other := by
  obtain ⟨bindings⟩ := env
  simp only [set, get?]
  induction bindings with
  | nil => simp [bind, List.lookup_cons, beq_eq_false_iff_ne.2 h]
  | cons b r ih =>
    obtain ⟨k, w⟩ := b
    by_cases hk : name = k
    · subst hk
      simp [bind, List.lookup_cons, beq_eq_false_iff_ne.2 h]
    · by_cases ho : other = k
      · subst ho; simp [bind, hk]
      · simp [bind, hk, List.lookup_cons, beq_eq_false_iff_ne.2 ho, ih]

end Env

end Conformance.Expr
