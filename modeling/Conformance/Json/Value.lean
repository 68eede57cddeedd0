import Conformance.Text.Decimal

/-!
# JSON values

A number is kept as the text it was written with, so no decimal loses a digit. The members of an
object are kept in the order of their names, each name once.
-/
namespace Conformance

/-- A JSON value. -/
inductive Json where
  | null
  | bool (b : Bool)
  | number (text : String)
  | str (s : String)
  | arr (items : List Json)
  | obj (members : List (String × Json))
  deriving Repr, Inhabited

namespace Json

mutual

/-- Equality of values is decidable; numbers are compared by their texts. -/
def decideEq : (a b : Json) → Decidable (a = b)
  | .null, .null => isTrue rfl
  | .bool a, .bool b => if h : a = b then isTrue (h ▸ rfl) else isFalse (by simp [h])
  | .number a, .number b => if h : a = b then isTrue (h ▸ rfl) else isFalse (by simp [h])
  | .str a, .str b => if h : a = b then isTrue (h ▸ rfl) else isFalse (by simp [h])
  | .arr a, .arr b =>
    match decideEqItems a b with
    | isTrue h => isTrue (h ▸ rfl)
    | isFalse h => isFalse (by simp [h])
  | .obj a, .obj b =>
    match decideEqMembers a b with
    | isTrue h => isTrue (h ▸ rfl)
    | isFalse h => isFalse (by simp [h])
  | .null, .bool _ | .null, .number _ | .null, .str _ | .null, .arr _ | .null, .obj _
  | .bool _, .null | .bool _, .number _ | .bool _, .str _ | .bool _, .arr _ | .bool _, .obj _
  | .number _, .null | .number _, .bool _ | .number _, .str _ | .number _, .arr _
  | .number _, .obj _
  | .str _, .null | .str _, .bool _ | .str _, .number _ | .str _, .arr _ | .str _, .obj _
  | .arr _, .null | .arr _, .bool _ | .arr _, .number _ | .arr _, .str _ | .arr _, .obj _
  | .obj _, .null | .obj _, .bool _ | .obj _, .number _ | .obj _, .str _ | .obj _, .arr _ =>
    isFalse (by simp)

/-- Equality of lists of values is decidable. -/
def decideEqItems : (a b : List Json) → Decidable (a = b)
  | [], [] => isTrue rfl
  | [], _ :: _ | _ :: _, [] => isFalse (by simp)
  | x :: xs, y :: ys =>
    match decideEq x y, decideEqItems xs ys with
    | isTrue h, isTrue hs => isTrue (h ▸ hs ▸ rfl)
    | isFalse h, _ => isFalse (by simp [h])
    | _, isFalse hs => isFalse (by simp [hs])

/-- Equality of lists of members is decidable. -/
def decideEqMembers : (a b : List (String × Json)) → Decidable (a = b)
  | [], [] => isTrue rfl
  | [], _ :: _ | _ :: _, [] => isFalse (by simp)
  | (k, x) :: xs, (l, y) :: ys =>
    if hk : k = l then
      match decideEq x y, decideEqMembers xs ys with
      | isTrue h, isTrue hs => isTrue (h ▸ hk ▸ hs ▸ rfl)
      | isFalse h, _ => isFalse (by simp [h])
      | _, isFalse hs => isFalse (by simp [hs])
    else isFalse (by simp [hk])

end

instance : DecidableEq Json := decideEq

/-- The value as a number, from an integer. -/
def ofInt (n : Int) : Json := .number (toString n)

/-- The value as a number, from a natural number. -/
def ofNat (n : Nat) : Json := .number (toString n)

/-- The members with `name` set to `v`, in the order of the names. -/
def insertMember (name : String) (v : Json) : List (String × Json) → List (String × Json)
  | [] => [(name, v)]
  | (k, w) :: r =>
    if name = k then (name, v) :: r
    else if name < k then (name, v) :: (k, w) :: r
    else (k, w) :: insertMember name v r

/-- The object with these members; of two members of one name the later counts. -/
def ofMembers (members : List (String × Json)) : Json :=
  .obj (members.foldl (fun acc (k, v) => insertMember k v acc) [])

/-- The member called `name` of an object. -/
def member? (name : String) : Json → Option Json
  | .obj members => members.lookup name
  | _ => none

/-- The 64-bit integer that the value is, if it is a number written as an integer in that range. -/
def int64? : Json → Option Int64
  | .number text => Text.readInt64? text.toList
  | _ => none

/-- The unsigned 64-bit integer that the value is. -/
def word? : Json → Option Nat
  | .number text => Text.readBelow? 10 Text.wordBound text.toList
  | _ => none

/-- The string that the value is. -/
def str? : Json → Option String
  | .str s => some s
  | _ => none

end Json

end Conformance
