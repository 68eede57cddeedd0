import Conformance.Json.Scan

/-!
# The outline of a JSON text

A message is taken apart into the texts of its members or items, which are then read one by one, each
as what it has to be. What no reader asks for is only checked for its form.
-/
namespace Conformance.Json

open Text

/-- The parts of an object or an array, each as the text it is written with. -/
inductive Outline where
  | object (members : List (String × List Char))
  | array (items : List (List Char))
  deriving Repr, Inhabited

/-- The text of the value at the start of `cs`, and the text behind it. -/
def valueText? (cs : List Char) : Option (List Char × List Char) :=
  (skipValue? (fuelFor cs) cs).map fun rest => (cs.take (cs.length - rest.length), rest)

/-- The texts of the items of an array up to its closing bracket, at least one. -/
def itemTexts? (fuel : Nat) (cs : List Char) : Option (List (List Char) × List Char) :=
  match fuel with
  | 0 => none
  | fuel + 1 =>
    match valueText? cs with
    | none => none
    | some (v, r) =>
      match skipSpace r with
      | ',' :: r => (itemTexts? fuel r).map fun (vs, rest) => (v :: vs, rest)
      | ']' :: r => some ([v], r)
      | _ => none

/-- The names and texts of the members of an object up to its closing brace, at least one. -/
def memberTexts? (fuel : Nat) (cs : List Char) :
    Option (List (String × List Char) × List Char) :=
  match fuel with
  | 0 => none
  | fuel + 1 =>
    match skipSpace cs with
    | '"' :: r =>
      match stringBody? r with
      | none => none
      | some (name, r) =>
        match skipSpace r with
        | ':' :: r =>
          match valueText? r with
          | none => none
          | some (v, r) =>
            match skipSpace r with
            | ',' :: r =>
              (memberTexts? fuel r).map fun (ms, rest) => ((String.ofList name, v) :: ms, rest)
            | '}' :: r => some ([(String.ofList name, v)], r)
            | _ => none
        | _ => none
    | _ => none

/-- The outline at the start of a text, and the text behind it. -/
def outlineAt? (cs : List Char) : Option (Outline × List Char) :=
  match skipSpace cs with
  | '{' :: r =>
    match skipSpace r with
    | '}' :: r => some (.object [], r)
    | r => (memberTexts? (r.length + 1) r).map fun (ms, rest) => (.object ms, rest)
  | '[' :: r =>
    match skipSpace r with
    | ']' :: r => some (.array [], r)
    | r => (itemTexts? (r.length + 1) r).map fun (vs, rest) => (.array vs, rest)
  | _ => none

/-- The outline of the whole text. -/
def outline? (cs : List Char) : Option Outline :=
  match outlineAt? cs with
  | some (o, rest) => if (skipSpace rest).isEmpty then some o else none
  | none => none

/-- The texts of the fields of an outline, in order. The members of an object are found by name, and
no field may occur twice; the items of an array are the first fields, and there are no more items
than fields. -/
def Outline.fields? (names : List String) : Outline → Option (List (Option (List Char)))
  | .object members =>
    if names.all fun n => (members.filter (·.1 = n)).length ≤ 1 then
      some (names.map fun n => members.lookup n)
    else none
  | .array items =>
    if items.length ≤ names.length then
      some (items.map some ++ List.replicate (names.length - items.length) none)
    else none

end Conformance.Json
