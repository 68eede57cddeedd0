/-!
# Words of a command

The words of a command line are written with quotes and with parameters to be filled in. Filling in an
unquoted parameter may give several fields, or none; a quoted one belongs to the field it stands in.
-/
namespace Conformance.Machine

/-- A part of a word. -/
inductive Piece where
  /-- Characters without quotes. -/
  | bare (s : String)
  | quoted (s : String)
  /-- The value of a parameter. -/
  | param (name : String) (isQuoted : Bool)
  /-- All arguments: each as a field of its own if quoted. -/
  | args (isQuoted : Bool)
  deriving DecidableEq, Repr, Inhabited

/-- A word as it is written. -/
abbrev Word := List Piece

/-- The characters of a word without quotes or parameters. -/
def bareText? : Word → Option String
  | [.bare s] => some s
  | _ => none

/-- What parameters stand for. -/
structure Parameters where
  /-- The value of a single parameter. -/
  value : String → String
  args : List String

/-- The fields of a word that is being filled in: those that are complete, and the one that is still
growing. -/
structure Fields where
  done : List String := []
  growing : Option String := none
  deriving DecidableEq, Repr, Inhabited

namespace Fields

/-- Characters that belong to the growing field. -/
def grow (s : String) (f : Fields) : Fields := { f with growing := some (f.growing.getD "" ++ s) }

/-- The growing field is complete. -/
def complete (f : Fields) : Fields := { done := f.done ++ f.growing.toList, growing := none }

/-- Separates the fields of a value. -/
def isSeparator (c : Char) : Bool := c = ' ' || c = '\t' || c = '\n'

/-- An unquoted value, which falls into fields at its separators. -/
def split (s : String) (f : Fields) : Fields :=
  s.toList.foldl (fun f c => if isSeparator c then f.complete else f.grow c.toString) f

/-- Values that are fields of their own; the first one still belongs to the growing field. -/
def each (add : String → Fields → Fields) (f : Fields) : List String → Fields
  | [] => f
  | [s] => add s f
  | s :: rest => each add (add s f).complete rest

/-- The fields that the pieces give. -/
def fill (p : Parameters) (f : Fields) : Word → Fields
  | [] => f
  | .bare s :: rest | .quoted s :: rest => fill p (f.grow s) rest
  | .param name true :: rest => fill p (f.grow (p.value name)) rest
  | .param name false :: rest => fill p (f.split (p.value name)) rest
  | .args true :: rest => fill p (f.each grow p.args) rest
  | .args false :: rest => fill p (f.each split p.args) rest

end Fields

/-- The fields that a word stands for. -/
def fieldsOf (p : Parameters) (w : Word) : List String := ((Fields.fill p {} w).complete).done

/-- The text that a word stands for where fields do not matter. -/
def textOf (p : Parameters) : Word → String
  | [] => ""
  | .bare s :: rest | .quoted s :: rest => s ++ textOf p rest
  | .param name _ :: rest => p.value name ++ textOf p rest
  | .args _ :: rest => " ".intercalate p.args ++ textOf p rest

end Conformance.Machine
