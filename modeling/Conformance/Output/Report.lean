import Conformance.Output.Diff
import Conformance.Output.Failure

/-!
# The report of a run

Every mismatch is shown by its place, its client and command, and the difference between the
expected and the actual text.
-/
namespace Conformance.Output

/-- The text with its last line ended. -/
def withNewline (s : String) : String := if s.toList.getLast? = some '\n' then s else s ++ "\n"

/-- The section of one mismatch. -/
def failureText (f : Failure) : String :=
  let command := match f.command with
    | some c => s!" >>> {c}"
    | none => ""
  s!"{f.location} [{f.client}]{command}\n" ++
    unified "expected" "actual" (.ofTexts (withNewline f.expected) (withNewline f.actual))

/-- The sections of all mismatches, in order. -/
def render (failures : List Failure) : String := String.join (failures.map failureText)

/-- The list without elements that are equal to the one before. -/
def dropRepeats {α : Type} [DecidableEq α] : List α → List α
  | [] => []
  | [a] => [a]
  | a :: b :: r => if a = b then dropRepeats (b :: r) else a :: dropRepeats (b :: r)

/-- The number of mismatches and the number of changes of client and command among them. -/
def summary (failures : List Failure) : String :=
  let commands := (dropRepeats (failures.map fun f => (f.client, f.command))).length
  let count := failures.length
  let es := if count = 1 then "" else "es"
  let s := if commands = 1 then "" else "s"
  s!"{count} mismatch{es} in {commands} command{s}"

end Conformance.Output
