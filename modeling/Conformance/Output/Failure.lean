/-!
# Recorded mismatches
-/
namespace Conformance.Output

/-- A mismatch, with what is needed to find it in the script. -/
structure Failure where
  file : String
  line : Nat
  column : Nat
  /-- The client whose output was checked. -/
  client : String
  /-- The command that produced the output, if there was one. -/
  command : Option String
  expected : String
  actual : String
  deriving DecidableEq, Repr, Inhabited

/-- Where the expectation stands. -/
def Failure.location (f : Failure) : String := s!"{f.file}:{f.line}:{f.column}"

end Conformance.Output
