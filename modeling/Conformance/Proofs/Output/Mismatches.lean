import Mathlib.Data.List.DropRight
import Conformance.Proofs.Output.Cursor

/-!
# Counting mismatches

The state of the output counts the expectations that have failed: all of them, and whether one has since the last
capture. What is counted are the mismatches that the matching itself has produced, one by one, over any sequence of
captures and expectations.
-/
namespace Conformance.Output

open Text Expr

/-- What a mismatch shows as expected and as there instead. -/
def mismatch? : Except Problem Outcome → Option (String × String)
  | .ok (.mismatch expected actual) => some (expected, actual)
  | _ => none

/-- The text that was taken. -/
def matched? : Except Problem Outcome → Option String
  | .ok (.matched text _) => some text
  | _ => none

/-- The results of the expectations among operations, in order. -/
def State.outcomes (s : State) : List Op → List (Except Problem Outcome)
  | [] => []
  | .reset output :: ops => (s.reset output).outcomes ops
  | .expect e :: ops => (s.check e).1 :: (s.check e).2.outcomes ops

/-- The mismatches that operations produce, in order. -/
def State.mismatches (s : State) : List Op → List (String × String)
  | [] => []
  | .reset output :: ops => (s.reset output).mismatches ops
  | .expect e :: ops => (mismatch? (s.check e).1).toList ++ (s.check e).2.mismatches ops

/-- Whether the operation is an expectation. -/
def Op.isExpectation : Op → Bool
  | .reset _ => false
  | .expect _ => true

variable {s : State}

theorem outcomes_append (s : State) (front back : List Op) :
    s.outcomes (front ++ back) = s.outcomes front ++ (front.foldl State.apply s).outcomes back := by
  induction front generalizing s with
  | nil => rfl
  | cons op front ih =>
    cases op with
    | reset output => exact ih (s.reset output)
    | expect e => exact congrArg ((s.check e).1 :: ·) (ih (s.check e).2)

theorem mismatches_eq (s : State) (ops : List Op) : s.mismatches ops = (s.outcomes ops).filterMap mismatch? := by
  induction ops generalizing s with
  | nil => rfl
  | cons op ops ih =>
    cases op with
    | reset output => exact ih (s.reset output)
    | expect e =>
      rw [State.mismatches, State.outcomes, List.filterMap_cons, ih]
      cases mismatch? (s.check e).1 <;> rfl

theorem mismatches_append (s : State) (front back : List Op) :
    s.mismatches (front ++ back) = s.mismatches front ++ (front.foldl State.apply s).mismatches back := by
  rw [mismatches_eq, mismatches_eq, mismatches_eq, outcomes_append, List.filterMap_append]

/-! ## One expectation -/

/-- The counts agree with the result of an expectation. -/
structure Counted (s : State) (r : Except Problem Outcome × State) : Prop where
  failureCount : r.2.failureCount = s.failureCount + (mismatch? r.1).toList.length
  hasFailed : r.2.hasFailed = (s.hasFailed || (mismatch? r.1).isSome)

theorem counted_matched (s : State) (skipped taken : List Char) (text : String) (groups : Captures) :
    Counted s (.ok (.matched text groups), (s.take skipped).take taken) :=
  ⟨rfl, (Bool.or_false _).symm⟩

theorem counted_mismatch (s : State) (skipped taken : List Char) (expected actual : String) :
    Counted s (.ok (.mismatch expected actual), ((s.take skipped).take taken).countFailure) :=
  ⟨rfl, (Bool.or_true _).symm⟩

theorem counted_error (s : State) (skipped : List Char) (p : Problem) : Counted s (.error p, s.take skipped) :=
  ⟨rfl, (Bool.or_false _).symm⟩

theorem counted_matchRegex (s : State) (pattern : String) : Counted s (s.matchRegex pattern) := by
  rw [State.matchRegex]
  cases Regex.Program.read? (State.anchored pattern) with
  | none => exact counted_error s _ _
  | some program =>
    dsimp only [Prod.map]
    rw [State.matchProgram]
    cases program.find? s.skipBlanks.rest with
    | some found => exact counted_matched s _ _ _ _
    | none => exact counted_mismatch s _ _ _ _

theorem counted_matchBuiltin (s : State) (pattern : String) :
    Counted s ((s.matchBuiltin pattern).map .ok id) := by
  have hcounted := counted_matchRegex s pattern
  rw [State.matchBuiltin]
  cases hread : Regex.Program.read? (State.anchored pattern) with
  | some program =>
    rw [State.matchRegex, hread] at hcounted ⊢
    exact hcounted
  | none =>
    rw [State.matchRegex, hread]
    exact counted_mismatch s _ _ _ _

/-- A failed expectation is counted once, and nothing else is counted. A pattern that cannot be read is no failure of
the output. -/
theorem counted_check (s : State) (e : Expectation) : Counted s (s.check e) := by
  cases e with
  | literal text =>
    rw [State.check, State.matchLiteral]
    split
    · exact counted_matched s _ _ _ _
    · exact counted_mismatch s _ _ _ _
  | regex pattern => exact counted_matchRegex s pattern
  | json =>
    rw [State.check, State.matchJson]
    split
    · exact counted_matched s _ _ _ _
    · exact counted_mismatch s _ _ _ _
  | relativeTime => exact counted_matchBuiltin s relativeTimePattern
  | isoTime => exact counted_matchBuiltin s isoTimePattern

/-! ## All operations -/

/-- The count of failures is that of the mismatches. -/
theorem failureCount_foldl (s : State) (ops : List Op) :
    (ops.foldl State.apply s).failureCount = s.failureCount + (s.mismatches ops).length := by
  induction ops generalizing s with
  | nil => rfl
  | cons op ops ih =>
    cases op with
    | reset output => exact ih (s.reset output)
    | expect e =>
      rw [List.foldl_cons, ih, State.mismatches, List.length_append, ← Nat.add_assoc]
      exact congrArg (· + _) (counted_check s e).failureCount

theorem hasFailed_foldl (s : State) {ops : List Op} (h : ∀ op ∈ ops, op.isExpectation = true) :
    (ops.foldl State.apply s).hasFailed = (s.hasFailed || !(s.mismatches ops).isEmpty) := by
  induction ops generalizing s with
  | nil => exact (Bool.or_false _).symm
  | cons op ops ih =>
    obtain ⟨hop, hops⟩ := List.forall_mem_cons.1 h
    cases op with
    | reset output => contradiction
    | expect e =>
      have happly : (s.apply (.expect e)).hasFailed = (s.hasFailed || (mismatch? (s.check e).1).isSome) :=
        (counted_check s e).hasFailed
      have hstate : s.apply (.expect e) = (s.check e).2 := rfl
      rw [List.foldl_cons, ih _ hops, happly, hstate, State.mismatches]
      cases mismatch? (s.check e).1 with
      | none => simp
      | some p => simp

/-- The expectations behind the last capture. -/
def sinceReset (ops : List Op) : List Op := ops.rtakeWhile (·.isExpectation)

/-- The mismatches behind the last capture. -/
def mismatchesSinceReset (ops : List Op) : List (String × String) :=
  (run (ops.rdropWhile (·.isExpectation))).mismatches (sinceReset ops)

/-- An expectation counts as failed exactly if there has been a mismatch since the last capture. -/
theorem hasFailed_run_iff (ops : List Op) :
    (run ops).hasFailed = true ↔ mismatchesSinceReset ops ≠ [] := by
  have hsplit : ops.rdropWhile (·.isExpectation) ++ sinceReset ops = ops := List.rdropWhile_append_rtakeWhile
  -- The operations in front either are none or end with a capture.
  have hfront : (run (ops.rdropWhile (·.isExpectation))).hasFailed = false := by
    obtain hnil | ⟨front, op, hfront⟩ := List.eq_nil_or_concat (ops.rdropWhile (·.isExpectation))
    · rw [hnil]
      rfl
    · have hne : ops.rdropWhile (·.isExpectation) ≠ [] := by
        rw [hfront]
        simp
      have hlast := List.rdropWhile_last_not (·.isExpectation) ops hne
      cases op with
      | reset output =>
        rw [hfront, List.concat_eq_append, run_concat]
        rfl
      | expect e =>
        simp only [hfront, List.concat_eq_append, List.getLast_concat] at hlast
        exact absurd rfl hlast
  have hexpectations : ∀ op ∈ sinceReset ops, op.isExpectation = true := by
    intro op hop
    exact List.mem_rtakeWhile_imp hop
  have hrun : run ops = (sinceReset ops).foldl State.apply (run (ops.rdropWhile (·.isExpectation))) := by
    rw [run, run, ← List.foldl_append, hsplit]
  rw [hrun, hasFailed_foldl _ hexpectations, hfront, Bool.false_or, mismatchesSinceReset]
  simp

end Conformance.Output
