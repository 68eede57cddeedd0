import Conformance.Proofs.Output.Cursor

/-!
# What an expectation gives back

An expectation that is met gives back the named groups of its pattern. Only a pattern that a script writes can have
any: the others give nothing back, whether they are met or not.
-/
namespace Conformance.Output

open Text Expr

/-- The pattern has no named groups. -/
def Nameless (pattern : String) : Prop :=
  ∀ program, Regex.Program.read? (State.anchored pattern) = some program → program.names = []

theorem nameless_of_all {pattern : String}
    (h : (Regex.Program.read? (State.anchored pattern)).all (·.names.isEmpty) = true) : Nameless pattern := by
  intro program hprogram
  rw [hprogram, Option.all_some] at h
  exact List.isEmpty_iff.1 h

theorem nameless_relativeTimePattern : Nameless relativeTimePattern := nameless_of_all (by decide +kernel)

theorem nameless_isoTimePattern : Nameless isoTimePattern := nameless_of_all (by decide +kernel)

/-- The result of an expectation that gives nothing back: it is met or not, but captures nothing. -/
def Silent (r : Except Problem Outcome) : Prop :=
  ∃ outcome, r = .ok outcome ∧ ∀ text groups, outcome = .matched text groups → groups = []

theorem silent_matched (text : String) : Silent (.ok (.matched text [])) :=
  ⟨_, rfl, fun _ _ h => (Outcome.matched.inj h).2.symm⟩

theorem silent_mismatch (expected actual : String) : Silent (.ok (.mismatch expected actual)) :=
  ⟨_, rfl, fun _ _ h => by contradiction⟩

theorem silent_matchBuiltin {pattern : String} (h : Nameless pattern) (s : State) :
    Silent (.ok (s.matchBuiltin pattern).1) := by
  cases hread : Regex.Program.read? (State.anchored pattern) with
  | none =>
    rw [State.matchBuiltin, State.matchRegex, hread]
    exact silent_mismatch _ _
  | some program =>
    rw [State.matchBuiltin, State.matchRegex, hread]
    dsimp only [Prod.map]
    rw [State.matchProgram]
    cases hfind : program.find? s.skipBlanks.rest with
    | none => exact silent_mismatch _ _
    | some m =>
      have hgroups : m.groups = [] := by
        obtain ⟨found, -, hm⟩ := Option.bind_eq_some_iff.1 hfind
        rw [← Option.some.inj hm, h program hread]
        rfl
      dsimp only
      rw [hgroups]
      exact silent_matched _

/-- Only a text of a pattern gives something back. -/
theorem silent_check (s : State) {e : Expectation} (h : ∀ p, e ≠ .regex p) : Silent (s.check e).1 := by
  cases e with
  | literal text =>
    rw [State.check, State.matchLiteral]
    split
    · exact silent_matched text
    · exact silent_mismatch _ _
  | regex pattern => exact absurd rfl (h pattern)
  | json =>
    rw [State.check, State.matchJson]
    split
    · exact silent_matched _
    · exact silent_mismatch _ _
  | relativeTime =>
    rw [State.check, State.matchRelativeTime]
    exact silent_matchBuiltin nameless_relativeTimePattern s
  | isoTime =>
    rw [State.check, State.matchIsoTime]
    exact silent_matchBuiltin nameless_isoTimePattern s

end Conformance.Output
