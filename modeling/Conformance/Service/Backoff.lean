/-!
# Waiting for a service

While a service comes up it is asked again and again, first often and then less so. Times are in
nanoseconds.
-/
namespace Conformance.Service

/-- How many nanoseconds a millisecond takes. -/
def nanosPerMilli : Nat := 1000000

/-- How many nanoseconds a second takes. -/
def nanosPerSecond : Nat := 1000000000

/-- When to ask again. A phase `(until, interval)` holds while less than `until` has elapsed; behind
the last phase its interval goes on. When the ceiling is reached the wait is given up. -/
structure Backoff where
  phases : List (Nat × Nat)
  ceiling : Nat
  deriving DecidableEq, Repr, Inhabited

namespace Backoff

/-- The phases of a usual wait. -/
def usualPhases : List (Nat × Nat) :=
  [(10 * nanosPerSecond, 250 * nanosPerMilli), (20 * nanosPerSecond, nanosPerSecond),
    (60 * nanosPerSecond, 10 * nanosPerSecond), (300 * nanosPerSecond, 15 * nanosPerSecond)]

/-- The usual phases with another ceiling. -/
def withCeiling (ceiling : Nat) : Backoff := ⟨usualPhases, ceiling⟩

/-- The usual wait. -/
def usual : Backoff := withCeiling (300 * nanosPerSecond)

/-- The interval that holds after `elapsed`. -/
def interval? (b : Backoff) (elapsed : Nat) : Option Nat :=
  ((b.phases.find? fun (limit, _) => elapsed < limit).or b.phases.getLast?).map (·.2)

/-- How long to wait before the next attempt; none when the wait is to be given up. -/
def delayAfter (b : Backoff) (elapsed : Nat) : Option Nat :=
  if b.ceiling ≤ elapsed then none
  else (b.interval? elapsed).map fun interval => Nat.min interval (b.ceiling - elapsed)

end Backoff

end Conformance.Service
