import Conformance.Service.Backoff
import Conformance.Service.Call

/-!
# Waiting for a service

A service that has just been launched is asked for its status again and again, at growing intervals, until
it answers or the ceiling of the schedule is reached.
-/
namespace Conformance.Service

variable {σ : Type}

/-- A carrier that can wait as well. -/
structure TimedCarrier (σ : Type) extends Carrier σ where
  /-- The time in nanoseconds. -/
  now : σ → Nat
  /-- Waits for so many nanoseconds at least, unless something makes waiting pointless. -/
  sleep : Nat → σ → Except Fault Unit × σ

namespace Caller

/-- Asks for the status until it comes, at most `n` times. `start` is the time of the first attempt. -/
def awaitReadyFrom (t : TimedCarrier σ) (schedule : Backoff) (start : Nat) :
    Nat → Caller → σ → Except Fault Unit × Caller × σ
  | 0, caller, s => (.error (.readyTimeout (schedule.ceiling / nanosPerSecond)), caller, s)
  | n + 1, caller, s =>
    match caller.call t.toCarrier statusMethod [] s with
    | (.ok _, caller, s) => (.ok (), caller, s)
    | (.error .cancelled, caller, s) => (.error .cancelled, caller, s)
    | (.error _, caller, s) =>
      match schedule.delayAfter (t.now s - start) with
      | none => (.error (.readyTimeout (schedule.ceiling / nanosPerSecond)), caller, s)
      | some delay =>
        match t.sleep delay s with
        | (.error f, s) => (.error f, caller, s)
        | (.ok (), s) => awaitReadyFrom t schedule start n caller s

/-- Asks for the status until it comes or the ceiling of the schedule is reached. As every wait takes a
nanosecond at least, so many attempts are enough. -/
def awaitReady (t : TimedCarrier σ) (schedule : Backoff) (caller : Caller) (s : σ) :
    Except Fault Unit × Caller × σ :=
  awaitReadyFrom t schedule (t.now s) (schedule.ceiling + 1) caller s

end Caller

end Conformance.Service
