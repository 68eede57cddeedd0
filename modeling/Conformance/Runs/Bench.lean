import Conformance.Ports.Allocator
import Conformance.Script.Run
import Conformance.Service.Handle
import Conformance.Service.Ready

/-!
# What one run works with

A run has a world, a range of ports, a time at which it is called off, and for each client a caller and
perhaps a handle. Whoever waits on a bench waits until the time is over, until the run is called off, or
until a watched process is seen to have ended. After that, every further wait is cancelled at once.
-/
namespace Conformance.Runs

open Service

/-- A process that is looked at from time to time. -/
structure Watch where
  pid : Nat
  /-- The time of the next look. -/
  next : Nat
  /-- How the process had ended when it was looked at. -/
  seen : Option ExitStatus := none
  deriving DecidableEq, Repr, Inhabited

/-- What one run works with. -/
structure Bench (σ : Type) where
  world : World σ
  ports : Ports.Allocator
  /-- The time at which the run is called off. -/
  limit : Nat
  /-- How many milliseconds an exchange may take. -/
  patience : Nat
  calledOff : Bool := false
  watch : Option Watch := none
  callers : List (String × Service.Caller) := []
  handles : List (String × Handle) := []

/-- The entries with the one of this name set. -/
def put {α : Type} (name : String) (a : α) : List (String × α) → List (String × α)
  | [] => [(name, a)]
  | (n, b) :: r => if n = name then (n, a) :: r else (n, b) :: put name a r

namespace Bench

variable {σ : Type} (o : Outside σ)

/-- Whether waiting has become pointless. -/
def isOver (b : Bench σ) : Bool := b.calledOff || b.watch.any (·.seen.isSome)

/-- Looks at the watched process, if it is time to. -/
def look (b : Bench σ) : Bench σ :=
  match b.watch with
  | none => b
  | some w =>
    if b.world.now < w.next then b
    else
      { b with watch := some { w with
          next := w.next + pollInterval
          seen := o.status w.pid b.world.outside } }

/-- The bench with the time passed up to `time`. -/
def passUntil (time : Nat) (b : Bench σ) : Bench σ :=
  let ms := time - b.world.now
  let (disk, outside) := o.pass ms b.world.disk b.world.outside
  { b with world := { b.world with disk, outside, now := b.world.now + ms } }

/-- Waits up to `time`, with at most `n` looks at the watched process on the way. -/
def waitUntil (time : Nat) : Nat → Bench σ → Bench σ
  | 0, b => b
  | n + 1, b =>
    if b.isOver || time ≤ b.world.now then b
    else
      let look := (b.watch.map (·.next)).getD time
      let stop := Nat.min (Nat.min time b.limit) look
      let b := b.passUntil o stop
      if b.limit ≤ stop then { b with calledOff := true }
      else waitUntil time n (b.look o)

/-- Waits for so many milliseconds. -/
def wait (ms : Nat) (b : Bench σ) : Bench σ :=
  b.waitUntil o (b.world.now + ms) (ms / pollInterval + 2)

/-- Waits for so many milliseconds, and tells whether they are over. -/
def sleep (ms : Nat) (b : Bench σ) : Except Fault Unit × Bench σ :=
  let b := b.wait o ms
  (if b.isOver then .error .cancelled else .ok (), b)

/-- Sends a request and waits for the reply. -/
def exchange (endpoint : Endpoint) (request : Request) (b : Bench σ) : Exchange × Bench σ :=
  if b.isOver then (.cancelled, b)
  else
    let (reply, ms, outside) := o.exchange endpoint request b.world.outside
    let b := { b with world := { b.world with outside } }
    let b := b.wait o (Nat.min ms b.patience)
    if b.isOver then (.cancelled, b)
    else if b.patience < ms then (.lost "request timed out", b)
    else (reply, b)

/-- How requests travel from the bench, whose clock counts milliseconds. A wait takes no less time than asked for. -/
def carrier : TimedCarrier (Bench σ) where
  exchange := exchange o
  now b := b.world.now * nanosPerMilli
  sleep delay := sleep o ((delay + (nanosPerMilli - 1)) / nanosPerMilli)

/-- How the commands of scripts reach the services. -/
def link : Script.Link (Bench σ) where
  send name line b :=
    match b.callers.lookup name with
    | none => (.error (.unknownClient name), b)
    | some caller =>
      let (result, caller, b) := caller.execute (carrier o).toCarrier line b
      (result, { b with callers := put name caller b.callers })

end Bench

/-! ## Actions of a run -/

section Actions

variable {σ : Type}

/-- Does something to the world of a run. -/
def onWorld {α : Type} (e : Effect σ α) : Script.Action (Bench σ) α := fun s =>
  match e s.link.world with
  | .ok a world => .ok a { s with link := { s.link with world } }
  | .error f world => .error f { s with link := { s.link with world } }

/-- Changes the bench of a run. -/
def onBench (f : Bench σ → Bench σ) : Script.Action (Bench σ) Unit :=
  modify fun s => { s with link := f s.link }

/-- Sets a variable of a run. -/
def setVariable (name : String) (value : Expr.Value) : Script.Action (Bench σ) Unit :=
  modify fun s => { s with vars := s.vars.set name value }

end Actions

end Conformance.Runs
