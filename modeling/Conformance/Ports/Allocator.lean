import Conformance.Fault

/-!
# Handing out ports

Ports come from a half-open range in turn, and after the last one the first comes again. A probing
allocator passes over ports that somebody listens on.
-/
namespace Conformance.Ports

/-- The ports from `min` up to but without `max`, as configured. -/
structure PortRange where
  min : UInt16
  max : UInt16
  /-- Whether ports that somebody listens on are passed over. -/
  probe : Bool
  deriving DecidableEq, Repr, Inhabited

/-- An allocator: its range, and the port that comes next. -/
structure Allocator where
  min : UInt16
  max : UInt16
  next : UInt16
  probe : Bool
  deriving DecidableEq, Repr, Inhabited

/-- The number `n` as a port, or the last port if it is larger. -/
def clampPort (n : Nat) : UInt16 := UInt16.ofNat (Nat.min n 65535)

namespace Allocator

/-- An allocator that trusts its range. An empty range is widened to its first port. -/
def new (min max : UInt16) : Allocator :=
  let least := clampPort (min.toNat + 1)
  { min, max := if max < least then least else max, next := min, probe := false }

/-- An allocator that passes over ports in use. -/
def probing (min max : UInt16) : Allocator := { new min max with probe := true }

/-- The allocator of a configured range. -/
def ofRange (r : PortRange) : Allocator := if r.probe then probing r.min r.max else new r.min r.max

/-- The allocator of the part `index` of `count` equal parts of a range. -/
def slice (r : PortRange) (index count : Nat) : Except Fault Allocator :=
  if r.max ≤ r.min then .error (.config s!"port range [{r.min}, {r.max}) is empty")
  else
    let count := Nat.max count 1
    let span := r.max.toNat - r.min.toNat
    if span < count then
      .error (.config
        s!"port range [{r.min}, {r.max}) holds {span} ports, too few for {count} concurrent jobs")
    else
      let width := span / count
      let start := r.min.toNat + (index % count) * width
      let finish := start + width
      if finish < 65536 then
        .ok (.ofRange { r with min := UInt16.ofNat start, max := UInt16.ofNat finish })
      else .error (.internal s!"port slice {start}..{finish} out of range")

/-- The half-open range that ports are handed out from. -/
def range (a : Allocator) : UInt16 × UInt16 := (a.min, a.max)

/-- The port that comes next, and the allocator behind it. -/
def advance (a : Allocator) : UInt16 × Allocator :=
  let following := a.next.toNat + 1
  (a.next, { a with next := if following < a.max.toNat then UInt16.ofNat following else a.min })

/-- The first port in turn that is not busy, with at most `n` ports tried. -/
def firstFree (busy : List UInt16) : Nat → Allocator → Except Fault UInt16 × Allocator
  | 0, a => (.error (.portsExhausted a.min a.max), a)
  | n + 1, a =>
    let (port, a) := a.advance
    if busy.contains port then firstFree busy n a else (.ok port, a)

/-- The next port. `busy` holds the ports that somebody listens on, as far as that can be told. -/
def nextPort (a : Allocator) (busy : Option (List UInt16)) : Except Fault UInt16 × Allocator :=
  match busy with
  | some busy =>
    if a.probe then firstFree busy (a.max.toNat - a.min.toNat) a
    else let (port, a) := a.advance; (.ok port, a)
  | none => let (port, a) := a.advance; (.ok port, a)

end Allocator

end Conformance.Ports
