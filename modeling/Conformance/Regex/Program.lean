import Conformance.Regex.Node

/-!
# Programs for patterns

A pattern is laid out as a list of instructions. Every piece of a pattern starts at its first
instruction and ends by falling through behind its last one, so pieces are put together by
concatenation. The number of instructions does not depend on where they start.
-/
namespace Conformance.Regex

/-- An instruction of the matching machine. -/
inductive Inst where
  /-- Takes one character of the set. -/
  | take (s : CharSet)
  /-- Goes on only where the condition holds. -/
  | look (l : Look)
  /-- Remembers the place. -/
  | mark (slot : Nat)
  /-- Goes on at both targets, and prefers the first one. -/
  | split (first second : Nat)
  | jump (target : Nat)
  | accept
  deriving Inhabited

/-- A split that prefers to stay in a repetition, if `greedy`, and to leave it otherwise. -/
def Inst.choice (greedy : Bool) (stay leave : Nat) : Inst :=
  if greedy then .split stay leave else .split leave stay

namespace Node

/-- The bounds of a repetition of `a`. What matches nothing but the empty text is not repeated. -/
def limits (a : Node) (min : Nat) (max : Option Nat) : Nat × Option Nat :=
  if a.onlyEmpty then (Nat.min min 1, some (Nat.min (max.getD 1) 1)) else (min, max)

/-- The number of instructions of a repetition of `n` instructions. -/
def repeatSize (n min : Nat) : Option Nat → Nat
  | some max => min * n + (max - min) * (n + 1)
  | none => if min = 0 then n + 2 else min * n + 1

/-- The number of instructions of the pattern. -/
def size : Node → Nat
  | empty => 0
  | set _ | look _ => 1
  | group _ a => a.size + 2
  | cat a b => a.size + b.size
  | alt a b => a.size + b.size + 2
  | .repeat min max _ a =>
    let (min, max) := limits a min max
    repeatSize a.size min max

/-- The instructions of the pattern, the first of which is at `pc`. A piece that can match the empty
text is tried once more only behind a round of itself, so a round cannot start over for nothing. -/
def code (pc : Nat) : Node → List Inst
  | empty => []
  | set s => [.take s]
  | look l => [.look l]
  | group i a => .mark (2 * i) :: a.code (pc + 1) ++ [.mark (2 * i + 1)]
  | cat a b => a.code pc ++ b.code (pc + a.size)
  | alt a b =>
    let second := pc + a.size + 2
    .split (pc + 1) second :: a.code (pc + 1) ++ .jump (second + b.size) :: b.code second
  | .repeat min max greedy a =>
    let (min, max) := limits a min max
    let n := a.size
    let finish := pc + repeatSize n min max
    match max with
    | some max =>
      let first := (List.range min).flatMap fun i => a.code (pc + i * n)
      let more := (List.range (max - min)).flatMap fun i =>
        let here := pc + min * n + i * (n + 1)
        Inst.choice greedy (here + 1) finish :: a.code (here + 1)
      first ++ more
    | none =>
      if min = 0 then
        let again := if a.neverEmpty then Inst.jump pc else Inst.choice greedy (pc + 1) finish
        Inst.choice greedy (pc + 1) finish :: a.code (pc + 1) ++ [again]
      else
        let first := (List.range min).flatMap fun i => a.code (pc + i * n)
        first ++ [Inst.choice greedy (pc + (min - 1) * n) finish]

end Node

/-- A program with the names of its groups. -/
structure Program where
  insts : Array Inst
  names : List (String × Nat)
  deriving Inhabited

/-- The program of a pattern. -/
def Program.ofNode (node : Node) (names : List (String × Nat)) : Program :=
  ⟨(node.code 0 ++ [Inst.accept]).toArray, names⟩

end Conformance.Regex
