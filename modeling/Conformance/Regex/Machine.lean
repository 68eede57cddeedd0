import Conformance.Regex.Parser
import Conformance.Regex.Program

/-!
# Matching a pattern

The machine reads the text once and carries a list of threads, the preferred one first. Of two
threads at the same instruction only the preferred one is kept, so the list is never longer than the
program. A match is preferred if it starts further left, and of those that start at one place the one
of the most preferred thread counts.
-/
namespace Conformance.Regex

open Text

/-- A place in the text: the character in front of it and the text behind it. -/
structure Place where
  before : Option Char
  rest : List Char
  index : Nat
  deriving Inhabited

/-- Whether a character is one of words; the end of the text is none. -/
def isWordChar (ascii : Bool) (c : Option Char) : Bool :=
  c.any fun c => (if ascii then CharSet.asciiWord else CharSet.word).contains c.toNat

/-- Whether the condition holds at the place. -/
def Look.holds (l : Look) (p : Place) : Bool :=
  let after := p.rest.head?
  match l with
  | .start => p.before.isNone
  | .finish => after.isNone
  | .lineStart crlf =>
    p.before.all fun c => c = '\n' || (crlf && c = '\r' && after ≠ some '\n')
  | .lineEnd crlf =>
    after.all fun c =>
      if crlf then c = '\r' || (c = '\n' && p.before ≠ some '\r') else c = '\n'
  | .wordEdge ascii negated => (isWordChar ascii p.before != isWordChar ascii after) != negated
  | .wordStart ascii => !isWordChar ascii p.before && isWordChar ascii after
  | .wordEnd ascii => isWordChar ascii p.before && !isWordChar ascii after
  | .wordStartHalf ascii => !isWordChar ascii p.before
  | .wordEndHalf ascii => !isWordChar ascii after

/-- A way to read the text so far: the instruction that comes next, the place where the match
started, and the places remembered, the latest first. -/
structure Thread where
  pc : Nat
  start : Nat
  marks : List (Nat × Nat)
  deriving Inhabited

/-- The threads at one place, the least preferred first, and the instructions already reached. -/
structure Front where
  seen : Array Bool
  threads : List Thread
  deriving Inhabited

/-- The front without threads, for a program of `n` instructions. -/
def Front.empty (n : Nat) : Front := ⟨Array.replicate n false, []⟩

/-- The front with the threads that the thread leads to without taking a character. Every
instruction is passed at most once, which bounds the depth. -/
def follow (insts : Array Inst) (p : Place) (fuel : Nat) (t : Thread) (front : Front) : Front :=
  match fuel with
  | 0 => front
  | fuel + 1 =>
    if front.seen[t.pc]?.getD true then front
    else
      let front := { front with seen := front.seen.setIfInBounds t.pc true }
      match insts[t.pc]? with
      | none => front
      | some (.take _) | some .accept => { front with threads := t :: front.threads }
      | some (.look l) =>
        if l.holds p then follow insts p fuel { t with pc := t.pc + 1 } front else front
      | some (.mark slot) =>
        follow insts p fuel { t with pc := t.pc + 1, marks := (slot, p.index) :: t.marks } front
      | some (.split first second) =>
        follow insts p fuel { t with pc := second } (follow insts p fuel { t with pc := first } front)
      | some (.jump target) => follow insts p fuel { t with pc := target } front

/-- A match: where it starts and ends, and the places remembered. -/
structure Found where
  start : Nat
  finish : Nat
  marks : List (Nat × Nat)
  deriving Inhabited

/-- Moves the threads over the next character, `next` being the place behind it. A thread that
accepts makes a match, and those less preferred are dropped. -/
def advance (insts : Array Inst) (here : Place) (next : Place) (found : Option Found) :
    List Thread → Front → Front × Option Found
  | [], front => (front, found)
  | t :: rest, front =>
    match insts[t.pc]? with
    | some .accept => (front, some ⟨t.start, here.index, t.marks⟩)
    | some (.take s) =>
      let front :=
        if here.rest.head?.any (s.contains ·.toNat) then
          follow insts next (insts.size + 1) { t with pc := t.pc + 1 } front
        else front
      advance insts here next found rest front
    | _ => advance insts here next found rest front

/-- The preferred match in the text from the place before `rest` on. -/
def search (insts : Array Inst) (before : Option Char) (index : Nat) (front : Front)
    (found : Option Found) (rest : List Char) : Option Found :=
  let here : Place := ⟨before, rest, index⟩
  let front :=
    if found.isNone then follow insts here (insts.size + 1) ⟨0, index, []⟩ front else front
  match rest with
  | [] => (advance insts here here found front.threads.reverse (.empty 0)).2
  | c :: r =>
    let next : Place := ⟨some c, r, index + 1⟩
    let (front, found) := advance insts here next found front.threads.reverse (.empty insts.size)
    if front.threads.isEmpty && found.isSome then found
    else search insts (some c) (index + 1) front found r

/-- A match as text: the whole of it, and the named groups that took part in it. -/
structure Match where
  text : List Char
  groups : List (String × String)
  deriving DecidableEq, Repr, Inhabited

/-- The characters from one place to another. -/
def slice (cs : List Char) (start finish : Nat) : List Char := (cs.drop start).take (finish - start)

/-- The preferred match of the program in the text. -/
def Program.find? (p : Program) (cs : List Char) : Option Match := do
  let found ← search p.insts none 0 (.empty p.insts.size) none cs
  let groups := p.names.filterMap fun (name, i) => do
    let start ← found.marks.lookup (2 * i)
    let finish ← found.marks.lookup (2 * i + 1)
    return (name, String.ofList (slice cs start finish))
  return ⟨slice cs found.start found.finish, groups⟩

/-- The program of the pattern that a text writes. It is irreducible so that no pattern is read when terms
are compared. -/
@[irreducible] def Program.read? (text : String) : Option Program :=
  (Pattern.read? text).map fun p => .ofNode p.node p.names

end Conformance.Regex
