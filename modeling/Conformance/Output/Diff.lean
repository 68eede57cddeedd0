/-!
# Differences between two lists of lines

The shortest way from the old lines to the new ones is found by following the diagonals of the edit
graph from both ends until they meet, and then the same for either half. Insertions are moved as far
down as they can, and a deletion beside an insertion counts as a replacement.
-/
namespace Conformance.Output

/-- A stretch of the way from the old lines to the new ones. -/
inductive Change where
  /-- `count` lines are the same. -/
  | equal (old new count : Nat)
  /-- `count` old lines are left out. -/
  | delete (old count new : Nat)
  /-- `count` new lines come in. -/
  | insert (old new count : Nat)
  /-- `oldCount` old lines give way to `newCount` new ones. -/
  | replace (old oldCount new newCount : Nat)
  deriving DecidableEq, Repr, Inhabited

namespace Change

/-- The old lines of the stretch: its first one, and the one behind it. -/
def oldRange : Change → Nat × Nat
  | equal old _ count => (old, old + count)
  | delete old count _ => (old, old + count)
  | insert old _ _ => (old, old)
  | replace old oldCount _ _ => (old, old + oldCount)

/-- The new lines of the stretch: its first one, and the one behind it. -/
def newRange : Change → Nat × Nat
  | equal _ new count => (new, new + count)
  | delete _ _ new => (new, new)
  | insert _ new count => (new, new + count)
  | replace _ _ new newCount => (new, new + newCount)

end Change

/-- The two lists that are compared. -/
structure Sides where
  old : Array String
  new : Array String

namespace Sides

/-- Whether the old line `i` is the new line `j`. -/
def same (s : Sides) (i j : Nat) : Bool :=
  match s.old[i]?, s.new[j]? with
  | some a, some b => a = b
  | _, _ => false

/-- How many lines from `i` and `j` on are the same, at most `limit`. -/
def commonPrefix (s : Sides) (i j : Nat) : Nat → Nat
  | 0 => 0
  | limit + 1 => if s.same i j then s.commonPrefix (i + 1) (j + 1) limit + 1 else 0

/-- How many lines in front of `i` and `j` are the same, at most `limit`. -/
def commonSuffix (s : Sides) (i j : Nat) : Nat → Nat
  | 0 => 0
  | limit + 1 =>
    if 0 < i && 0 < j && s.same (i - 1) (j - 1) then s.commonSuffix (i - 1) (j - 1) limit + 1 else 0

end Sides

/-- A part of the edit graph: the old lines from `old` to `oldEnd` against the new ones from `new` to
`newEnd`. -/
structure Box where
  old : Nat
  oldEnd : Nat
  new : Nat
  newEnd : Nat

namespace Box

/-- The number of old lines. -/
def width (b : Box) : Nat := b.oldEnd - b.old

/-- The number of new lines. -/
def height (b : Box) : Nat := b.newEnd - b.new

end Box

/-- The furthest points on the diagonals, which are numbered from `-centre` on. -/
structure Reach where
  centre : Nat
  points : Array Nat

namespace Reach

/-- No point on any diagonal but the one where the search starts. -/
def start (size : Nat) : Reach := ⟨size + 1, Array.replicate (2 * size + 3) 0⟩

/-- The furthest point on the diagonal `k`. -/
def get (r : Reach) (k : Int) : Nat := (r.points[(k + r.centre).toNat]?).getD 0

/-- The furthest points with that on the diagonal `k` set. -/
def set (r : Reach) (k : Int) (x : Nat) : Reach :=
  { r with points := r.points.setIfInBounds (k + r.centre).toNat x }

/-- The point on the diagonal `k` that `d` edits lead to. -/
def step (r : Reach) (d : Nat) (k : Int) : Nat :=
  if k = -(d : Int) || (k ≠ (d : Int) && r.get (k - 1) < r.get (k + 1)) then r.get (k + 1)
  else r.get (k - 1) + 1

end Reach

/-- The diagonals that `d` edits lead to, from the highest to the lowest. -/
def diagonals (d : Nat) : List Int :=
  (List.range (d + 1)).map fun (i : Nat) => (d : Int) - 2 * (i : Int)

/-- The edits that a way from end to end needs at most, and one more. -/
def maxEdits (width height : Nat) : Nat := (width + height + 1) / 2 + 1

section Meeting

variable (s : Sides) (b : Box)

/-- The distance of the last diagonal from the first one. -/
def Box.delta (b : Box) : Int := (b.width : Int) - (b.height : Int)

/-- One round of the search from the front: where it meets the search from the back, or how far it
has come. -/
def forward (back : Reach) (d : Nat) : List Int → Reach → Except (Nat × Nat) Reach
  | [], front => .ok front
  | k :: ks, front =>
    let x := front.step d k
    let y := ((x : Int) - k).toNat
    let furthest :=
      if x < b.width && y < b.height then
        x + s.commonPrefix (b.old + x) (b.new + y) (Nat.min (b.width - x) (b.height - y))
      else x
    let front := front.set k furthest
    if b.delta % 2 ≠ 0 && (k - b.delta).natAbs + 1 ≤ d &&
        b.width ≤ furthest + back.get (b.delta - k) then
      .error (b.old + x, b.new + y)
    else forward back d ks front

/-- One round of the search from the back: where it meets the search from the front, or how far it
has come. -/
def backward (front : Reach) (d : Nat) : List Int → Reach → Except (Nat × Nat) Reach
  | [], back => .ok back
  | k :: ks, back =>
    let x := back.step d k
    let y := ((x : Int) - k).toNat
    let more :=
      if x < b.width && y < b.height then
        s.commonSuffix (b.old + b.width - x) (b.new + b.height - y)
          (Nat.min (b.width - x) (b.height - y))
      else 0
    let back := back.set k (x + more)
    if b.delta % 2 = 0 && (k - b.delta).natAbs ≤ d &&
        b.width ≤ x + more + front.get (b.delta - k) then
      .error (b.old + b.width - (x + more), b.new + b.height - (y + more))
    else backward front d ks back

/-- The place where the searches from both ends meet, with at most `fuel` further edits. -/
def meeting? (front back : Reach) (d : Nat) : Nat → Option (Nat × Nat)
  | 0 => none
  | fuel + 1 =>
    match forward s b back d (diagonals d) front with
    | .error place => some place
    | .ok front =>
      match backward s b front d (diagonals d) back with
      | .error place => some place
      | .ok back => meeting? front back (d + 1) fuel

/-- The place in the middle of a shortest way through the box. -/
def middle? : Option (Nat × Nat) :=
  let n := maxEdits b.width b.height
  meeting? s b (.start n) (.start n) 0 n

end Meeting

/-- The way through the box. Equal lines at both ends are set aside first. -/
def way (s : Sides) (fuel : Nat) (b : Box) : List Change :=
  match fuel with
  | 0 => []
  | fuel + 1 =>
    let same := s.commonPrefix b.old b.new (Nat.min b.width b.height)
    let atStart := if 0 < same then [Change.equal b.old b.new same] else []
    let b := { b with old := b.old + same, new := b.new + same }
    let same := s.commonSuffix b.oldEnd b.newEnd (Nat.min b.width b.height)
    let b := { b with oldEnd := b.oldEnd - same, newEnd := b.newEnd - same }
    let atEnd := if 0 < same then [Change.equal b.oldEnd b.newEnd same] else []
    let between :=
      if b.width = 0 && b.height = 0 then []
      else if b.height = 0 then [Change.delete b.old b.width b.new]
      else if b.width = 0 then [Change.insert b.old b.new b.height]
      else
        match middle? s b with
        | some (x, y) =>
          way s fuel { b with oldEnd := x, newEnd := y } ++ way s fuel { b with old := x, new := y }
        | none => [Change.delete b.old b.width b.new, Change.insert b.old b.new b.height]
    atStart ++ between ++ atEnd

/-- A change in the midst of others: those before it, the nearest first, and those after it. -/
structure Focus where
  before : List Change
  this : Change
  after : List Change

namespace Focus

/-- The change moved as far up as it goes. -/
def up (s : Sides) : Nat → Focus → Focus
  | 0, f => f
  | fuel + 1, f =>
    match f.before, f.this with
    | .equal o n c :: before, .insert io i ic =>
      let same := s.commonSuffix (o + c) (i + ic) (Nat.min c ic)
      if 0 < same then
        let after := match f.after with
          | .equal o' n' c' :: r => Change.equal (o' - same) (n' - same) (c' + same) :: r
          | r => Change.equal (o + c - same) (i + ic - same) same :: r
        let before := if c = same then before else .equal o n (c - same) :: before
        up s fuel ⟨before, .insert (io - same) (i - same) ic, after⟩
      else if c = 0 then up s fuel ⟨before, f.this, f.after⟩
      else f
    | .equal _ _ 0 :: before, .delete .. => up s fuel ⟨before, f.this, f.after⟩
    | .delete o c n :: before, .insert .. => up s fuel ⟨before, f.this, .delete o c n :: f.after⟩
    | .insert o n c :: before, .delete .. => up s fuel ⟨before, f.this, .insert o n c :: f.after⟩
    | .insert o n c :: before, .insert _ _ more => up s fuel ⟨before, .insert o n (c + more), f.after⟩
    | .delete o c n :: before, .delete _ more _ => up s fuel ⟨before, .delete o (c + more) n, f.after⟩
    | _, _ => f

/-- The change moved as far down as it goes. -/
def down (s : Sides) : Nat → Focus → Focus
  | 0, f => f
  | fuel + 1, f =>
    match f.after, f.this with
    | .equal o n c :: after, .insert io i ic =>
      let same := s.commonPrefix o i (Nat.min c ic)
      if 0 < same then
        let before := match f.before with
          | .equal o' n' c' :: r => Change.equal o' n' (c' + same) :: r
          | r => Change.equal o i same :: r
        let after := if c = same then after else .equal (o + same) (n + same) (c - same) :: after
        down s fuel ⟨before, .insert (io + same) (i + same) ic, after⟩
      else if c = 0 then down s fuel ⟨f.before, f.this, after⟩
      else f
    | .equal _ _ 0 :: after, .delete .. => down s fuel ⟨f.before, f.this, after⟩
    | .delete o c n :: after, .insert .. => down s fuel ⟨.delete o c n :: f.before, f.this, after⟩
    | .insert o n c :: after, .delete .. => down s fuel ⟨.insert o n c :: f.before, f.this, after⟩
    | .insert _ _ more :: after, .insert o n c => down s fuel ⟨f.before, .insert o n (c + more), after⟩
    | .delete _ more _ :: after, .delete o c n => down s fuel ⟨f.before, .delete o (c + more) n, after⟩
    | _, _ => f

end Focus

/-- The changes of one kind moved up and then down, from the first to the last. -/
def settle (s : Sides) (kind : Change → Bool) (fuel : Nat) (before after : List Change) :
    List Change :=
  match fuel, after with
  | 0, after => before.reverse ++ after
  | _, [] => before.reverse
  | fuel + 1, c :: after =>
    if kind c then
      let steps := 4 * (s.old.size + s.new.size) + 16
      let f := (Focus.up s steps ⟨before, c, after⟩).down s steps
      settle s kind fuel (f.this :: f.before) f.after
    else settle s kind fuel (c :: before) after

/-- Whether the change is a deletion. -/
def Change.isDelete : Change → Bool
  | delete .. => true
  | _ => false

/-- Whether the change is an insertion. -/
def Change.isInsert : Change → Bool
  | insert .. => true
  | _ => false

/-- What has been read of a run of deletions and insertions. -/
structure Run where
  deleted : Option (Nat × Nat × Nat) := none
  inserted : Option (Nat × Nat × Nat) := none

/-- The run as one change. -/
def Run.changes (r : Run) : List Change :=
  match r.deleted, r.inserted with
  | some (old, oldCount, _), some (_, new, newCount) => [.replace old oldCount new newCount]
  | some (old, count, new), none => [.delete old count new]
  | none, some (old, new, count) => [.insert old new count]
  | none, none => []

/-- The changes with every run of deletions and insertions as one, and equal lines that meet as one
stretch. -/
def merged (run : Run) (equal : Option (Nat × Nat × Nat)) : List Change → List Change
  | [] => stretch ++ run.changes
  | .equal old new count :: r =>
    match equal with
    | some (old', new', count') => merged run (some (old', new', count' + count)) r
    | none => run.changes ++ merged {} (some (old, new, count)) r
  | .delete old count new :: r =>
    let deleted := match run.deleted with
      | some (old', count', new') => (old', count' + count, new')
      | none => (old, count, new)
    stretch ++ merged { run with deleted := some deleted } none r
  | .insert old new count :: r =>
    let inserted := match run.inserted with
      | some (old', new', count') => (old', new', count' + count)
      | none => (old, new, count)
    stretch ++ merged { run with inserted := some inserted } none r
  | .replace old oldCount new newCount :: r =>
    stretch ++ .replace old oldCount new newCount :: merged run none r
where
  stretch : List Change :=
    match equal with
    | some (old, new, count) => [.equal old new count]
    | none => []

/-- The changes that lead from the old lines to the new ones. -/
def changes (s : Sides) : List Change :=
  let total := s.old.size + s.new.size
  let plain := way s (2 * total + 2) ⟨0, s.old.size, 0, s.new.size⟩
  let fuel := 4 * total + 16
  let settled := settle s Change.isInsert fuel [] (settle s Change.isDelete fuel [] plain)
  merged {} none settled

/-- How many equal lines are shown around a change. -/
def contextLines : Nat := 3

/-- The first stretch without its lines that are too far from what follows. -/
def trimFirst : List Change → List Change
  | .equal old new count :: r =>
    let cut := count - contextLines
    .equal (old + cut) (new + cut) (count - cut) :: r
  | r => r

/-- The last stretch without its lines that are too far from what precedes. -/
def trimLast : List Change → List Change
  | [] => []
  | [.equal old new count] => [.equal old new (Nat.min count contextLines)]
  | [c] => [c]
  | c :: d :: r => c :: trimLast (d :: r)

/-- The changes in groups: a long stretch of equal lines ends one group and begins the next. -/
def grouped (pending : List Change) : List Change → List (List Change)
  | [] =>
    match pending with
    | [] | [.equal ..] => []
    | _ => [pending.reverse]
  | .equal old new count :: r =>
    if 2 * contextLines < count then
      let cut := count - contextLines
      (.equal old new contextLines :: pending).reverse ::
        grouped [.equal (old + cut) (new + cut) (count - cut)] r
    else grouped (.equal old new count :: pending) r
  | c :: r => grouped (c :: pending) r

/-- The groups of changes that are shown. -/
def hunks (s : Sides) : List (List Change) :=
  (grouped [] (trimLast (trimFirst (changes s)))).filter (!·.isEmpty)

/-- A range of lines as the heading of a hunk shows it. -/
def rangeText (first finish : Nat) : String :=
  let count := finish - first
  if count = 1 then s!"{first + 1}"
  else if count = 0 then s!"{first},0"
  else s!"{first + 1},{count}"

/-- The heading of a hunk. -/
def heading (hunk : List Change) : String :=
  let first := hunk.headD default
  let last := hunk.getLastD default
  let old := rangeText first.oldRange.1 last.oldRange.2
  let new := rangeText first.newRange.1 last.newRange.2
  s!"@@ -{old} +{new} @@\n"

/-- Lines, each behind a sign. -/
def signed (sign : String) (lines : Array String) (range : Nat × Nat) : String :=
  String.join ((lines.extract range.1 range.2).toList.map (sign ++ ·))

/-- The lines of a change. -/
def changeText (s : Sides) (c : Change) : String :=
  match c with
  | .equal .. => signed " " s.old c.oldRange
  | _ => signed "-" s.old c.oldRange ++ signed "+" s.new c.newRange

/-- The lines of a text, each with the newline that ends it: LF, CR LF or CR. -/
def fullLines (held : List Char) : List Char → List String
  | [] => if held.isEmpty then [] else [String.ofList held.reverse]
  | '\r' :: '\n' :: r => String.ofList ('\n' :: '\r' :: held).reverse :: fullLines [] r
  | '\r' :: r => String.ofList ('\r' :: held).reverse :: fullLines [] r
  | '\n' :: r => String.ofList ('\n' :: held).reverse :: fullLines [] r
  | c :: r => fullLines (c :: held) r

/-- The two texts as lists of lines. -/
def Sides.ofTexts (old new : String) : Sides :=
  ⟨(fullLines [] old.toList).toArray, (fullLines [] new.toList).toArray⟩

/-- The difference between two texts whose last lines are ended, with a few equal lines around each
change. There is nothing to show if the texts are the same. -/
def unified (oldName newName : String) (s : Sides) : String :=
  match hunks s with
  | [] => ""
  | hs =>
    s!"--- {oldName}\n+++ {newName}\n" ++
      String.join (hs.map fun h => heading h ++ String.join (h.map (changeText s)))

end Conformance.Output
