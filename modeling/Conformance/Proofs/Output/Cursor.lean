import Conformance.Proofs.Output.Reading

/-!
# The cursor of the output

The cursor is kept between two characters of the output by everything but one thing: it moves on by the length of
what a pattern matched, wherever that was found. A pattern can close the parentheses that bind it to the cursor,
and its match may then lie further behind.
-/
namespace Conformance.Output

open Text Expr

/-- What is done with the output of a client. -/
inductive Op where
  /-- A command has been run, and its output captured. -/
  | reset (output : String)
  | expect (e : Expectation)
  deriving DecidableEq, Repr, Inhabited

/-- The state behind one operation. -/
def State.apply (s : State) : Op → State
  | .reset output => s.reset output
  | .expect e => (s.check e).2

/-- The state behind the operations, which start before any command. -/
def run (ops : List Op) : State := ops.foldl State.apply .new

/-- What the pattern matches, if it were at the cursor, would end between two characters. -/
def Lands (s : State) (pattern : String) : Prop :=
  ∀ program m, Regex.Program.read? (State.anchored pattern) = some program →
    program.find? s.skipBlanks.rest = some m → isBoundary (byteLength m.text) s.skipBlanks.rest = true

variable {s : State} {before after : List Char}

/-! ## One operation -/

theorem State.At.cursorValid (h : s.At before after) : s.CursorValid := State.cursorValid_iff.2 ⟨_, _, h⟩

theorem State.At.take_cursorValid_iff (h : s.At before after) (text : List Char) :
    (s.take text).CursorValid ↔ isBoundary (byteLength text) after = true := by
  have hbuffer : (s.take text).buffer = s.buffer := rfl
  have hcursor : (s.take text).cursor = byteLength before + byteLength text := by rw [← h.cursor]; rfl
  rw [← State.residual?_isSome_iff, State.residual?, hbuffer, hcursor, h.buffer, isBoundary_append]
  cases isBoundary (byteLength text) after <;> simp

/-- A pattern keeps the cursor valid exactly if its match lands. -/
theorem matchRegex_cursorValid_iff (h : s.At before after) (pattern : String) :
    (s.matchRegex pattern).2.CursorValid ↔ Lands s pattern := by
  have hskip := h.skipBlanks
  rw [State.matchRegex]
  cases hread : Regex.Program.read? (State.anchored pattern) with
  | none => exact ⟨fun _ program m hprogram => by simp [hread] at hprogram, fun _ => hskip.cursorValid⟩
  | some program =>
    dsimp only [Prod.map]
    rw [State.matchProgram, id]
    cases hfind : program.find? s.skipBlanks.rest with
    | none =>
      constructor
      · intro _ program' m hprogram hm
        obtain rfl : program = program' := by simpa [hread] using hprogram
        rw [hfind] at hm
        contradiction
      · obtain ⟨t, rest, hreads⟩ := reads_fail h pattern
        exact fun _ => hreads.stops.cursorValid
    | some m =>
      rw [hskip.take_cursorValid_iff]
      constructor
      · intro hm program' m' hprogram hm'
        obtain rfl : program = program' := by simpa [hread] using hprogram
        obtain rfl : m = m' := by simpa [hfind] using hm'
        rw [hskip.rest_eq]
        exact hm
      · intro hlands
        rw [← hskip.rest_eq]
        exact hlands program m hread hfind

/-- Only a pattern can make the cursor invalid. -/
theorem apply_cursorValid_iff (h : s.CursorValid) (op : Op) :
    (s.apply op).CursorValid ↔ ∀ pattern, op = .expect (.regex pattern) → Lands s pattern := by
  obtain ⟨before, after, hat⟩ := State.cursorValid_iff.1 h
  cases op with
  | reset output =>
    constructor
    · intro _ pattern hop
      contradiction
    · intro _
      exact (State.at_reset s output).cursorValid
  | expect e =>
    by_cases he : ∃ pattern, e = .regex pattern
    · obtain ⟨pattern, rfl⟩ := he
      rw [State.apply, State.check, matchRegex_cursorValid_iff hat]
      constructor
      · intro hlands pattern' hop
        obtain rfl : pattern = pattern' := by simpa using hop
        exact hlands
      · exact fun hlands => hlands pattern rfl
    · have hsound : SoundExpectation e := by cases e <;> simp_all [SoundExpectation]
      obtain ⟨w, t, rest, hreads⟩ := check_reads hsound hat
      exact ⟨fun _ pattern hop => absurd ⟨pattern, Op.expect.inj hop⟩ he, fun _ => hreads.stops.cursorValid⟩

/-- The match of a sound pattern lands. -/
theorem lands_of_sound {pattern : String} (hsound : Sound pattern) (h : s.CursorValid) : Lands s pattern := by
  obtain ⟨before, after, hat⟩ := State.cursorValid_iff.1 h
  obtain ⟨w, t, rest, hreads⟩ := matchRegex_reads hsound hat
  exact (matchRegex_cursorValid_iff hat pattern).1 hreads.stops.cursorValid

/-! ## All operations -/

theorem run_concat (ops : List Op) (op : Op) : run (ops ++ [op]) = (run ops).apply op := by
  rw [run, List.foldl_append]
  rfl

/-- The operations keep a valid cursor valid as long as the match of every pattern lands. -/
theorem foldl_cursorValid {ops : List Op} (h : s.CursorValid)
    (hlands : ∀ front pattern back, ops = front ++ .expect (.regex pattern) :: back →
      (front.foldl State.apply s).CursorValid → Lands (front.foldl State.apply s) pattern) :
    (ops.foldl State.apply s).CursorValid := by
  induction ops generalizing s with
  | nil => exact h
  | cons op ops ih =>
    refine ih ((apply_cursorValid_iff h op).2 fun pattern hop => ?_) fun front pattern back hops => ?_
    · exact hlands [] pattern ops (by rw [hop]; rfl) h
    · exact hlands (op :: front) pattern back (by rw [hops]; rfl)

/-- The cursor is valid all along a run if and only if every match of a pattern lands; the text not yet read is
defined then. So it is if each pattern that can be read inside the parentheses that bind it can be read by
itself, whatever the operations and the outputs are. -/
theorem run_cursorValid (ops : List Op) :
    ((∀ front, front <+: ops → (run front).CursorValid ∧ (run front).residual?.isSome) ↔
      ∀ front pattern back, ops = front ++ .expect (.regex pattern) :: back → Lands (run front) pattern) ∧
    ((∀ pattern, .expect (.regex pattern) ∈ ops → Sound pattern) →
      ∀ front, front <+: ops → (run front).CursorValid ∧ (run front).residual?.isSome) := by
  refine ⟨⟨?_, ?_⟩, ?_⟩
  · rintro hvalid front pattern back rfl
    have hnext := (hvalid (front ++ [.expect (.regex pattern)]) ⟨back, by simp⟩).1
    rw [run_concat] at hnext
    exact (apply_cursorValid_iff (hvalid front (List.prefix_append _ _)).1 _).1 hnext pattern rfl
  · rintro hlands front ⟨rest, rfl⟩
    rw [State.residual?_isSome_iff, and_self]
    refine foldl_cursorValid State.at_new.cursorValid fun before pattern back hfront _ => ?_
    exact hlands before pattern (back ++ rest) (by rw [hfront, List.append_assoc, List.cons_append])
  · rintro hsound front ⟨rest, rfl⟩
    rw [State.residual?_isSome_iff, and_self]
    refine foldl_cursorValid State.at_new.cursorValid fun before pattern back hfront hvalid => ?_
    exact lands_of_sound (hsound pattern (by simp [hfront])) hvalid

/-- A pattern that closes the parentheses around it is found behind the cursor, which then moves into the middle
of a character. -/
theorem run_cursor_inside_character :
    let ops : List Op := [.reset "éb", .expect (.regex "x)|(?:b")]
    (Regex.Program.read? (State.anchored "x)|(?:b")).isSome ∧ (run ops).cursor = 1 ∧
      ¬(run ops).CursorValid ∧ (run ops).residual? = none := by
  have hread : (Regex.Program.read? (State.anchored "x)|(?:b")).isSome := by decide +kernel
  -- The match stands behind two bytes, but the cursor moves by its own length, one byte.
  have hcursor : (run [.reset "éb", .expect (.regex "x)|(?:b")]).cursor = 1 := by decide +kernel
  have hresidual : (run [.reset "éb", .expect (.regex "x)|(?:b")]).residual? = none := by decide +kernel
  refine ⟨hread, hcursor, fun hvalid => ?_, hresidual⟩
  rw [← State.residual?_isSome_iff, hresidual] at hvalid
  contradiction

/-- Captures, blanks, times and sound patterns leave the rest of the output defined. -/
theorem run_cursorValid_captured :
    (run [.reset "five days ago", .expect (.regex "[a-z]+"), .expect .relativeTime]).CursorValid ∧
      ∀ pattern, .expect (.regex pattern) ∈
        ([.reset "five days ago", .expect (.regex "[a-z]+"), .expect .relativeTime] : List Op) →
          Sound pattern := by
  have hsound : ∀ pattern, .expect (.regex pattern) ∈
      ([.reset "five days ago", .expect (.regex "[a-z]+"), .expect .relativeTime] : List Op) →
        Sound pattern := by
    intro pattern hmem
    obtain rfl : pattern = "[a-z]+" := by simpa using hmem
    exact fun _ => by decide +kernel
  exact ⟨((run_cursorValid _).2 hsound _ List.prefix_rfl).1, hsound⟩

end Conformance.Output
