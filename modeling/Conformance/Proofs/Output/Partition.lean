import Conformance.Proofs.Output.Reading

/-!
# Nothing of the output is lost or read twice

The expectations of a command divide its output: each one takes the blanks in front of it and the text that it
reports, and what all of them take, put together in order, and what is left are the whole output.
-/
namespace Conformance.Output

open Text Expr

/-- The state behind the expectations. -/
def State.checkAll (s : State) (es : List Expectation) : State := es.foldl (fun s e => (s.check e).2) s

/-- The text that a result shows as taken. -/
def takenText : Except Problem Outcome → List Char
  | .ok (.matched text _) => text.toList
  | .ok (.mismatch _ actual) => actual.toList
  | .error _ => []

/-- The blanks and the texts that the expectations take, in order. -/
def State.pieces (s : State) : List Expectation → List (List Char)
  | [] => []
  | e :: es => s.rest.takeWhile isOutputBlank :: takenText (s.check e).1 :: (s.check e).2.pieces es

variable {s : State} {r : Except Problem Outcome × State} {before w t after : List Char} {whole : Bool}

/-! ## One expectation -/

/-- The text shown is the text taken. -/
theorem Reads.takenText_eq (h : Reads whole s r before w t after) : takenText r.1 = t := by
  cases hr : r.1 with
  | error problem => exact (h.error problem hr).1.symm
  | ok outcome =>
    cases outcome with
    | matched text groups => rw [takenText, (h.matched text groups hr).1, String.toList_ofList]
    | mismatch expected actual => rw [takenText, (h.mismatch expected actual hr).1, String.toList_ofList]

theorem Reads.blanks_eq (h : Reads whole s r before w t after) : s.rest.takeWhile isOutputBlank = w := by
  rw [h.starts.rest_eq]
  exact h.blanks.symm

theorem Reads.buffer_eq (h : Reads whole s r before w t after) : r.2.buffer = s.buffer := by
  have hbuffer : r.2.buffer.toList = s.buffer.toList := by
    rw [h.stops.buffer, h.starts.buffer]
    simp
  exact String.toList_inj.1 hbuffer

theorem takeWhile_eq_nil_of_blanks {p : Char → Bool} {w x : List Char} (h : w = (w ++ x).takeWhile p) :
    x.takeWhile p = [] := by
  induction w with
  | nil => exact h.symm
  | cons c w ih =>
    rw [List.cons_append, List.takeWhile_cons] at h
    split at h
    · exact ih (List.cons.inj h).2
    · contradiction

/-- What is there instead of a text expected is not empty, unless nothing is there. -/
theorem Reads.moves_on (h : Reads whole s r before w t after) {expected actual : String}
    (hr : r.1 = .ok (.mismatch expected actual)) :
    s.cursor < r.2.cursor ∨ r.2.residual? = some "" := by
  obtain ⟨-, -, -, ht⟩ := h.mismatch expected actual hr
  have hfirst := takeWhile_eq_nil_of_blanks h.blanks
  cases hx : t ++ after with
  | nil =>
    obtain ⟨-, rfl⟩ := List.append_eq_nil_iff.1 hx
    exact .inr h.stops.residual?_eq
  | cons c x =>
    -- The first character behind the blanks is none, so a mismatch takes it.
    have hc : isOutputBlank c = false := by
      rw [hx, List.takeWhile_cons] at hfirst
      split at hfirst
      · contradiction
      · rename_i hc
        simpa using hc
    have hne : t ≠ [] := by
      rw [ht, hx]
      split
      · exact List.cons_ne_nil _ _
      · rw [List.takeWhile_cons, hc]
        exact List.cons_ne_nil _ _
    have hlen : byteLength t ≠ 0 := fun hzero => hne (byteLength_eq_zero_iff.1 hzero)
    left
    rw [h.starts.cursor, h.stops.cursor, byteLength_append, byteLength_append]
    omega

/-- Only a pattern that cannot be read is a problem of the script. -/
theorem check_isOk_iff (s : State) (e : Expectation) :
    (s.check e).1.isOk = false ↔
      ∃ pattern, e = .regex pattern ∧ Regex.Program.read? (State.anchored pattern) = none := by
  cases e with
  | regex pattern =>
    cases hread : Regex.Program.read? (State.anchored pattern) with
    | some program =>
      simp [State.check, State.matchRegex, hread, Except.isOk, Except.toBool]
    | none => simp [State.check, State.matchRegex, hread, Except.isOk, Except.toBool]
  | literal text => simp [State.check, Except.isOk, Except.toBool]
  | json => simp [State.check, Except.isOk, Except.toBool]
  | relativeTime => simp [State.check, Except.isOk, Except.toBool]
  | isoTime => simp [State.check, Except.isOk, Except.toBool]

/-! ## All expectations of a command -/

theorem State.checkAll_cons (s : State) (e : Expectation) (es : List Expectation) :
    s.checkAll (e :: es) = (s.check e).2.checkAll es := rfl

/-- Wherever the expectations start, their pieces lie between the first place and the last one. -/
theorem State.At.checkAll {es : List Expectation} (hsound : ∀ e ∈ es, SoundExpectation e)
    (h : s.At before after) :
    ∃ left, after = (s.pieces es).flatten ++ left ∧
      (s.checkAll es).At (before ++ (s.pieces es).flatten) left := by
  induction es generalizing s before after with
  | nil => exact ⟨after, rfl, by rw [State.pieces, List.flatten_nil, List.append_nil]; exact h⟩
  | cons e es ih =>
    obtain ⟨he, hes⟩ := List.forall_mem_cons.1 hsound
    -- The first expectation stops at a place again, from where the others go on.
    obtain ⟨w, t, rest, hreads⟩ := check_reads he h
    obtain ⟨left, hrest, hat⟩ := ih hes hreads.stops
    have hpieces : (s.pieces (e :: es)).flatten = w ++ t ++ ((s.check e).2.pieces es).flatten := by
      rw [State.pieces, hreads.blanks_eq, hreads.takenText_eq]
      simp
    refine ⟨left, ?_, ?_⟩
    · have hafter := h.rest_eq.symm.trans hreads.starts.rest_eq
      rw [hafter, hrest, hpieces]
      simp
    · rw [State.checkAll_cons, hpieces, ← List.append_assoc, ← List.append_assoc]
      exact hat

/-- What one of the expectations does to the output: it reads the blanks at the front and the text that it
shows; what it passes over instead of a text expected is the run of characters up to the next blank, or for JSON
all that is left, and with a pattern that cannot be read it reads the blanks only. -/
structure Divides (s : State) (e : Expectation) (output : String) : Prop where
  buffer : s.buffer = output ∧ (s.check e).2.buffer = output
  pieces : ∃ before w t after, s.At before (w ++ t ++ after) ∧ (s.check e).2.At (before ++ w ++ t) after ∧
    w = (w ++ t ++ after).takeWhile isOutputBlank ∧ t = takenText (s.check e).1 ∧
    ∀ expected actual, (s.check e).1 = .ok (.mismatch expected actual) →
      t = if e = .json then t ++ after else (t ++ after).takeWhile (!isOutputBlank ·)
  moves_on : ∀ expected actual, (s.check e).1 = .ok (.mismatch expected actual) →
    s.cursor < (s.check e).2.cursor ∨ (s.check e).2.residual? = some ""
  unreadable : ∀ pattern, e = .regex pattern → Regex.Program.read? (State.anchored pattern) = none →
    takenText (s.check e).1 = [] ∧ (s.check e).2.hasFailed = s.hasFailed ∧
      (s.check e).2.failureCount = s.failureCount

theorem Reads.divides {e : Expectation} {output : String}
    (h : Reads (takesWhole e) s (s.check e) before w t after) (hbuffer : s.buffer = output) :
    Divides s e output := by
  refine ⟨⟨hbuffer, h.buffer_eq.trans hbuffer⟩, ⟨before, w, t, after, ?_, h.stops, ?_, h.takenText_eq.symm, ?_⟩,
    fun _ _ hr => h.moves_on hr, ?_⟩
  · rw [List.append_assoc]
    exact h.starts
  · rw [List.append_assoc]
    exact h.blanks
  · intro expected actual hr
    obtain ⟨-, -, -, ht⟩ := h.mismatch expected actual hr
    cases e <;> exact ht
  · intro pattern he hread
    have herror := (check_isOk_iff s e).2 ⟨pattern, he, hread⟩
    cases hr : (s.check e).1 with
    | ok outcome =>
      rw [hr] at herror
      contradiction
    | error problem =>
      obtain ⟨rfl, hfailed, hcount⟩ := h.error problem hr
      exact ⟨rfl, hfailed, hcount⟩

/-- The expectations between two captures divide the output. Whatever they are, each of them reads on from where
the one before it stopped, and the pieces that they read, in order, and what is left make up the output. The
patterns that can be read inside the parentheses that bind them have to be readable by themselves. -/
theorem checkAll_partition (s₀ : State) (output : String) (es : List Expectation)
    (hsound : ∀ e ∈ es, SoundExpectation e) :
    (∀ front e back, es = front ++ e :: back → Divides ((s₀.reset output).checkAll front) e output) ∧
      ∃ left, ((s₀.reset output).checkAll es).residual? = some left ∧
        String.ofList ((s₀.reset output).pieces es).flatten ++ left = output := by
  have hstart := State.at_reset s₀ output
  refine ⟨?_, ?_⟩
  · rintro front e back rfl
    have hfront : ∀ e ∈ front, SoundExpectation e := fun e he => hsound e (by simp [he])
    obtain ⟨rest, hrest, hat⟩ := hstart.checkAll hfront
    obtain ⟨w, t, after, hreads⟩ := check_reads (hsound e (by simp)) hat
    refine hreads.divides (String.toList_inj.1 ?_)
    rw [hat.buffer, List.nil_append, ← hrest]
  · obtain ⟨left, hrest, hat⟩ := hstart.checkAll hsound
    refine ⟨String.ofList left, hat.residual?_eq, ?_⟩
    rw [← String.ofList_append, ← hrest, String.ofList_toList]

/-- A wrong word, a pattern, a value that is no JSON: everything is read in the end. -/
theorem checkAll_partition_mixed :
    (∀ e ∈ [.literal "one", .regex "[0-9]+", .json], SoundExpectation e) ∧
      String.ofList ((State.new.reset "two 12\n x y").pieces [.literal "one", .regex "[0-9]+", .json]).flatten ++ "" =
        "two 12\n x y" := by
  have hsound : ∀ e ∈ [.literal "one", .regex "[0-9]+", .json], SoundExpectation e := by
    simp only [List.forall_mem_cons, SoundExpectation, Sound]
    exact ⟨trivial, fun _ => by decide +kernel, trivial, by simp⟩
  refine ⟨hsound, ?_⟩
  obtain ⟨left, hleft, houtput⟩ := (checkAll_partition State.new "two 12\n x y" _ hsound).2
  have hempty : ((State.new.reset "two 12\n x y").checkAll
    [.literal "one", .regex "[0-9]+", .json]).residual? = some "" := by decide +kernel
  obtain rfl : "" = left := Option.some.inj (hempty.symm.trans hleft)
  exact houtput

end Conformance.Output
