import Conformance.Output.State
import Conformance.Proofs.Json.Scan
import Conformance.Proofs.Regex.Anchor
import Conformance.Proofs.Text.Bytes

/-!
# What an expectation reads

Every expectation divides the output in front of it into blanks, a text that it takes, and what is left.
`State.At` says where the reading stands, and `Reads` how an expectation moves it on.
-/
namespace Conformance.Output

open Text Expr

/-- `before` has been read, and `after` has not. -/
structure State.At (s : State) (before after : List Char) : Prop where
  buffer : s.buffer.toList = before ++ after
  cursor : s.cursor = byteLength before

/-- The reading stops between two characters of the buffer. -/
def State.CursorValid (s : State) : Prop :=
  s.cursor ≤ s.buffer.utf8ByteSize ∧ (⟨s.cursor⟩ : String.Pos.Raw).IsValid s.buffer

/-! ## Where the reading stands -/

namespace State

variable {s : State} {before after : List Char}

theorem At.rest_eq (h : s.At before after) : s.rest = after := by
  rw [rest, h.buffer, h.cursor, dropBytes_append]

theorem At.residual?_eq (h : s.At before after) : s.residual? = some (String.ofList after) := by
  rw [residual?, if_pos, h.rest_eq]
  rw [h.buffer, h.cursor]
  exact isBoundary_iff.2 ⟨before, after, rfl, rfl⟩

/-- Reading a text at the front of the rest moves it from one side to the other. -/
theorem At.take {text : List Char} (h : s.At before (text ++ after)) :
    (s.take text).At (before ++ text) after :=
  ⟨by rw [List.append_assoc]; exact h.buffer, by rw [byteLength_append, ← h.cursor]; rfl⟩

theorem At.countFailure (h : s.At before after) : s.countFailure.At before after := ⟨h.buffer, h.cursor⟩

theorem at_reset (s : State) (output : String) : (s.reset output).At [] output.toList := ⟨rfl, rfl⟩

theorem at_new : new.At [] [] := ⟨rfl, rfl⟩

/-- A valid cursor divides the buffer. -/
theorem cursorValid_iff : s.CursorValid ↔ ∃ before after, s.At before after := by
  constructor
  · rintro ⟨-, h⟩
    obtain ⟨a, b, hab, ha⟩ := isBoundary_iff.1 (isBoundary_iff_isValid.2 h)
    exact ⟨a, b, hab, ha.symm⟩
  · rintro ⟨before, after, h⟩
    refine ⟨?_, isBoundary_iff_isValid.1 (isBoundary_iff.2 ⟨before, after, h.buffer, h.cursor.symm⟩)⟩
    rw [h.cursor, ← byteLength_toList, h.buffer, byteLength_append]
    exact Nat.le_add_right _ _

/-- The text not yet read is defined exactly if the cursor is valid. -/
theorem residual?_isSome_iff : s.residual?.isSome ↔ s.CursorValid := by
  constructor
  · intro h
    unfold residual? at h
    split at h
    · rename_i hb
      obtain ⟨a, b, hab, ha⟩ := isBoundary_iff.1 hb
      exact cursorValid_iff.2 ⟨a, b, hab, ha.symm⟩
    · contradiction
  · intro h
    obtain ⟨before, after, h⟩ := cursorValid_iff.1 h
    rw [h.residual?_eq]
    rfl

end State

/-! ## What an expectation takes -/

/-- The output in front of an expectation is the blanks `w`, the text `t` and the rest `after`, and the
result `r` of the expectation is to have read `w` and `t`. What is there instead of the text expected is taken
up to the next blank, or, if `whole`, up to its end. -/
structure Reads (whole : Bool) (s : State) (r : Except Problem Outcome × State)
    (before w t after : List Char) : Prop where
  starts : s.At before (w ++ (t ++ after))
  stops : r.2.At (before ++ w ++ t) after
  blanks : w = (w ++ (t ++ after)).takeWhile isOutputBlank
  matched : ∀ text groups, r.1 = .ok (.matched text groups) →
    text = String.ofList t ∧ r.2.hasFailed = s.hasFailed ∧ r.2.failureCount = s.failureCount
  mismatch : ∀ expected actual, r.1 = .ok (.mismatch expected actual) →
    actual = String.ofList t ∧ r.2.hasFailed = true ∧ r.2.failureCount = s.failureCount + 1 ∧
      t = if whole then t ++ after else (t ++ after).takeWhile (!isOutputBlank ·)
  error : ∀ problem, r.1 = .error problem →
    t = [] ∧ r.2.hasFailed = s.hasFailed ∧ r.2.failureCount = s.failureCount

section

variable {s : State} {before after : List Char}

/-- The blanks at the front are read first. -/
theorem State.At.skipBlanks (h : s.At before after) :
    s.skipBlanks.At (before ++ after.takeWhile isOutputBlank) (after.dropWhile isOutputBlank) := by
  rw [State.skipBlanks, h.rest_eq]
  refine State.At.take ?_
  rw [List.takeWhile_append_dropWhile]
  exact h

theorem takeWhile_blanks {p : Char → Bool} (cs : List Char) :
    cs.takeWhile p = (cs.takeWhile p ++ cs.dropWhile p).takeWhile p := by
  rw [List.takeWhile_append_dropWhile]

/-- A text taken at the front of what follows the blanks. -/
theorem reads_matched {t rest : List Char} {text : String} {groups : Captures} (whole : Bool)
    (h : s.At before after) (htext : text = String.ofList t) (hrest : after.dropWhile isOutputBlank = t ++ rest) :
    Reads whole s (.ok (.matched text groups), s.skipBlanks.take t) before (after.takeWhile isOutputBlank) t
      rest := by
  have hskip := h.skipBlanks
  rw [hrest] at hskip
  refine ⟨?_, hskip.take, ?_, ?_, ?_, ?_⟩
  · rw [← hrest, List.takeWhile_append_dropWhile]
    exact h
  · rw [← hrest]
    exact takeWhile_blanks after
  · intro text' groups' hr
    obtain ⟨rfl, -⟩ : text = text' ∧ groups = groups' := by simpa using hr
    exact ⟨htext, rfl, rfl⟩
  · intro expected actual hr
    cases hr
  · intro problem hr
    cases hr

/-- A mismatch takes what it reports, up to the next blank or up to the end. -/
theorem reads_mismatch {t rest : List Char} (whole : Bool) (h : s.At before after) (expected : String)
    (hrest : after.dropWhile isOutputBlank = t ++ rest)
    (ht : t = if whole then t ++ rest else (t ++ rest).takeWhile (!isOutputBlank ·)) :
    Reads whole s (.ok (.mismatch expected (String.ofList t)), (s.skipBlanks.take t).countFailure) before
      (after.takeWhile isOutputBlank) t rest := by
  have hskip := h.skipBlanks
  rw [hrest] at hskip
  refine ⟨?_, hskip.take.countFailure, ?_, ?_, ?_, ?_⟩
  · rw [← hrest, List.takeWhile_append_dropWhile]
    exact h
  · rw [← hrest]
    exact takeWhile_blanks after
  · intro text groups hr
    cases hr
  · intro expected' actual hr
    obtain ⟨-, rfl⟩ : expected = expected' ∧ String.ofList t = actual := by simpa using hr
    exact ⟨rfl, rfl, rfl, ht⟩
  · intro problem hr
    cases hr

/-- A problem of the script leaves everything but the blanks. -/
theorem reads_error (whole : Bool) (h : s.At before after) (problem : Problem) :
    Reads whole s (.error problem, s.skipBlanks) before (after.takeWhile isOutputBlank) []
      (after.dropWhile isOutputBlank) := by
  have hskip := h.skipBlanks
  refine ⟨?_, ?_, takeWhile_blanks after, ?_, ?_, ?_⟩
  · rw [List.nil_append, List.takeWhile_append_dropWhile]
    exact h
  · rw [List.append_nil]
    exact hskip
  · intro text groups hr
    cases hr
  · intro expected actual hr
    cases hr
  · intro problem' _
    exact ⟨rfl, rfl, rfl⟩

/-- What is there instead of a text expected is a run of characters that are no blanks. -/
theorem reads_fail (h : s.At before after) (expected : String) :
    ∃ t rest, Reads false s ((s.skipBlanks.fail expected).map .ok id) before
      (after.takeWhile isOutputBlank) t rest := by
  have hrest := (List.takeWhile_append_dropWhile (p := (!isOutputBlank ·))
    (l := after.dropWhile isOutputBlank)).symm
  rw [State.fail, h.skipBlanks.rest_eq]
  exact ⟨_, _, reads_mismatch false h expected hrest (takeWhile_blanks _)⟩

theorem matchLiteral_reads (h : s.At before after) (text : String) :
    ∃ w t rest, Reads false s ((s.matchLiteral text).map .ok id) before w t rest := by
  rw [State.matchLiteral]
  split
  · rename_i hprefix
    obtain ⟨rest, hrest⟩ := Option.isSome_iff_exists.1 hprefix
    rw [h.skipBlanks.rest_eq, dropPrefix?_eq_some_iff] at hrest
    exact ⟨_, _, _, reads_matched false h (String.ofList_toList).symm hrest⟩
  · exact ⟨_, reads_fail h text⟩

/-- The match of a program is taken as a whole if it is the front of the text. -/
theorem matchProgram_reads {program : Regex.Program} (h : s.At before after)
    (hfront : ∀ m, program.find? (after.dropWhile isOutputBlank) = some m →
      m.text <+: after.dropWhile isOutputBlank) (pattern : String) :
    ∃ w t rest,
      Reads false s ((s.skipBlanks.matchProgram program pattern).map .ok id) before w t rest := by
  rw [State.matchProgram, h.skipBlanks.rest_eq]
  split
  · rename_i m hm
    obtain ⟨rest, hrest⟩ := hfront m hm
    exact ⟨_, _, _, reads_matched false h rfl hrest.symm⟩
  · exact ⟨_, reads_fail h pattern⟩

/-- A pattern that can be read in its parentheses can be read by itself. -/
def Sound (pattern : String) : Prop :=
  (Regex.Program.read? (State.anchored pattern)).isSome → (Regex.Program.read? pattern).isSome

theorem matchRegex_reads {pattern : String} (hsound : Sound pattern) (h : s.At before after) :
    ∃ w t rest, Reads false s (s.matchRegex pattern) before w t rest := by
  rw [State.matchRegex]
  split
  · rename_i program hprogram
    refine matchProgram_reads h (fun m hm => ?_) pattern
    refine Regex.find?_prefix_of_bound (hsound ?_) hprogram hm
    rw [hprogram]
    rfl
  · exact ⟨_, _, _, reads_error false h _⟩

/-- What stands behind the blanks does not begin with white space of JSON. -/
theorem not_space_behind_blanks (cs : List Char) : ∀ c ∈ (cs.dropWhile isOutputBlank).head?, Json.isSpace c = false := by
  intro c hc
  have hblank := List.head?_dropWhile_not isOutputBlank cs
  rw [Option.mem_def.1 hc] at hblank
  have hother : isOutputBlank c = false := by simpa using hblank
  cases hspace : Json.isSpace c with
  | false => rfl
  | true => rcases Json.isSpace_cases hspace with rfl | rfl | rfl | rfl <;> cases hother

/-- The value behind the blanks is taken. -/
theorem State.At.matchJson_matched {t rest : List Char} (h : s.At before after)
    (hrest : after.dropWhile isOutputBlank = t ++ rest) (hbehind : Json.behindValue? (t ++ rest) = some rest) :
    s.matchJson = (.matched (String.ofList t) [], s.skipBlanks.take t) := by
  rw [State.matchJson, h.skipBlanks.rest_eq, hrest, hbehind]
  dsimp only
  rw [List.length_append, Nat.add_sub_cancel, List.take_left]

/-- What is behind the blanks instead of a value is passed over to its end. -/
theorem State.At.matchJson_mismatch {t : List Char} (h : s.At before after)
    (hrest : after.dropWhile isOutputBlank = t) (hbehind : Json.behindValue? t = none) :
    s.matchJson = (.mismatch jsonPlaceholder (String.ofList t), (s.skipBlanks.take t).countFailure) := by
  rw [State.matchJson, h.skipBlanks.rest_eq, hrest, hbehind]

theorem matchJson_reads (h : s.At before after) :
    ∃ w t rest, Reads true s (s.matchJson.map .ok id) before w t rest := by
  cases hbehind : Json.behindValue? (after.dropWhile isOutputBlank) with
  | some rest =>
    obtain ⟨t, ht, -⟩ := (Json.behindValue?_eq_some_iff (not_space_behind_blanks after)).1 hbehind
    rw [ht] at hbehind
    rw [h.matchJson_matched ht hbehind]
    exact ⟨_, _, _, reads_matched true h rfl ht⟩
  | none =>
    rw [h.matchJson_mismatch rfl hbehind]
    exact ⟨_, _, [], reads_mismatch true h _ (List.append_nil _).symm (List.append_nil _).symm⟩

/-- The patterns of times can be read by themselves. -/
theorem sound_relativeTimePattern : Sound relativeTimePattern :=
  fun _ => by decide +kernel

theorem sound_isoTimePattern : Sound isoTimePattern :=
  fun _ => by decide +kernel

theorem matchBuiltin_reads {pattern : String} (hsound : Sound pattern) (h : s.At before after) :
    ∃ w t rest, Reads false s ((s.matchBuiltin pattern).map .ok id) before w t rest := by
  have hreads := matchRegex_reads hsound h
  cases hread : Regex.Program.read? (State.anchored pattern) with
  | some program =>
    rw [State.matchBuiltin]
    rw [State.matchRegex, hread] at hreads ⊢
    exact hreads
  | none =>
    -- A pattern of the program's own is never refused, but the lemma need not know that.
    rw [State.matchBuiltin, State.matchRegex, hread]
    exact ⟨_, reads_fail h pattern⟩

end

/-! ## Expectations -/

/-- Whether what is there instead of the text expected is taken up to its end. -/
def takesWhole : Expectation → Bool
  | .json => true
  | _ => false

/-- The pattern of a regular expression is sound. -/
def SoundExpectation : Expectation → Prop
  | .regex pattern => Sound pattern
  | _ => True

theorem check_reads {s : State} {before after : List Char} {e : Expectation} (hsound : SoundExpectation e)
    (h : s.At before after) : ∃ w t rest, Reads (takesWhole e) s (s.check e) before w t rest := by
  cases e with
  | literal text => exact matchLiteral_reads h text
  | regex pattern => exact matchRegex_reads hsound h
  | json => exact matchJson_reads h
  | relativeTime => exact matchBuiltin_reads sound_relativeTimePattern h
  | isoTime => exact matchBuiltin_reads sound_isoTimePattern h

end Conformance.Output
