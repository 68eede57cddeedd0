import Conformance.Proofs.Output.Reading
import Conformance.Proofs.Regex.Texts
import Conformance.Proofs.Text.Decimal

/-!
# Expected times

The formats of dates and of times in words as languages, and that an expected time takes exactly the texts of its format
(`times_in_their_formats`). No text of a format is the front of another one, so there is never a choice.
-/
namespace Conformance.Output

open Text Regex

deriving instance DecidableEq for Ranges, Property, CharSet, Node

/-! ## Formats -/

/-- Numbers of any length. -/
def digits : Language Char := runsOf Char.isDigit 1 none

def twoDigits : Language Char := runsOf Char.isDigit 2 (some 2)

/-- White space between words. -/
def gaps : Language Char := runsOf isWhite 1 none

/-- Dates with a time of day, such as `2014-06-20T14:13:00`. -/
def isoTimes : Language Char :=
  digits * {['-']} * twoDigits * {['-']} * twoDigits * {['T']} * twoDigits * {[':']} * twoDigits * {[':']} * twoDigits

/-- Units of time, in the singular. -/
def units : List String := ["second", "minute", "hour", "day", "week", "month", "year"]

/-- What tells the past from the future. -/
def directions : Language Char :=
  anyOf (["ago", "old", "remaining"].map String.toList) +
    {"in".toList} * gaps * {"the".toList} * gaps * {"future".toList}

/-- Times in words, such as `5 minutes ago`. -/
def relativeTimes : Language Char :=
  digits * gaps * anyOf (units.map String.toList) * runsOf (· = 's') 0 (some 1) * gaps * directions

/-! ## Patterns of the formats -/

/-- The digits of ASCII, as patterns write them. -/
def digitSet : CharSet := .range 0x30 0x39

def digitsNode : Node := .repeat 1 none true (.set digitSet)

def twoDigitsNode : Node := .repeat 2 (some 2) true (.set digitSet)

def gapsNode : Node := .repeat 1 none true (.set (.property .white))

def isoTimeNode : Node :=
  .cat digitsNode (.spelled ['-'] (.cat twoDigitsNode (.spelled ['-'] (.cat twoDigitsNode (.spelled ['T']
    (.cat twoDigitsNode (.spelled [':'] (.cat twoDigitsNode (.spelled [':'] twoDigitsNode)))))))))

def directionsNode : Node :=
  .choices (["ago", "old", "remaining"].map String.toList)
    (.spelled "in".toList (.cat gapsNode (.spelled "the".toList (.cat gapsNode (.literal "future".toList)))))

def relativeTimeNode : Node :=
  .cat digitsNode (.cat gapsNode (.cat (.choices (units.dropLast.map String.toList) (.literal "year".toList))
    (.cat (.repeat 0 (some 1) true (.set (.single 's'))) (.cat gapsNode directionsNode))))

/-- A pattern that is read as this tree, without names. -/
theorem read?_of_parts {text : String} {node : Node}
    (h : (Pattern.read? text).map (fun p => (p.node, p.names)) = some (node, [])) :
    Program.read? text = some (.ofNode node []) := by
  obtain ⟨p, hp, hparts⟩ := Option.map_eq_some_iff.1 h
  obtain ⟨hnode, hnames⟩ := Prod.mk.inj hparts
  unfold Program.read?
  rw [hp, ← hnode, ← hnames]
  rfl

theorem read?_isoTimePattern :
    Program.read? (State.anchored isoTimePattern) = some (.ofNode (.cat (.look .start) isoTimeNode) []) :=
  read?_of_parts (by decide +kernel)

theorem read?_relativeTimePattern :
    Program.read? (State.anchored relativeTimePattern) = some (.ofNode (.cat (.look .start) relativeTimeNode) []) :=
  read?_of_parts (by decide +kernel)

theorem contains_digitSet (c : Char) : digitSet.contains c.toNat = c.isDigit := by
  rw [digitSet, CharSet.contains, Char.isDigit, Bool.eq_iff_iff, Bool.and_eq_true, Bool.and_eq_true,
    decide_eq_true_iff, decide_eq_true_iff, decide_eq_true_iff, decide_eq_true_iff]
  exact Iff.rfl

theorem contains_white (c : Char) : (CharSet.property .white).contains c.toNat = isWhite c := by
  rw [CharSet.contains, Property.holds, Char.ofNat_toNat]

theorem reads_isoTimeNode : isoTimeNode.Reads isoTimes := by
  have hdigits : digitsNode.Reads digits := Node.reads_repeat contains_digitSet 1 none true
  have htwo : twoDigitsNode.Reads twoDigits := Node.reads_repeat contains_digitSet 2 (some 2) true
  rw [isoTimes]
  simp only [mul_assoc]
  exact hdigits.cat ((htwo.cat ((htwo.cat ((htwo.cat ((htwo.cat (htwo.spelled _)).spelled _)).spelled _)).spelled
    _)).spelled _)

theorem reads_directionsNode : directionsNode.Reads directions := by
  have hgaps : gapsNode.Reads gaps := Node.reads_repeat contains_white 1 none true
  rw [directions]
  simp only [mul_assoc]
  exact ((hgaps.cat ((hgaps.cat (Node.reads_literal _)).spelled _)).spelled _).choices _

theorem reads_relativeTimeNode : relativeTimeNode.Reads relativeTimes := by
  have hdigits : digitsNode.Reads digits := Node.reads_repeat contains_digitSet 1 none true
  have hgaps : gapsNode.Reads gaps := Node.reads_repeat contains_white 1 none true
  have hunits : (Node.choices (units.dropLast.map String.toList) (.literal "year".toList)).Reads
      (anyOf (units.map String.toList)) := by
    have hunits : anyOf (units.dropLast.map String.toList) + {"year".toList} = anyOf (units.map String.toList) := by
      ext t
      show t ∈ units.dropLast.map String.toList ∨ t = "year".toList ↔
        t ∈ units.dropLast.map String.toList ++ ["year".toList]
      rw [List.mem_append, List.mem_singleton]
    exact hunits ▸ (Node.reads_literal _).choices _
  have hplural : (Node.repeat 0 (some 1) true (.set (.single 's'))).Reads (runsOf (· = 's') 0 (some 1)) :=
    Node.reads_repeat (CharSet.contains_single 's') 0 (some 1) true
  rw [relativeTimes]
  simp only [mul_assoc]
  exact hdigits.cat (hgaps.cat (hunits.cat (hplural.cat (hgaps.cat reads_directionsNode))))

/-! ## No choice -/

theorem prefixFree_isoTimes : PrefixFree isoTimes := by
  have htwo : PrefixFree twoDigits := prefixFree_of_length fun t ht => Nat.le_antisymm (ht.2.2 2 rfl) ht.2.1
  rw [isoTimes]
  simp only [mul_assoc]
  have hword : ∀ (c : Char) {L : Language Char}, PrefixFree L → PrefixFree ({[c]} * L) :=
    fun c L hL => (prefixFree_singleton [c]).mul hL
  refine PrefixFree.run_mul ?_ (beginsWith_singleton rfl).mul
  exact hword '-' (htwo.mul (hword '-' (htwo.mul (hword 'T' (htwo.mul (hword ':' (htwo.mul (hword ':' htwo))))))))

theorem beginsWith_gaps : BeginsWith isWhite gaps := beginsWith_runsOf Nat.one_pos none

/-- Words behind white space. -/
theorem prefixFree_gaps_mul {L : Language Char} (hL : PrefixFree L) (hbegins : BeginsWith (!isWhite ·) L) :
    PrefixFree (gaps * L) := hL.run_mul hbegins

theorem beginsWith_directions : BeginsWith (!isWhite ·) directions := by
  have hwords : BeginsWith (!isWhite ·) (anyOf (["ago", "old", "remaining"].map String.toList)) :=
    beginsWith_anyOf (by decide)
  rw [directions]
  simp only [mul_assoc]
  exact hwords.add (beginsWith_singleton (by decide)).mul

theorem prefixFree_directions : PrefixFree directions := by
  have hwords : PrefixFree (anyOf (["ago", "old", "remaining"].map String.toList)) := prefixFree_anyOf (by decide)
  have hfuture : PrefixFree (gaps * ({"the".toList} * (gaps * {"future".toList}))) :=
    prefixFree_gaps_mul ((prefixFree_singleton _).mul
      (prefixFree_gaps_mul (prefixFree_singleton _) (beginsWith_singleton (by decide))))
      (beginsWith_singleton (by decide)).mul
  rw [directions]
  simp only [mul_assoc]
  exact hwords.add (p := (· ≠ 'i')) ((prefixFree_singleton _).mul hfuture) (beginsWith_anyOf (by decide))
    (beginsWith_singleton (by decide)).mul

theorem prefixFree_relativeTimes : PrefixFree relativeTimes := by
  have hunits : PrefixFree (anyOf (units.map String.toList)) := prefixFree_anyOf (by decide)
  have hbegins : BeginsWith (!isWhite ·) (anyOf (units.map String.toList)) := beginsWith_anyOf (by decide)
  have hplural : PrefixFree (runsOf (· = 's') 0 (some 1) * (gaps * directions)) := by
    refine (prefixFree_gaps_mul prefixFree_directions beginsWith_directions).run_mul (beginsWith_gaps.mul.mono ?_)
    rintro c hc
    have hs : c ≠ 's' := by
      rintro rfl
      exact absurd hc (by decide)
    simpa using hs
  rw [relativeTimes]
  simp only [mul_assoc]
  refine PrefixFree.run_mul (prefixFree_gaps_mul (hunits.mul hplural) hbegins.mul) (beginsWith_gaps.mul.mono ?_)
  intro c hc
  have hdigit : c.isDigit = false := Bool.eq_false_iff.2 fun h => by
    rw [isWhite_of_isDigit h] at hc
    cases hc
  rw [hdigit]
  rfl

/-! ## Expecting a time -/

/-- Behind the blanks, where `rest` is left, an operation takes the one front of `rest` that is in the format. If there
is none, it passes over the characters up to the next blank instead, and counts a failure. -/
structure TakesFormat (format : Language Char) (pattern : String) (s : State) (before rest : List Char)
    (r : Outcome × State) : Prop where
  isMatch_iff : r.1.isMatch = true ↔ ∃ t ∈ format, t <+: rest
  unique : ∀ t ∈ format, ∀ u ∈ format, t <+: rest → u <+: rest → t = u
  matched : ∀ t ∈ format, ∀ behind, rest = t ++ behind →
    r.1 = .matched (String.ofList t) [] ∧ r.2.At (before ++ t) behind ∧ r.2.hasFailed = s.hasFailed ∧
      r.2.failureCount = s.failureCount
  mismatch : (∀ t ∈ format, ¬ t <+: rest) → ∃ run behind, rest = run ++ behind ∧
    run = rest.takeWhile (!isOutputBlank ·) ∧ (run = [] ↔ rest = []) ∧
      r.1 = .mismatch pattern (String.ofList run) ∧ r.2.At (before ++ run) behind ∧ r.2.hasFailed = true ∧
        r.2.failureCount = s.failureCount + 1

section Expecting

variable {s : State} {before after : List Char}

theorem matchBuiltin_of_read {pattern : String} {program : Program}
    (hread : Program.read? (State.anchored pattern) = some program) (s : State) :
    s.matchBuiltin pattern = s.skipBlanks.matchProgram program pattern := by
  rw [State.matchBuiltin, State.matchRegex, hread]
  rfl

/-- A pattern whose language lets no choice is expected as this language says. -/
theorem takesFormat_of_reads {pattern : String} {a : Node} {L : Language Char}
    (hread : Program.read? (State.anchored pattern) = some (.ofNode (.cat (.look .start) a) []))
    (horder : a.inOrder = true) (ha : a.Reads L) (hfree : PrefixFree L) (h : s.At before after) :
    TakesFormat L pattern s (before ++ after.takeWhile isOutputBlank) (after.dropWhile isOutputBlank)
      (s.matchBuiltin pattern) := by
  obtain ⟨hsome, hnone⟩ := Program.find?_bound horder ha hfree (after.dropWhile isOutputBlank)
  have hskip := h.skipBlanks
  -- one text of the language at most begins the output, so the one that is found is the one meant
  have hmatched : ∀ t ∈ L, ∀ behind, after.dropWhile isOutputBlank = t ++ behind →
      s.matchBuiltin pattern = (.matched (String.ofList t) [], s.skipBlanks.take t) := by
    intro t ht behind hrest
    rw [matchBuiltin_of_read hread, State.matchProgram, hskip.rest_eq, hsome t ht ⟨behind, hrest.symm⟩]
  have hmismatch : (∀ t ∈ L, ¬ t <+: after.dropWhile isOutputBlank) →
      s.matchBuiltin pattern = s.skipBlanks.fail pattern := by
    intro hall
    rw [matchBuiltin_of_read hread, State.matchProgram, hskip.rest_eq, hnone hall]
  refine ⟨⟨fun hmatch => ?_, ?_⟩, fun t ht u hu => hfree.eq_of_prefix ht hu, fun t ht behind hrest => ?_, fun hall => ?_⟩
  · by_contra hno
    rw [hmismatch fun t ht hle => hno ⟨t, ht, hle⟩] at hmatch
    cases hmatch
  · rintro ⟨t, ht, behind, hrest⟩
    rw [hmatched t ht behind hrest.symm]
    rfl
  · rw [hmatched t ht behind hrest]
    rw [hrest] at hskip
    exact ⟨rfl, hskip.take, rfl, rfl⟩
  · have hsplit := (List.takeWhile_append_dropWhile (p := (!isOutputBlank ·)) (l := after.dropWhile isOutputBlank)).symm
    refine ⟨_, _, hsplit, rfl, ?_, ?_⟩
    · have hfirst := List.head?_dropWhile_not isOutputBlank after
      cases hrest : after.dropWhile isOutputBlank with
      | nil => exact Iff.rfl
      | cons c r =>
        rw [hrest] at hfirst
        have hother : (!isOutputBlank c) = true := by simpa using hfirst
        rw [List.takeWhile_cons_of_pos (p := (!isOutputBlank ·)) hother]
        exact iff_of_false (List.cons_ne_nil _ _) (List.cons_ne_nil _ _)
    · rw [hmismatch hall, State.fail, hskip.rest_eq]
      rw [hsplit] at hskip
      exact ⟨rfl, hskip.take.countFailure, rfl, rfl⟩

end Expecting

/-- Wherever the reading stands, an expected date is taken exactly where one begins behind the blanks, and so is an
expected time in words. -/
theorem times_in_their_formats {s : State} {before after : List Char} (h : s.At before after) :
    TakesFormat isoTimes isoTimePattern s (before ++ after.takeWhile isOutputBlank) (after.dropWhile isOutputBlank)
      s.matchIsoTime ∧
    TakesFormat relativeTimes relativeTimePattern s (before ++ after.takeWhile isOutputBlank)
      (after.dropWhile isOutputBlank) s.matchRelativeTime :=
  ⟨takesFormat_of_reads read?_isoTimePattern rfl reads_isoTimeNode prefixFree_isoTimes h,
    takesFormat_of_reads read?_relativeTimePattern rfl reads_relativeTimeNode prefixFree_relativeTimes h⟩

/-- A time in words is taken, and no date is found instead. -/
theorem times_in_their_formats_minutes :
    let s := State.new.reset " 5 minutes ago"
    s.At [] " 5 minutes ago".toList ∧
      (∃ t ∈ relativeTimes, t <+: "5 minutes ago".toList) ∧ ¬ (∃ t ∈ isoTimes, t <+: "5 minutes ago".toList) := by
  intro s
  have hs : s.At [] " 5 minutes ago".toList := State.at_reset State.new " 5 minutes ago"
  obtain ⟨hiso, hrelative⟩ := times_in_their_formats hs
  have hrelativeMatch : s.matchRelativeTime.1.isMatch = true := by decide +kernel
  have hisoMatch : s.matchIsoTime.1.isMatch = false := by decide +kernel
  have hrest : " 5 minutes ago".toList.dropWhile isOutputBlank = "5 minutes ago".toList := by decide
  rw [hrest] at hiso hrelative
  refine ⟨hs, hrelative.isMatch_iff.1 hrelativeMatch, fun hfound => ?_⟩
  rw [hiso.isMatch_iff.2 hfound] at hisoMatch
  cases hisoMatch

end Conformance.Output
