import Conformance.Proofs.Json.Printing
import Conformance.Proofs.Output.Reading

/-!
# Expecting a JSON value

An expectation of a JSON value takes one complete value behind the blanks and not a character more
(`matchJson_takes_one_value`). In particular it takes a value that is written there, compact or indented, as a whole,
whatever follows an object, an array or a string. Where there is no such value everything is passed over, as one failure.
-/
namespace Conformance.Json

/-- The value is a string, an array or an object, which end with a character of their own. -/
def Delimited : Json → Prop
  | .str _ | .arr _ | .obj _ => True
  | .null | .bool _ | .number _ => False

/-- A text that spells a string, an array or an object ends by itself. -/
theorem Spells.selfEnding {depth : Nat} {cs : List Char} {v : Json} (h : Spells depth cs v) (hv : v.Delimited) :
    SelfEnding cs := by
  cases h with
  | null | yes | no | number => cases hv
  | string | emptyArray | array | emptyObject | object =>
    intro c hc
    rw [← Option.some.inj hc]
    rfl

end Conformance.Json

namespace Conformance.Output

open Text Json

/-- The characters are blanks of the output. -/
def Blanks (cs : List Char) : Prop := ∀ c ∈ cs, isOutputBlank c = true

/-- In the output, behind blanks, stands one complete value `text`, and then `rest`, which keeps apart from a value that
does not end by itself. -/
structure HoldsValue (output text rest : List Char) : Prop where
  split : ∃ front, Blanks front ∧ output = front ++ (text ++ rest)
  complete : Complete text
  ended : SelfEnding text ∨ KeepsApart rest

/-- The reading has moved on so that `rest` is left, and no failure has been counted. -/
structure MovedOn (s s' : State) (rest : List Char) : Prop where
  residual : s'.residual? = some (String.ofList rest)
  buffer : s'.buffer = s.buffer
  hasFailed : s'.hasFailed = s.hasFailed
  failureCount : s'.failureCount = s.failureCount

/-- The reading has passed over everything, and one failure has been counted. -/
structure GaveUp (s s' : State) : Prop where
  residual : s'.residual? = some ""
  buffer : s'.buffer = s.buffer
  hasFailed : s'.hasFailed = true
  failureCount : s'.failureCount = s.failureCount + 1

/-- A complete value does not begin with a blank. -/
theorem isOutputBlank_head {text : List Char} (h : Complete text) :
    ∃ c r, text = c :: r ∧ isOutputBlank c = false := by
  cases h with
  | null | yes | no | string | emptyArray | array | emptyObject | object => exact ⟨_, _, rfl, rfl⟩
  | number n =>
    obtain ⟨c, r, htext, hc⟩ := n.head_text
    refine ⟨c, r, htext, ?_⟩
    rcases hc with rfl | hdigit
    · rfl
    · cases hblank : isOutputBlank c with
      | false => rfl
      | true =>
        simp only [isOutputBlank, isInlineBlank, Bool.or_eq_true, decide_eq_true_eq] at hblank
        rcases hblank with ((((rfl | rfl) | rfl) | rfl) | rfl) | rfl <;> cases hdigit

/-- Behind the blanks the value begins. -/
theorem HoldsValue.dropWhile_eq {output text rest : List Char} (h : HoldsValue output text rest) :
    output.dropWhile isOutputBlank = text ++ rest := by
  obtain ⟨front, hfront, rfl⟩ := h.split
  obtain ⟨c, r, rfl, hc⟩ := isOutputBlank_head h.complete
  rw [List.dropWhile_append_of_pos hfront, List.cons_append]
  exact List.dropWhile_cons_of_neg (by rw [hc]; exact Bool.false_ne_true)

/-- The scan behind the blanks finds the value that the output holds, and finds one only where the output holds one. -/
theorem behindValue?_iff_holdsValue {output rest : List Char} :
    behindValue? (output.dropWhile isOutputBlank) = some rest ↔ ∃ text, HoldsValue output text rest := by
  rw [behindValue?_eq_some_iff (not_space_behind_blanks output)]
  constructor
  · rintro ⟨text, hsplit, hcomplete, hended⟩
    refine ⟨text, ⟨output.takeWhile isOutputBlank, List.all_eq_true.1 List.all_takeWhile, ?_⟩, hcomplete, hended⟩
    rw [← hsplit, List.takeWhile_append_dropWhile]
  · rintro ⟨text, h⟩
    exact ⟨text, h.dropWhile_eq, h.complete, h.ended⟩

section

variable {s : State} {before after : List Char}

/-- A value that the output holds is taken. -/
theorem State.At.matchJson_takes {text rest : List Char} (h : s.At before after) (hvalue : HoldsValue after text rest) :
    s.matchJson.1 = .matched (String.ofList text) [] ∧ MovedOn s s.matchJson.2 rest := by
  have hbehind := behindValue?_iff_holdsValue.2 ⟨text, hvalue⟩
  rw [hvalue.dropWhile_eq] at hbehind
  have hskip := h.skipBlanks
  rw [hvalue.dropWhile_eq] at hskip
  rw [h.matchJson_matched hvalue.dropWhile_eq hbehind]
  exact ⟨rfl, hskip.take.residual?_eq, rfl, rfl, rfl⟩

/-- Where the output holds no value, everything is passed over. -/
theorem State.At.matchJson_gives_up (h : s.At before after) (hvalue : ∀ text rest, ¬ HoldsValue after text rest) :
    s.matchJson.1 = .mismatch jsonPlaceholder (String.ofList (after.dropWhile isOutputBlank)) ∧
      GaveUp s s.matchJson.2 := by
  have hbehind : behindValue? (after.dropWhile isOutputBlank) = none := by
    refine Option.eq_none_iff_forall_ne_some.2 fun rest hrest => ?_
    obtain ⟨text, htext⟩ := behindValue?_iff_holdsValue.1 hrest
    exact hvalue text rest htext
  have hskip := h.skipBlanks
  rw [← List.append_nil (after.dropWhile isOutputBlank)] at hskip
  rw [h.matchJson_mismatch rfl hbehind]
  exact ⟨rfl, hskip.take.countFailure.residual?_eq, rfl, rfl, rfl⟩

end

/-- A value that is written in the output, behind blanks and in front of what keeps apart from it, is held there. -/
theorem holdsValue_written {depth : Nat} {v : Json} (hv : v.Proper depth) {printed : String}
    (hprinted : printed = v.compact ∨ printed = v.indented) {front rest : List Char} (hfront : Blanks front)
    (hrest : v.Delimited ∨ KeepsApart rest) :
    HoldsValue (front ++ (printed.toList ++ rest)) printed.toList rest := by
  have hspells : Spells depth printed.toList v := by
    rcases hprinted with rfl | rfl
    · exact hv.spells_compact
    · exact hv.spells_indented
  exact ⟨⟨front, hfront, rfl⟩, hspells.complete, hrest.imp hspells.selfEnding id⟩

/-- An expectation of a JSON value takes exactly one value. A value that is written in the output, compact or indented,
behind any blanks and in front of any text that keeps apart from it, is taken as it is written, and that text is left.
Whatever is taken is one complete value. And where nothing is taken the output holds no value, everything is passed over,
and one failure is counted. -/
theorem matchJson_takes_one_value {s : State} {output : String} (h : s.residual? = some output) :
    (∀ depth (v : Json) printed front rest, v.Proper depth → (printed = v.compact ∨ printed = v.indented) →
      Blanks front → (v.Delimited ∨ KeepsApart rest) → output.toList = front ++ (printed.toList ++ rest) →
      s.matchJson.1 = .matched printed [] ∧ MovedOn s s.matchJson.2 rest) ∧
    (∀ text groups, s.matchJson.1 = .matched text groups →
      ∃ rest, HoldsValue output.toList text.toList rest ∧ MovedOn s s.matchJson.2 rest) ∧
    ∀ expected actual, s.matchJson.1 = .mismatch expected actual →
      (∀ text rest, ¬ HoldsValue output.toList text rest) ∧
        actual = String.ofList (output.toList.dropWhile isOutputBlank) ∧ GaveUp s s.matchJson.2 := by
  obtain ⟨before, after, hat⟩ := State.cursorValid_iff.1 (State.residual?_isSome_iff.1 (by rw [h]; rfl))
  obtain rfl : String.ofList after = output := Option.some.inj (hat.residual?_eq.symm.trans h)
  rw [String.toList_ofList]
  refine ⟨?_, ?_, ?_⟩
  · intro depth v printed front rest hv hprinted hfront hrest hsplit
    have htakes := hat.matchJson_takes (hsplit ▸ holdsValue_written hv hprinted hfront hrest)
    rw [String.ofList_toList] at htakes
    exact htakes
  · -- the two lemmas above leave nothing open, so the result tells which of them applies
    intro text groups hmatched
    by_cases hvalue : ∃ text rest, HoldsValue after text rest
    · obtain ⟨text', rest, hvalue⟩ := hvalue
      obtain ⟨htaken, hmoved⟩ := hat.matchJson_takes hvalue
      obtain ⟨rfl, -⟩ := Outcome.matched.inj (hmatched.symm.trans htaken)
      rw [String.toList_ofList]
      exact ⟨rest, hvalue, hmoved⟩
    · obtain ⟨hgaveup, -⟩ := hat.matchJson_gives_up fun text rest hheld => hvalue ⟨text, rest, hheld⟩
      cases hmatched.symm.trans hgaveup
  · intro expected actual hmismatch
    by_cases hvalue : ∃ text rest, HoldsValue after text rest
    · obtain ⟨text, rest, hvalue⟩ := hvalue
      cases hmismatch.symm.trans (hat.matchJson_takes hvalue).1
    · have hnone : ∀ text rest, ¬ HoldsValue after text rest := fun text rest hheld => hvalue ⟨text, rest, hheld⟩
      obtain ⟨hresult, hgaveup⟩ := hat.matchJson_gives_up hnone
      obtain ⟨-, rfl⟩ := Outcome.mismatch.inj (hmismatch.symm.trans hresult)
      exact ⟨hnone, rfl, hgaveup⟩

/-- An array with a bracket in a string, which is taken up to its own bracket although more brackets follow. -/
theorem array_is_taken :
    (State.new.reset " [\"]\",null]]").residual? = some " [\"]\",null]]" ∧
      (State.new.reset " [\"]\",null]]").matchJson.1 = .matched "[\"]\",null]" [] ∧
        MovedOn (State.new.reset " [\"]\",null]]") (State.new.reset " [\"]\",null]]").matchJson.2 [']'] := by
  have hstate : (State.new.reset " [\"]\",null]]").residual? = some " [\"]\",null]]" := (State.at_reset _ _).residual?_eq
  refine ⟨hstate, (matchJson_takes_one_value hstate).1 1 (.arr [.str "]", .null]) "[\"]\",null]" [' '] [']']
    ?_ (.inl ?_) ?_ (.inl trivial) rfl⟩
  · exact .arr (List.forall_mem_cons.2 ⟨.str 0 "]", List.forall_mem_singleton.2 (.null 0)⟩)
  · decide
  · intro c hc
    rw [List.mem_singleton.1 hc]
    rfl

end Conformance.Output
