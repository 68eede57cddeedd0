import Conformance.Output.Report
import Conformance.Proofs.Output.Changes
import Conformance.Proofs.Script.Steps

/-!
# What a report shows

The section of a mismatch shows a line that was removed or added whenever the lines of both texts differ
(`exists_marked`), and nothing of them if they are the same (`hunks_eq_nil`). The lines of a text give the text back
(`join_fullLines`), and so the texts differ then, with their last lines ended. A report therefore shows a difference
unless it is no more than the newline at the end of the last line (`render_shows_iff`).
-/
namespace Conformance.Output

/-! ## Lines that are shown -/

section Shown

variable {s : Sides}

/-- Lines, each behind a sign. -/
def signedLines (sign : String) (lines : Array String) (range : Nat × Nat) : List String :=
  (lines.extract range.1 range.2).toList.map (sign ++ ·)

/-- The lines of a change as they are shown. -/
def changeLines (s : Sides) (c : Change) : List String :=
  match c with
  | .equal .. => signedLines " " s.old c.oldRange
  | _ => signedLines "-" s.old c.oldRange ++ signedLines "+" s.new c.newRange

/-- The lines of all hunks, each hunk behind its heading. -/
def diffLines (s : Sides) : List String := (hunks s).flatMap fun h => heading h :: h.flatMap (changeLines s)

/-- The line shows an old line as removed or a new one as added. -/
def Marked (s : Sides) (l : String) : Prop :=
  (∃ line ∈ s.old, l = "-" ++ line) ∨ ∃ line ∈ s.new, l = "+" ++ line

theorem join_flatMap {α : Type} (f : α → List String) (l : List α) :
    String.join (l.flatMap f) = String.join (l.map fun a => String.join (f a)) := by
  induction l with
  | nil => rfl
  | cons a r ih => rw [List.flatMap_cons, String.join_append, ih, List.map_cons, String.join_cons]

theorem changeText_eq (s : Sides) (c : Change) : changeText s c = String.join (changeLines s c) := by
  cases c with
  | equal old new count => rfl
  | _ => exact String.join_append.symm

theorem unified_eq (oldName newName : String) (hne : hunks s ≠ []) :
    unified oldName newName s = "--- " ++ oldName ++ "\n+++ " ++ newName ++ "\n" ++ String.join (diffLines s) := by
  have hhunk : ∀ h, heading h ++ String.join (h.map (changeText s)) =
      String.join (heading h :: h.flatMap (changeLines s)) := by
    intro h
    rw [String.join_cons, join_flatMap, funext (changeText_eq s)]
  rw [unified, diffLines, join_flatMap, ← funext hhunk]
  split
  · rename_i hnil
    exact absurd hnil hne
  · rfl

end Shown

/-! ## Changes in hunks -/

section Hunks

variable {s : Sides} {c : Change} {l : List Change}

theorem mem_trimFirst (h : c ∈ l) (hc : c.isEqual = false) : c ∈ trimFirst l := by
  cases l with
  | nil => exact h
  | cons a r =>
    cases a with
    | equal old new count =>
      rcases List.mem_cons.1 h with rfl | h
      · cases hc
      · exact List.mem_cons_of_mem _ h
    | _ => exact h

theorem mem_trimLast (h : c ∈ l) (hc : c.isEqual = false) : c ∈ trimLast l := by
  induction l with
  | nil => exact h
  | cons a r ih =>
    cases r with
    | nil =>
      cases a with
      | equal old new count =>
        obtain rfl := List.mem_singleton.1 h
        cases hc
      | _ => exact h
    | cons d r =>
      have hcons : trimLast (a :: d :: r) = a :: trimLast (d :: r) := by
        cases a <;> rfl
      rw [hcons]
      rcases List.mem_cons.1 h with rfl | h
      · exact List.mem_cons_self
      · exact List.mem_cons_of_mem _ (ih h)

/-- A change is in one of the groups. -/
theorem exists_mem_grouped {pending : List Change} (h : c ∈ pending ∨ c ∈ l) (hc : c.isEqual = false) :
    ∃ g ∈ grouped pending l, c ∈ g := by
  induction l generalizing pending with
  | nil =>
    -- the group that is pending at the end holds more than a stretch of equal lines
    have hpending : c ∈ pending := h.resolve_right List.not_mem_nil
    refine ⟨pending.reverse, ?_, List.mem_reverse.2 hpending⟩
    have hgroup : grouped pending [] = [pending.reverse] := by
      rw [grouped]
      · intro hnil
        rw [hnil] at hpending
        cases hpending
      · intro old new count hequal
        rw [hequal] at hpending
        obtain rfl := List.mem_singleton.1 hpending
        cases hc
    rw [hgroup]
    exact List.mem_singleton_self _
  | cons a r ih =>
    have hmore : c ∈ a :: pending ∨ c ∈ r := by
      rcases h with h | h
      · exact .inl (List.mem_cons_of_mem a h)
      · rcases List.mem_cons.1 h with rfl | h
        · exact .inl List.mem_cons_self
        · exact .inr h
    cases a with
    | equal old new count =>
      rw [grouped]
      split
      · -- the change is in the group that ends here or in one behind
        rcases hmore with hmore | hmore
        · refine ⟨_, List.mem_cons_self, List.mem_reverse.2 ?_⟩
          rcases List.mem_cons.1 hmore with rfl | hmore
          · cases hc
          · exact List.mem_cons_of_mem _ hmore
        · obtain ⟨g, hg, hcg⟩ := ih (.inr hmore)
          exact ⟨g, List.mem_cons_of_mem _ hg, hcg⟩
      · exact ih hmore
    | _ =>
      rw [grouped]
      · exact ih hmore
      · exact fun _ _ _ hequal => by cases hequal

/-- Every change but equal lines is in a hunk. -/
theorem exists_mem_hunks (h : c ∈ changes s) (hc : c.isEqual = false) : ∃ g ∈ hunks s, c ∈ g := by
  obtain ⟨g, hg, hcg⟩ := exists_mem_grouped (.inr (mem_trimLast (mem_trimFirst h hc) hc)) hc
  refine ⟨g, List.mem_filter.2 ⟨hg, ?_⟩, hcg⟩
  cases g with
  | nil => cases hcg
  | cons a r => rfl

end Hunks

/-! ## Lines that differ are shown -/

section Marked

variable {s : Sides} {c : Change}

theorem same_eq_true_iff {i j : Nat} :
    s.same i j = true ↔ ∃ line, s.old[i]? = some line ∧ s.new[j]? = some line := by
  rw [Sides.same]
  split
  · rename_i a b ha hb
    rw [decide_eq_true_eq, ha, hb]
    constructor
    · intro h
      exact ⟨a, rfl, h ▸ rfl⟩
    · intro h
      obtain ⟨line, hold, hnew⟩ := h
      rw [Option.some.inj hold, Option.some.inj hnew]
  · rename_i hno
    constructor
    · intro h
      cases h
    · intro h
      obtain ⟨line, hold, hnew⟩ := h
      exact (hno line line hold hnew).elim

theorem eq_of_agree {count : Nat} (hold : s.old.size = count) (hnew : s.new.size = count) (h : s.Agree 0 0 count) :
    s.old = s.new := by
  refine Array.ext (hold.trans hnew.symm) fun i hi hi' => ?_
  have hsame := h i (hold ▸ hi)
  rw [Nat.zero_add] at hsame
  obtain ⟨line, hline, hline'⟩ := same_eq_true_iff.1 hsame
  rw [Array.getElem?_eq_getElem hi] at hline
  rw [Array.getElem?_eq_getElem hi'] at hline'
  exact (Option.some.inj hline).trans (Option.some.inj hline').symm

theorem exists_mem_signedLines (sign : String) {lines : Array String} {first count : Nat} (hcount : 0 < count)
    (hend : first + count ≤ lines.size) :
    ∃ line ∈ lines, sign ++ line ∈ signedLines sign lines (first, first + count) := by
  have hlt : first < lines.size := by omega
  refine ⟨lines[first], Array.getElem_mem hlt, List.mem_map.2 ⟨lines[first], ?_, rfl⟩⟩
  rw [Array.mem_toList_iff, Array.mem_extract_iff_getElem]
  exact ⟨0, by omega, rfl⟩

/-- A change that is not empty shows one of its lines. -/
theorem exists_marked_changeLines {mixed : Prop} {u v : Nat} (hc : c.isEqual = false) (hfrom : c.From s mixed u v)
    (hold : u + c.oldCount ≤ s.old.size) (hnew : v + c.newCount ≤ s.new.size)
    (hcount : ¬ (c.oldCount = 0 ∧ c.newCount = 0)) : ∃ l ∈ changeLines s c, Marked s l := by
  have hremoved : 0 < c.oldCount → ∃ l ∈ signedLines "-" s.old (u, u + c.oldCount), Marked s l := by
    intro hpos
    obtain ⟨line, hline, hl⟩ := exists_mem_signedLines "-" hpos hold
    exact ⟨"-" ++ line, hl, .inl ⟨line, hline, rfl⟩⟩
  have hadded : 0 < c.newCount → ∃ l ∈ signedLines "+" s.new (v, v + c.newCount), Marked s l := by
    intro hpos
    obtain ⟨line, hline, hl⟩ := exists_mem_signedLines "+" hpos hnew
    exact ⟨"+" ++ line, hl, .inr ⟨line, hline, rfl⟩⟩
  cases c with
  | equal old new count => cases hc
  | delete old count new =>
    obtain rfl : old = u := hfrom
    obtain ⟨l, hl, hmarked⟩ := hremoved (Nat.pos_of_ne_zero fun hzero => hcount ⟨hzero, rfl⟩)
    exact ⟨l, List.mem_append_left _ hl, hmarked⟩
  | insert old new count =>
    obtain rfl : new = v := hfrom
    obtain ⟨l, hl, hmarked⟩ := hadded (Nat.pos_of_ne_zero fun hzero => hcount ⟨rfl, hzero⟩)
    exact ⟨l, List.mem_append_right _ hl, hmarked⟩
  | replace old oldCount new newCount =>
    obtain ⟨-, rfl, rfl⟩ := hfrom
    rcases Nat.eq_zero_or_pos oldCount with hzero | hpos
    · obtain ⟨l, hl, hmarked⟩ := hadded (Nat.pos_of_ne_zero fun hzero' => hcount ⟨hzero, hzero'⟩)
      exact ⟨l, List.mem_append_right _ hl, hmarked⟩
    · obtain ⟨l, hl, hmarked⟩ := hremoved hpos
      exact ⟨l, List.mem_append_left _ hl, hmarked⟩

/-- If the lines differ, one of them is shown as removed or added. -/
theorem exists_marked (hne : s.old ≠ s.new) : ∃ l ∈ diffLines s, Marked s l := by
  have hleads := leads_changes s
  obtain ⟨c, hc, hequal, hcount⟩ : ∃ c ∈ changes s, c.isEqual = false ∧ ¬ (c.oldCount = 0 ∧ c.newCount = 0) := by
    -- if all changes were equal lines or empty ones, the lines would be the same
    refine Classical.byContradiction fun hno => hne ?_
    obtain ⟨count, hold, hnew, hagree⟩ := hleads.same fun c hc => by
      refine Classical.or_iff_not_imp_left.2 fun hequal => Classical.byContradiction fun hcount => hno ?_
      exact ⟨c, hc, Bool.not_eq_true _ ▸ hequal, hcount⟩
    rw [Nat.zero_add] at hold hnew
    exact eq_of_agree hold hnew hagree
  obtain ⟨u, v, hfrom, hold, hnew⟩ := hleads.of_mem hc
  obtain ⟨l, hl, hmarked⟩ := exists_marked_changeLines hequal hfrom hold hnew hcount
  obtain ⟨g, hg, hcg⟩ := exists_mem_hunks hc hequal
  exact ⟨l, List.mem_flatMap.2 ⟨g, hg, List.mem_cons_of_mem _ (List.mem_flatMap.2 ⟨c, hcg, hl⟩)⟩, hmarked⟩

theorem settle_of_none {kind : Change → Bool} (fuel : Nat) {before after : List Change}
    (h : ∀ c ∈ after, kind c = false) : settle s kind fuel before after = before.reverse ++ after := by
  induction fuel generalizing before after with
  | zero => rfl
  | succ fuel ih =>
    cases after with
    | nil =>
      rw [settle, List.append_nil]
      exact fun hzero => by cases hzero
    | cons c r =>
      obtain ⟨hc, hr⟩ := List.forall_mem_cons.1 h
      rw [settle, hc, if_neg Bool.false_ne_true, ih hr, List.reverse_cons, List.append_assoc]
      rfl

theorem way_of_same {n fuel : Nat} (h : s.commonPrefix 0 0 n = n) :
    way s (fuel + 1) ⟨0, n, 0, n⟩ = if 0 < n then [.equal 0 0 n] else [] := by
  simp [way, Box.width, Box.height, h, Sides.commonSuffix]

/-- Lines that are the same are one stretch, or none at all. -/
theorem changes_of_eq (h : s.old = s.new) : changes s = [] ∨ changes s = [.equal 0 0 s.old.size] := by
  have hall : s.commonPrefix 0 0 s.old.size = s.old.size := by
    refine Nat.le_antisymm (s.commonPrefix_le ..) (Nat.le_of_not_lt fun hlt => ?_)
    have hdiffer := s.not_same_commonPrefix _ _ _ hlt
    have hsame : s.same (0 + s.commonPrefix 0 0 s.old.size) (0 + s.commonPrefix 0 0 s.old.size) = true := by
      rw [Nat.zero_add]
      exact same_eq_true_iff.2 ⟨_, Array.getElem?_eq_getElem hlt, h ▸ Array.getElem?_eq_getElem hlt⟩
    rw [hsame] at hdiffer
    cases hdiffer
  have hsize : s.new.size = s.old.size := by rw [h]
  rw [changes, hsize, way_of_same hall]
  split
  · refine .inr ?_
    have hnone : ∀ kind : Change → Bool, kind (.equal 0 0 s.old.size) = false →
        ∀ c ∈ [Change.equal 0 0 s.old.size], kind c = false := by
      intro kind hkind c hc
      rw [List.mem_singleton.1 hc, hkind]
    rw [settle_of_none _ (hnone _ rfl), List.reverse_nil, List.nil_append, settle_of_none _ (hnone _ rfl)]
    rfl
  · refine .inl ?_
    have hnone : ∀ kind : Change → Bool, ∀ c ∈ [], kind c = false := fun kind c hc => by cases hc
    rw [settle_of_none _ (hnone _), List.reverse_nil, List.nil_append, settle_of_none _ (hnone _)]
    rfl

/-- Nothing is shown of lines that are the same. -/
theorem hunks_eq_nil (h : s.old = s.new) : hunks s = [] := by
  rw [hunks]
  rcases changes_of_eq h with hchanges | hchanges
  · rw [hchanges]
    rfl
  · rw [hchanges]
    generalize s.old.size = n
    -- no more is left of the stretch than the lines around a change, and there is no change
    have hgroup : grouped [] (trimLast (trimFirst [.equal 0 0 n])) = [] := by
      have hfew : ¬ 2 * contextLines < Nat.min (n - (n - contextLines)) contextLines := by
        have hle : Nat.min (n - (n - contextLines)) contextLines ≤ contextLines := Nat.min_le_right ..
        omega
      rw [trimFirst, trimLast, grouped, if_neg hfew]
      rfl
    rw [hgroup]
    rfl

end Marked

/-! ## Texts and their lines -/

theorem toList_join_fullLines (held cs : List Char) :
    (String.join (fullLines held cs)).toList = held.reverse ++ cs := by
  -- induction along the reading: what is held is the line that has been begun, from its end
  fun_induction fullLines held cs with
  | case1 held hempty => simp [List.isEmpty_iff.1 hempty]
  | case2 held hempty => simp
  | case3 held r ih => simp [ih]
  | case4 held r hno ih => simp [ih]
  | case5 held r ih => simp [ih]
  | case6 held c r hno hno' hno'' ih => simp [ih]

/-- The lines of a text put together are the text. -/
theorem join_fullLines (text : String) : String.join (fullLines [] text.toList) = text := by
  rw [← String.toList_inj, toList_join_fullLines, List.reverse_nil, List.nil_append]

theorem ofTexts_same_iff {old new : String} : (Sides.ofTexts old new).old = (Sides.ofTexts old new).new ↔ old = new := by
  constructor
  · intro h
    have hlines : fullLines [] old.toList = fullLines [] new.toList := congrArg Array.toList h
    rw [← join_fullLines old, hlines, join_fullLines]
  · intro h
    rw [Sides.ofTexts, h]

/-- The last line of the text is ended. -/
def EndsLine (text : String) : Prop := text.toList.getLast? = some '\n'

instance (text : String) : Decidable (EndsLine text) := inferInstanceAs (Decidable (_ = _))

/-- The texts are the same, or one of them is the other with its last line ended. -/
def SameButNewline (a b : String) : Prop := a = b ∨ (¬ EndsLine a ∧ b = a ++ "\n") ∨ (¬ EndsLine b ∧ a = b ++ "\n")

theorem withNewline_of_endsLine {text : String} (h : EndsLine text) : withNewline text = text := if_pos h

theorem withNewline_of_not_endsLine {text : String} (h : ¬ EndsLine text) : withNewline text = text ++ "\n" := if_neg h

theorem endsLine_append (text : String) : EndsLine (text ++ "\n") := by
  rw [EndsLine, String.toList_append]
  exact List.getLast?_concat

theorem withNewline_eq_iff {a b : String} : withNewline a = withNewline b ↔ SameButNewline a b := by
  constructor
  · intro h
    by_cases ha : EndsLine a
    · by_cases hb : EndsLine b
      · rw [withNewline_of_endsLine ha, withNewline_of_endsLine hb] at h
        exact .inl h
      · rw [withNewline_of_endsLine ha, withNewline_of_not_endsLine hb] at h
        exact .inr (.inr ⟨hb, h⟩)
    · by_cases hb : EndsLine b
      · rw [withNewline_of_not_endsLine ha, withNewline_of_endsLine hb] at h
        exact .inr (.inl ⟨ha, h.symm⟩)
      · rw [withNewline_of_not_endsLine ha, withNewline_of_not_endsLine hb] at h
        exact .inl ((String.append_left_inj "\n").1 h)
  · intro h
    rcases h with rfl | ⟨ha, rfl⟩ | ⟨hb, rfl⟩
    · rfl
    · rw [withNewline_of_not_endsLine ha, withNewline_of_endsLine (endsLine_append a)]
    · rw [withNewline_of_not_endsLine hb, withNewline_of_endsLine (endsLine_append b)]

/-! ## The report -/

namespace Failure

/-- The line that names the place of the mismatch, its client and its command. -/
def headline (f : Failure) : String :=
  f.location ++ " [" ++ f.client ++ "]" ++ (f.command.map (" >>> " ++ ·)).getD "" ++ "\n"

/-- The lines that are compared. -/
def sides (f : Failure) : Sides := .ofTexts (withNewline f.expected) (withNewline f.actual)

theorem failureText_eq (f : Failure) : failureText f = f.headline ++ unified "expected" "actual" f.sides := by
  rw [failureText, headline]
  cases f.command <;> rfl

/-- Nothing stands behind the headline if the texts are the same but for the newline at the end. -/
theorem failureText_of_same {f : Failure} (h : SameButNewline f.expected f.actual) : failureText f = f.headline := by
  have hsame : f.sides.old = f.sides.new := ofTexts_same_iff.2 (withNewline_eq_iff.2 h)
  rw [failureText_eq, unified, hunks_eq_nil hsame, String.append_empty]

/-- If the texts differ in more, the section shows a line that was removed or added. -/
theorem failureText_of_differ {f : Failure} (h : ¬ SameButNewline f.expected f.actual) :
    failureText f = f.headline ++ "--- expected\n+++ actual\n" ++ String.join (diffLines f.sides) ∧
      ∃ l ∈ diffLines f.sides, Marked f.sides l := by
  have hne : f.sides.old ≠ f.sides.new := fun hsame => h (withNewline_eq_iff.1 (ofTexts_same_iff.1 hsame))
  obtain ⟨l, hl, hmarked⟩ := exists_marked hne
  have hhunks : hunks f.sides ≠ [] := by
    intro hnil
    rw [diffLines, hnil] at hl
    cases hl
  have hheader : "--- " ++ "expected" ++ "\n+++ " ++ "actual" ++ "\n" = "--- expected\n+++ actual\n" := by decide
  refine ⟨?_, l, hl, hmarked⟩
  rw [failureText_eq, unified_eq _ _ hhunks, hheader, String.append_assoc]

end Failure

/-- A report has a section for each mismatch, in order, and each section shows a line as removed or added unless the
expected and the actual text differ in no more than the newline at the end of the last line: then nothing of either is
shown. -/
theorem render_shows_iff (failures : List Failure) :
    render failures = String.join (failures.map failureText) ∧
    ∀ f ∈ failures,
      String.join f.sides.old.toList = withNewline f.expected ∧ String.join f.sides.new.toList = withNewline f.actual ∧
      (SameButNewline f.expected f.actual → failureText f = f.headline) ∧
      (¬ SameButNewline f.expected f.actual →
        failureText f = f.headline ++ "--- expected\n+++ actual\n" ++ String.join (diffLines f.sides) ∧
        ∃ l ∈ diffLines f.sides, Marked f.sides l) :=
  ⟨rfl, fun _ _ => ⟨join_fullLines _, join_fullLines _, Failure.failureText_of_same, Failure.failureText_of_differ⟩⟩

open Script Expr in
/-- A script that expects a line from a client that ends none: the mismatch is recorded, and the report does not show
it. -/
theorem final_newline_not_shown :
    let link : Link Unit := ⟨fun _ _ state => (.ok "", state)⟩
    let s : Session Unit :=
      { vars := Env.empty.set "x" (.str "a\n"), active := some "alice", link := (),
        clients := [{ name := "alice", output := { buffer := "a" } }] }
    let failures := (endOf (runScript link "a.btstest" "$x") s).failures
    failures.map (fun f => (f.expected, f.actual)) = [("a\n", "a")] ∧ "a\n" ≠ "a" ∧
      render failures = "a.btstest:1:1 [alice]\n" := by
  decide +kernel

end Conformance.Output
