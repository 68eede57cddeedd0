import Conformance.Proofs.Text.Words
import Conformance.Text.Span
import Mathlib.Data.List.Basic

/-!
# Lines and their fields

A text of lines is taken apart into the lines that it was put together from, with a newline at its end or without
(`filterMap_lines_textOfLines`), and a line into its fields, whatever blanks stand in front of them, between them and
behind them (`Fields.words_eq`). Every line has fields (`exists_fields`).
-/
namespace Conformance.Text

variable {line r : List Char}

/-! ## Lines -/

/-- The lines one below the other, with a newline behind the last one or without. -/
def textOfLines (first : List Char) (others : List (List Char)) (ended : Bool) : List Char :=
  first ++ (others.flatMap ('\n' :: ·) ++ if ended then ['\n'] else [])

theorem textOfLines_cons (first second : List Char) (others : List (List Char)) (ended : Bool) :
    textOfLines first (second :: others) ended = first ++ '\n' :: textOfLines second others ended := by
  simp [textOfLines]

/-- A line that has been begun ends at the next newline; a carriage return in front of the newline does not count. -/
theorem exists_go_append_lf (h : '\n' ∉ line) (held r : List Char) :
    ∃ found, lines.go held (line ++ '\n' :: r) = found :: lines r ∧
      (found = held.reverse ++ line ∨ held.reverse ++ line = found ++ ['\r']) := by
  induction line generalizing held with
  | nil =>
    rw [List.nil_append, List.append_nil, lines.go]
    refine ⟨_, rfl, ?_⟩
    split
    · rename_i hcr
      obtain ⟨rest, rfl⟩ : ∃ rest, held = '\r' :: rest := by
        cases held with
        | nil => cases hcr
        | cons c rest => exact ⟨rest, congrArg (· :: rest) (Option.some.inj hcr)⟩
      exact .inr List.reverse_cons
    · exact .inl rfl
  | cons c line ih =>
    obtain ⟨hc, hline⟩ := List.ne_and_not_mem_of_not_mem_cons h
    obtain ⟨found, hfound, hrest⟩ := ih hline (c :: held)
    rw [List.reverse_cons, List.append_assoc, List.singleton_append] at hrest
    refine ⟨found, ?_, hrest⟩
    rw [List.cons_append, lines.go]
    · exact hfound
    · intro hlf
      exact hc hlf.symm

theorem exists_lines_append_lf (h : '\n' ∉ line) (r : List Char) :
    ∃ found, lines (line ++ '\n' :: r) = found :: lines r ∧ (found = line ∨ line = found ++ ['\r']) :=
  exists_go_append_lf h [] r

theorem go_of_not_mem (h : '\n' ∉ line) (held : List Char) :
    lines.go held line = if held.reverse ++ line = [] then [] else [held.reverse ++ line] := by
  induction line generalizing held with
  | nil =>
    rw [lines.go]
    cases held <;> simp
  | cons c line ih =>
    obtain ⟨hc, hline⟩ := List.ne_and_not_mem_of_not_mem_cons h
    rw [lines.go]
    · rw [ih hline (c :: held)]
      simp
    · intro hlf
      exact hc hlf.symm

/-- A text without newlines is one line, or none if it is empty. -/
theorem lines_of_not_mem (h : '\n' ∉ line) : lines line = if line = [] then [] else [line] := go_of_not_mem h []

section FilterMap

variable {α : Type} {f : List Char → Option α} (hnil : f [] = none) (hcr : ∀ l, f (l ++ ['\r']) = f l)
include hnil hcr

/-- What is found in the first line stands in front of what is found in the others. -/
theorem filterMap_lines_first {first : List Char} (hfirst : '\n' ∉ first) (others : List (List Char)) (ended : Bool) :
    (lines (textOfLines first others ended)).filterMap f =
      (f first).toList ++ ((lines (textOfLines first others ended)).drop 1).filterMap f := by
  have hterminated : ∀ r, (lines (first ++ '\n' :: r)).filterMap f =
      (f first).toList ++ ((lines (first ++ '\n' :: r)).drop 1).filterMap f := by
    intro r
    obtain ⟨found, hlines, hfound⟩ := exists_lines_append_lf hfirst r
    -- a line read may have lost its CR, which makes no difference to what is found in it
    have hsame : f found = f first := by
      rcases hfound with rfl | rfl
      · rfl
      · exact (hcr found).symm
    rw [hlines, List.filterMap_cons, hsame]
    cases f first <;> rfl
  cases others with
  | cons second others =>
    rw [textOfLines_cons]
    exact hterminated _
  | nil =>
    cases ended with
    | true => exact hterminated []
    | false =>
      rw [textOfLines, List.flatMap_nil, List.nil_append, if_neg Bool.false_ne_true, List.append_nil,
        lines_of_not_mem hfirst]
      split
      · rename_i hempty
        rw [hempty, hnil]
        rfl
      · rw [List.filterMap_cons]
        cases f first <;> rfl

/-- What is found in the lines below the first one is what is found in each of them, in their order. -/
theorem filterMap_lines_textOfLines {first : List Char} (hfirst : '\n' ∉ first) {others : List (List Char)}
    (hothers : ∀ l ∈ others, '\n' ∉ l) (ended : Bool) :
    ((lines (textOfLines first others ended)).drop 1).filterMap f = others.filterMap f := by
  induction others generalizing first with
  | nil =>
    cases ended with
    | true =>
      obtain ⟨found, hlines, -⟩ := exists_lines_append_lf hfirst []
      have htext : textOfLines first [] true = first ++ ['\n'] := rfl
      rw [htext, hlines]
      rfl
    | false =>
      have htext : textOfLines first [] false = first := List.append_nil first
      rw [htext, lines_of_not_mem hfirst]
      split <;> rfl
  | cons second others ih =>
    obtain ⟨hsecond, hothers⟩ := List.forall_mem_cons.1 hothers
    obtain ⟨found, hlines, -⟩ := exists_lines_append_lf hfirst (textOfLines second others ended)
    rw [textOfLines_cons, hlines, List.drop_one, List.tail_cons, filterMap_lines_first hnil hcr hsecond,
      ih hsecond hothers, List.filterMap_cons]
    cases f second <;> rfl

end FilterMap

/-! ## Fields -/

/-- The line consists of these fields, with blanks in front of each, of which the first one may do without, and at its
end. -/
inductive Fields : List Char → List (List Char) → Prop
  | none {blanks : List Char} (hblanks : ∀ c ∈ blanks, isWhite c = true) : Fields blanks []
  | more {blanks field rest : List Char} {fields : List (List Char)} (hblanks : ∀ c ∈ blanks, isWhite c = true)
      (hne : field ≠ []) (hfield : ∀ c ∈ field, isWhite c = false) (hapart : ∀ c ∈ rest.head?, isWhite c = true)
      (hrest : Fields rest fields) : Fields (blanks ++ (field ++ rest)) (field :: fields)

/-- The words of a line are its fields. -/
theorem Fields.words_eq {fields : List (List Char)} (h : Fields line fields) : words line = fields := by
  induction h with
  | @none blanks hblanks =>
    rw [words, ← List.append_nil blanks, runs_blanks_append hblanks]
    rfl
  | more hblanks hne hfield hapart _ ih =>
    rw [words, runs_blanks_append hblanks, runs_word_append hne hfield hapart]
    exact congrArg _ ih

theorem Fields.solid {fields : List (List Char)} (h : Fields line fields) :
    ∀ field ∈ fields, field ≠ [] ∧ ∀ c ∈ field, isWhite c = false := by
  induction h with
  | none => exact fun _ hmem => absurd hmem List.not_mem_nil
  | more _ hne hfield _ _ ih => exact List.forall_mem_cons.2 ⟨⟨hne, hfield⟩, ih⟩

/-- Each line can be taken apart into fields. -/
theorem exists_fields (line : List Char) : ∃ fields, Fields line fields := by
  -- induction on the length: a blank run and a field at the front leave a shorter line
  induction hlength : line.length using Nat.strongRecOn generalizing line with
  | ind n ih =>
    have hblanks : ∀ c ∈ line.takeWhile isWhite, isWhite c = true := List.all_eq_true.1 List.all_takeWhile
    by_cases hrest : line.dropWhile isWhite = []
    · have hline := List.takeWhile_append_dropWhile (p := isWhite) (l := line)
      rw [hrest, List.append_nil] at hline
      exact ⟨[], hline ▸ .none hblanks⟩
    · have hne := takeWhile_not_ne_nil hrest
      have hfield : ∀ c ∈ (line.dropWhile isWhite).takeWhile (!isWhite ·), isWhite c = false := by
        intro c hc
        simpa using List.all_eq_true.1 List.all_takeWhile c hc
      have hapart : ∀ c ∈ ((line.dropWhile isWhite).dropWhile (!isWhite ·)).head?, isWhite c = true := by
        intro c hc
        have hhead := List.head?_dropWhile_not (!isWhite ·) (line.dropWhile isWhite)
        rw [Option.mem_def.1 hc] at hhead
        simpa using hhead
      have hsplit : line = line.takeWhile isWhite ++ ((line.dropWhile isWhite).takeWhile (!isWhite ·) ++
          (line.dropWhile isWhite).dropWhile (!isWhite ·)) := by
        rw [List.takeWhile_append_dropWhile, List.takeWhile_append_dropWhile]
      have hshorter : ((line.dropWhile isWhite).dropWhile (!isWhite ·)).length < n := by
        have htotal := congrArg List.length hsplit
        rw [List.length_append, List.length_append] at htotal
        have hpos := List.length_pos_iff.2 hne
        omega
      obtain ⟨fields, hfields⟩ := ih _ hshorter _ rfl
      have hline := Fields.more hblanks hne hfield hapart hfields
      rw [← hsplit] at hline
      exact ⟨_, hline⟩

/-- A text is one word exactly if this is what trimming leaves of it. -/
theorem words_eq_singleton_iff {text word : List Char} :
    words text = [word] ↔ trim text = word ∧ word ≠ [] ∧ ∀ c ∈ word, isWhite c = false := by
  constructor
  · intro hwords
    obtain ⟨fields, hfields⟩ := exists_fields text
    rw [hfields.words_eq] at hwords
    subst hwords
    cases hfields with
    | @more front _ back _ hfront hne hword _ hrest =>
      cases hrest with
      | none hback =>
        rw [trim_blanks_append hfront, trim_append_blanks hback, trim_eq_self hword]
        exact ⟨rfl, hne, hword⟩
  · rintro ⟨rfl, hne, hword⟩
    have hend : ∀ c, ([] : List Char).head? = some c → isWhite c = true := fun c hc => by cases hc
    have hone := runs_word_append hne hword hend
    rw [List.append_nil] at hone
    rw [← words_trim]
    exact hone

/-- The text is made up of two words, with blanks between them and perhaps around them. -/
def TwoWords (text first second : List Char) : Prop :=
  ∃ front gap back, text = front ++ (first ++ (gap ++ (second ++ back))) ∧ gap ≠ [] ∧ first ≠ [] ∧ second ≠ [] ∧
    (∀ c ∈ front ++ (gap ++ back), isWhite c = true) ∧ ∀ c ∈ first ++ second, isWhite c = false

theorem words_eq_pair_iff {text first second : List Char} : words text = [first, second] ↔ TwoWords text first second := by
  constructor
  · intro hwords
    obtain ⟨fields, hfields⟩ := exists_fields text
    rw [hfields.words_eq] at hwords
    subst hwords
    cases hfields with
    | @more front _ rest _ hfront hfirst hfirst' hapart hrest =>
      cases hrest with
      | @more gap _ back _ hgap hsecond hsecond' _ hnone =>
        cases hnone with
        | none hback =>
          refine ⟨front, gap, back, rfl, ?_, hfirst, hsecond, ?_, ?_⟩
          · -- without a gap the second word would belong to the first one
            rintro rfl
            obtain ⟨c, word, rfl⟩ := List.exists_cons_of_ne_nil hsecond
            have hwhite := hapart c rfl
            rw [hsecond' c List.mem_cons_self] at hwhite
            cases hwhite
          · exact List.forall_mem_append.2 ⟨hfront, List.forall_mem_append.2 ⟨hgap, hback⟩⟩
          · exact List.forall_mem_append.2 ⟨hfirst', hsecond'⟩
  · rintro ⟨front, gap, back, rfl, hne, hfirst, hsecond, hblanks, hwords⟩
    obtain ⟨hfront, hblanks⟩ := List.forall_mem_append.1 hblanks
    obtain ⟨hgap, hback⟩ := List.forall_mem_append.1 hblanks
    obtain ⟨hfirst', hsecond'⟩ := List.forall_mem_append.1 hwords
    have hlast : ∀ c ∈ back.head?, isWhite c = true := fun c hc => hback c (List.mem_of_mem_head? hc)
    have hapart : ∀ c ∈ (gap ++ (second ++ back)).head?, isWhite c = true := by
      intro c hc
      rw [List.head?_append_of_ne_nil _ hne] at hc
      exact hgap c (List.mem_of_mem_head? hc)
    exact (Fields.more hfront hfirst hfirst' hapart
      (.more hgap hsecond hsecond' hlast (.none hback))).words_eq

end Conformance.Text
