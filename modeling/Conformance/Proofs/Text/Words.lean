import Conformance.Text.Blank

/-!
# Words of a text

The maximal runs of a text between separators, as they are met from front to back: separators in front of a text
add no word, and a word that ends at a separator or at the end is the first one.
-/
namespace Conformance.Text

variable {sep : Char → Bool} {c : Char} {w r : List Char}

/-- A text divides in only one way into characters that satisfy `p` and a rest that begins with another one. -/
theorem takeWhile_dropWhile_iff {p : Char → Bool} {cs a b : List Char} :
    cs.takeWhile p = a ∧ cs.dropWhile p = b ↔
      cs = a ++ b ∧ (∀ c ∈ a, p c = true) ∧ ∀ c ∈ b.head?, p c = false := by
  constructor
  · rintro ⟨rfl, rfl⟩
    refine ⟨List.takeWhile_append_dropWhile.symm, List.all_eq_true.1 List.all_takeWhile, fun c hc => ?_⟩
    have hhead := List.head?_dropWhile_not p cs
    rw [Option.mem_def.1 hc] at hhead
    exact hhead
  · rintro ⟨rfl, ha, hb⟩
    have hstop : b.takeWhile p = [] ∧ b.dropWhile p = b := by
      cases b with
      | nil => exact ⟨rfl, rfl⟩
      | cons c b =>
        have hc : ¬p c = true := by simp [hb c rfl]
        exact ⟨List.takeWhile_cons_of_neg hc, List.dropWhile_cons_of_neg hc⟩
    rw [List.takeWhile_append_of_pos ha, List.dropWhile_append_of_pos ha, hstop.1, hstop.2]
    exact ⟨List.append_nil a, rfl⟩

/-- A text without white characters is not trimmed. -/
theorem trim_eq_self {cs : List Char} (h : ∀ c ∈ cs, isWhite c = false) : trim cs = cs := by
  have hkeep : ∀ ds : List Char, (∀ c ∈ ds, isWhite c = false) → ds.dropWhile isWhite = ds := fun ds hds =>
    (takeWhile_dropWhile_iff.2
      ⟨(List.nil_append ds).symm, fun c hc => absurd hc List.not_mem_nil, fun c hc => hds c (List.mem_of_mem_head? hc)⟩).2
  rw [trim, trimLeft, hkeep cs h, trimRight, hkeep _ fun c hc => h c (List.mem_reverse.1 hc), List.reverse_reverse]

/-- White characters at the end are trimmed. -/
theorem trim_append_blanks {cs blanks : List Char} (h : ∀ c ∈ blanks, isWhite c = true) :
    trim (cs ++ blanks) = trim cs := by
  rw [trim, trim, trimLeft, trimLeft, List.dropWhile_append]
  split
  next hnone =>
    have hblanks : blanks.dropWhile isWhite = [] :=
      (takeWhile_dropWhile_iff.2 ⟨(List.append_nil blanks).symm, h, fun c hc => by cases hc⟩).2
    rw [hblanks, List.isEmpty_iff.1 hnone]
  next =>
    rw [trimRight, trimRight, List.reverse_append, List.dropWhile_append_of_pos fun c hc => h c (List.mem_reverse.1 hc)]

/-- White characters at the front are trimmed. -/
theorem trim_blanks_append {cs blanks : List Char} (h : ∀ c ∈ blanks, isWhite c = true) :
    trim (blanks ++ cs) = trim cs := by
  rw [trim, trim, trimLeft, trimLeft, List.dropWhile_append_of_pos h]

/-- A trimmed text does not begin with a white character. -/
theorem head?_trim {cs : List Char} {c : Char} (h : (trim cs).head? = some c) : isWhite c = false := by
  have hsplit : trimLeft cs = trim cs ++ ((trimLeft cs).reverse.takeWhile isWhite).reverse := by
    rw [trim, trimRight, ← List.reverse_append, List.takeWhile_append_dropWhile, List.reverse_reverse]
  have hhead := List.head?_dropWhile_not isWhite cs
  rw [← trimLeft, hsplit, List.head?_append, h] at hhead
  exact hhead

theorem runs_cons_of_sep (hc : sep c = true) : runs sep (c :: r) = runs sep r := by
  rw [runs.eq_def]
  exact if_pos hc

/-- Separators in front of a text add no word. -/
theorem runs_blanks_append (hw : ∀ c ∈ w, sep c = true) : runs sep (w ++ r) = runs sep r := by
  induction w with
  | nil => rfl
  | cons c w ih =>
    obtain ⟨hc, hw⟩ := List.forall_mem_cons.1 hw
    rw [List.cons_append, runs_cons_of_sep hc, ih hw]

/-- A word in front of a separator, or of the end, is the first one. -/
theorem runs_word_append (hne : w ≠ []) (hw : ∀ c ∈ w, sep c = false)
    (hr : ∀ c, r.head? = some c → sep c = true) : runs sep (w ++ r) = w :: runs sep r := by
  induction w with
  | nil => exact absurd rfl hne
  | cons c w ih =>
    obtain ⟨hc, hw⟩ := List.forall_mem_cons.1 hw
    cases w with
    | nil =>
      cases r with
      | nil => simp [runs, hc]
      | cons d r => simp [runs, hc, hr d rfl]
    | cons d w =>
      have hd : sep d = false := hw d List.mem_cons_self
      have hrest := ih (List.cons_ne_nil d w) hw
      rw [List.cons_append, List.cons_append, runs]
      rw [List.cons_append] at hrest
      simp [hc, hd, hrest]

/-- Separators behind a text add no word. -/
theorem runs_append_blanks (hr : ∀ c ∈ r, sep c = true) (cs : List Char) : runs sep (cs ++ r) = runs sep cs := by
  have hnone : runs sep r = [] := by
    rw [← List.append_nil r, runs_blanks_append hr]
    rfl
  induction cs with
  | nil => exact hnone
  | cons c cs ih =>
    cases hc : sep c with
    | true => rw [List.cons_append, runs_cons_of_sep hc, runs_cons_of_sep hc, ih]
    | false =>
      cases cs with
      | nil =>
        have hhead : ∀ d, r.head? = some d → sep d = true := fun d hd => hr d (List.mem_of_mem_head? hd)
        have hword := runs_word_append (List.cons_ne_nil c []) (by simpa using hc) hhead
        rw [hword, hnone]
        simp [runs, hc]
      | cons d cs =>
        rw [List.cons_append] at ih
        rw [List.cons_append, List.cons_append, runs, runs, ih]

/-- What trimming takes away are white characters. -/
theorem exists_eq_append_trim (cs : List Char) :
    ∃ front back, (∀ c ∈ front, isWhite c = true) ∧ (∀ c ∈ back, isWhite c = true) ∧ cs = front ++ (trim cs ++ back) := by
  refine ⟨cs.takeWhile isWhite, ((trimLeft cs).reverse.takeWhile isWhite).reverse,
    List.all_eq_true.1 List.all_takeWhile, fun c hc => ?_, ?_⟩
  · exact List.all_eq_true.1 List.all_takeWhile c (List.mem_reverse.1 hc)
  · rw [trim, trimRight, ← List.reverse_append, List.takeWhile_append_dropWhile, List.reverse_reverse, trimLeft,
      List.takeWhile_append_dropWhile]

/-- Trimming takes no word away. -/
theorem words_trim (cs : List Char) : words (trim cs) = words cs := by
  obtain ⟨front, back, hfront, hback, hcs⟩ := exists_eq_append_trim cs
  calc words (trim cs)
      = words (trim cs ++ back) := (runs_append_blanks hback (trim cs)).symm
    _ = words (front ++ (trim cs ++ back)) := (runs_blanks_append hfront).symm
    _ = words cs := by rw [← hcs]

/-- The words of a string are these strings exactly if they have the characters of its words. -/
theorem whiteWords_eq_iff {text : String} {ws : List String} :
    text.whiteWords = ws ↔ words text.toList = ws.map String.toList := by
  rw [String.whiteWords]
  constructor
  · rintro rfl
    simp
  · intro h
    rw [h]
    simp

theorem takeWhile_not_ne_nil {cs : List Char} (h : cs.dropWhile sep ≠ []) :
    (cs.dropWhile sep).takeWhile (!sep ·) ≠ [] := by
  obtain ⟨c, r, hcr⟩ := List.exists_cons_of_ne_nil h
  have hc : sep c = false := by
    have hhead := List.head?_dropWhile_not sep cs
    rw [hcr] at hhead
    exact hhead
  rw [hcr, List.takeWhile_cons, hc]
  exact List.cons_ne_nil _ _

/-- The first word lies behind the separators at the front. -/
theorem runs_eq_cons {cs : List Char} (h : cs.dropWhile sep ≠ []) :
    runs sep cs =
      (cs.dropWhile sep).takeWhile (!sep ·) :: runs sep ((cs.dropWhile sep).dropWhile (!sep ·)) := by
  have hword : ∀ c ∈ (cs.dropWhile sep).takeWhile (!sep ·), sep c = false := by
    intro c hc
    simpa using List.all_eq_true.1 List.all_takeWhile c hc
  have hrest : ∀ c, ((cs.dropWhile sep).dropWhile (!sep ·)).head? = some c → sep c = true := by
    intro c hc
    have hhead := List.head?_dropWhile_not (!sep ·) (cs.dropWhile sep)
    rw [hc] at hhead
    simpa using hhead
  have hsplit := List.takeWhile_append_dropWhile (p := (!sep ·)) (l := cs.dropWhile sep)
  calc runs sep cs
      = runs sep (cs.takeWhile sep ++ cs.dropWhile sep) := by rw [List.takeWhile_append_dropWhile]
    _ = runs sep (cs.dropWhile sep) := runs_blanks_append fun c hc => List.all_eq_true.1 List.all_takeWhile c hc
    _ = _ := by
        conv => lhs; rw [← hsplit]
        exact runs_word_append (takeWhile_not_ne_nil h) hword hrest

/-- A text of separators has no word. -/
theorem runs_eq_nil {cs : List Char} (h : cs.dropWhile sep = []) : runs sep cs = [] := by
  have hall : ∀ c ∈ cs, sep c = true := by
    intro c hc
    rw [← List.takeWhile_append_dropWhile (p := sep) (l := cs), h, List.append_nil] at hc
    exact List.all_eq_true.1 List.all_takeWhile c hc
  rw [← List.append_nil cs, runs_blanks_append hall]
  rfl

/-- The word at the front, which is empty if there is none, and the words behind it. -/
theorem runs_eq_front (cs : List Char) :
    (runs sep cs).headD [] = (cs.dropWhile sep).takeWhile (!sep ·) ∧
      (runs sep cs).tail = runs sep ((cs.dropWhile sep).dropWhile (!sep ·)) := by
  by_cases h : cs.dropWhile sep = []
  · rw [runs_eq_nil h, h]
    exact ⟨rfl, rfl⟩
  · rw [runs_eq_cons h]
    exact ⟨rfl, rfl⟩

end Conformance.Text
