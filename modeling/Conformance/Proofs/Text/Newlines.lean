import Conformance.Text.Span

/-!
# Newlines written in other ways

A text that ends its lines with LF can be written with other characters in place of every LF. What looks for neither LF
nor these characters finds the same, at the same places.
-/
namespace Conformance.Text

/-- The text with `newline` in place of every LF. -/
def restyle (newline cs : List Char) : List Char := cs.flatMap fun c => if c = '\n' then newline else [c]

/-- The newline CR LF. -/
def crlf : List Char := ['\r', '\n']

/-- The newline CR. -/
def cr : List Char := ['\r']

variable {newline cs pat : List Char} {c : Char} {p : Char → Bool}

theorem restyle_lf (newline r : List Char) : restyle newline ('\n' :: r) = newline ++ restyle newline r := rfl

theorem restyle_cons (hc : c ≠ '\n') (newline r : List Char) : restyle newline (c :: r) = c :: restyle newline r := by
  rw [restyle, List.flatMap_cons, if_neg hc]
  rfl

theorem restyle_append (newline a b : List Char) : restyle newline (a ++ b) = restyle newline a ++ restyle newline b :=
  List.flatMap_append

theorem restyle_eq_self (h : '\n' ∉ cs) (newline : List Char) : restyle newline cs = cs := by
  induction cs with
  | nil => rfl
  | cons c r ih =>
    obtain ⟨hc, hr⟩ := List.ne_and_not_mem_of_not_mem_cons h
    rw [restyle_cons hc.symm, ih hr]

theorem restyle_lf_lf (cs : List Char) : restyle ['\n'] cs = cs := by
  induction cs with
  | nil => rfl
  | cons c r ih =>
    by_cases hc : c = '\n'
    · rw [hc, restyle_lf, ih]
      rfl
    · rw [restyle_cons hc, ih]

/-! ## Finding other characters -/

section Finding

variable (hne : newline ≠ [])
include hne

/-- Characters that are none of the newline are passed over as before. -/
theorem takeWhile_restyle (hlf : p '\n' = false) (hp : ∀ d ∈ newline, p d = false) (cs : List Char) :
    (restyle newline cs).takeWhile p = cs.takeWhile p := by
  induction cs with
  | nil => rfl
  | cons c r ih =>
    by_cases hc : c = '\n'
    · obtain ⟨d, newline, rfl⟩ := List.exists_cons_of_ne_nil hne
      have hd : p d = false := hp d List.mem_cons_self
      rw [hc, restyle_lf, List.cons_append, List.takeWhile_cons, List.takeWhile_cons, hd, hlf]
      rfl
    · rw [restyle_cons hc, List.takeWhile_cons, List.takeWhile_cons, ih]

theorem dropWhile_restyle (hlf : p '\n' = false) (hp : ∀ d ∈ newline, p d = false) (cs : List Char) :
    (restyle newline cs).dropWhile p = restyle newline (cs.dropWhile p) := by
  induction cs with
  | nil => rfl
  | cons c r ih =>
    by_cases hc : c = '\n'
    · obtain ⟨d, newline, rfl⟩ := List.exists_cons_of_ne_nil hne
      have hd : p d = false := hp d List.mem_cons_self
      rw [hc, restyle_lf, List.cons_append, List.dropWhile_cons, List.dropWhile_cons, hd, hlf]
      rfl
    · rw [restyle_cons hc, List.dropWhile_cons, List.dropWhile_cons, ih]
      split
      · rfl
      · exact (restyle_cons hc _ r).symm

theorem dropPrefix?_restyle (hpat : ∀ q ∈ pat, q ≠ '\n' ∧ q ∉ newline) (cs : List Char) :
    dropPrefix? pat (restyle newline cs) = (dropPrefix? pat cs).map (restyle newline) := by
  induction pat generalizing cs with
  | nil =>
    cases cs <;> rfl
  | cons q pat ih =>
    obtain ⟨⟨hlf, hq⟩, hpat⟩ := List.forall_mem_cons.1 hpat
    cases cs with
    | nil => rfl
    | cons c r =>
      by_cases hc : c = '\n'
      · obtain ⟨d, newline, rfl⟩ := List.exists_cons_of_ne_nil hne
        have hd : q ≠ d := (List.ne_and_not_mem_of_not_mem_cons hq).1
        rw [hc, restyle_lf, List.cons_append, dropPrefix?, dropPrefix?, if_neg hd, if_neg hlf]
        rfl
      · rw [restyle_cons hc, dropPrefix?, dropPrefix?, ih hpat]
        split <;> rfl

omit hne in
/-- Nothing that is looked for begins within characters that it does not hold. -/
theorem breakOn?_append (hpat : pat ≠ []) (hcs : ∀ q ∈ pat, q ∉ cs) (r : List Char) :
    breakOn? pat (cs ++ r) = (breakOn? pat r).map (Prod.map (cs ++ ·) id) := by
  obtain ⟨q, pat, rfl⟩ := List.exists_cons_of_ne_nil hpat
  induction cs with
  | nil =>
    rw [List.nil_append]
    cases breakOn? (q :: pat) r <;> rfl
  | cons d cs ih =>
    have hd : q ≠ d := fun h => hcs q List.mem_cons_self (h ▸ List.mem_cons_self)
    rw [List.cons_append, breakOn?, dropPrefix?, if_neg hd, ih fun q hq hmem => hcs q hq (List.mem_cons_of_mem _ hmem)]
    cases breakOn? (q :: pat) r <;> rfl

/-- What is looked for is found at the same place. -/
theorem breakOn?_restyle (hpat : pat ≠ []) (hchars : ∀ q ∈ pat, q ≠ '\n' ∧ q ∉ newline) (cs : List Char) :
    breakOn? pat (restyle newline cs) = (breakOn? pat cs).map (Prod.map (restyle newline) (restyle newline)) := by
  induction cs with
  | nil =>
    obtain ⟨q, pat, rfl⟩ := List.exists_cons_of_ne_nil hpat
    rfl
  | cons c r ih =>
    by_cases hc : c = '\n'
    · have hlf : ∀ q ∈ pat, q ∉ ['\n'] := fun q hq hmem => (hchars q hq).1 (List.mem_singleton.1 hmem)
      have hfound : breakOn? pat ('\n' :: r) = (breakOn? pat r).map (Prod.map (['\n'] ++ ·) id) :=
        breakOn?_append hpat hlf r
      rw [hc, restyle_lf, breakOn?_append hpat fun q hq => (hchars q hq).2, hfound, ih]
      cases breakOn? pat r <;> rfl
    · have hdrop := dropPrefix?_restyle hne hchars (c :: r)
      rw [restyle_cons hc] at hdrop ⊢
      rw [breakOn?, breakOn?, hdrop]
      cases dropPrefix? pat (c :: r) with
      | some after => rfl
      | none =>
        dsimp only [Option.map_none]
        rw [ih]
        cases breakOn? pat r with
        | none => rfl
        | some found => exact congrArg (fun before => some (before, _)) (restyle_cons hc _ found.1).symm

end Finding

end Conformance.Text
