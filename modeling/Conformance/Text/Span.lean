/-!
# Spans of a text

Lengths and offsets in bytes of UTF-8, and the search for a part of a text.
-/
namespace Conformance.Text

/-- The number of bytes that the text takes in UTF-8. -/
def byteLength : List Char → Nat
  | [] => 0
  | c :: r => c.utf8Size + byteLength r

theorem byteLength_append (a b : List Char) :
    byteLength (a ++ b) = byteLength a + byteLength b := by
  induction a with
  | nil => simp [byteLength]
  | cons c r ih => simp [byteLength, ih, Nat.add_assoc]

/-- The characters that start at byte `n` or after it. -/
def dropBytes : Nat → List Char → List Char
  | 0, cs => cs
  | _, [] => []
  | n + 1, c :: r => dropBytes (n + 1 - c.utf8Size) r

/-- Whether a character of the text, or its end, is at byte `n`. -/
def isBoundary : Nat → List Char → Bool
  | 0, _ => true
  | _, [] => false
  | n + 1, c :: r => c.utf8Size ≤ n + 1 && isBoundary (n + 1 - c.utf8Size) r

/-- The rest of the text after `pat`, if it begins with `pat`. -/
def dropPrefix? : List Char → List Char → Option (List Char)
  | [], cs => some cs
  | _ :: _, [] => none
  | p :: ps, c :: cs => if p = c then dropPrefix? ps cs else none

/-- The text before the first occurrence of `pat` and the text after that occurrence. -/
def breakOn? (pat : List Char) : List Char → Option (List Char × List Char)
  | [] => if pat.isEmpty then some ([], []) else none
  | c :: r =>
    match dropPrefix? pat (c :: r) with
    | some after => some ([], after)
    | none => (breakOn? pat r).map fun (before, after) => (c :: before, after)

/-- Whether `pat` occurs in the text. -/
def occurs (pat cs : List Char) : Bool := (breakOn? pat cs).isSome

/-- The text before a final `pat`. -/
def dropSuffix? (pat cs : List Char) : Option (List Char) :=
  (dropPrefix? pat.reverse cs.reverse).map List.reverse

/-- The text before the first character that satisfies `p`, and the text after that character. -/
def breakAt? (p : Char → Bool) : List Char → Option (List Char × List Char)
  | [] => none
  | c :: r =>
    if p c then some ([], r)
    else (breakAt? p r).map fun (before, after) => (c :: before, after)

/-- The text before the last character that satisfies `p`, and the text after that character. -/
def breakAtLast? (p : Char → Bool) (cs : List Char) : Option (List Char × List Char) :=
  (breakAt? p cs.reverse).map fun (after, before) => (before.reverse, after.reverse)

/-- The lines of a text: each ends at a line feed, which is dropped together with a carriage
return directly before it; an empty last line does not count. -/
def lines (cs : List Char) : List (List Char) :=
  go [] cs
where
  /-- `held` is the reversed beginning of the current line. -/
  go (held : List Char) : List Char → List (List Char)
    | [] => if held.isEmpty then [] else [held.reverse]
    | '\n' :: r => (if held.head? = some '\r' then held.tail else held).reverse :: go [] r
    | c :: r => go (c :: held) r

theorem dropPrefix?_eq_some_iff {pat cs rest : List Char} :
    dropPrefix? pat cs = some rest ↔ cs = pat ++ rest := by
  induction pat generalizing cs with
  | nil => simp [dropPrefix?]
  | cons p ps ih =>
    cases cs with
    | nil => simp [dropPrefix?]
    | cons c cs =>
      by_cases h : p = c
      · subst h; simp [dropPrefix?, ih]
      · simp [dropPrefix?, h, Ne.symm h]

theorem breakAt?_eq_some_iff {p : Char → Bool} {cs before after : List Char} :
    breakAt? p cs = some (before, after) ↔
      ∃ c, cs = before ++ c :: after ∧ p c = true ∧ ∀ d ∈ before, p d = false := by
  constructor
  · intro h
    induction cs generalizing before with
    | nil => contradiction
    | cons c r ih =>
      rw [breakAt?] at h
      split at h
      · obtain ⟨rfl, rfl⟩ : [] = before ∧ r = after := by simpa using h
        exact ⟨c, rfl, ‹_›, by simp⟩
      · obtain ⟨⟨b, a⟩, hb, he⟩ := Option.map_eq_some_iff.1 h
        simp only [Prod.mk.injEq] at he
        obtain ⟨rfl, rfl⟩ := he
        obtain ⟨d, rfl, hd, hall⟩ := ih hb
        exact ⟨d, rfl, hd, by simp_all⟩
  · rintro ⟨c, rfl, hc, hall⟩
    induction before with
    | nil => simp [breakAt?, hc]
    | cons d before ih => simp_all [breakAt?]

theorem breakAt?_eq_none_iff {p : Char → Bool} {cs : List Char} :
    breakAt? p cs = none ↔ ∀ c ∈ cs, p c = false := by
  induction cs with
  | nil => simp [breakAt?]
  | cons c r ih =>
    rw [breakAt?, List.forall_mem_cons, ← ih]
    cases p c <;> simp

theorem breakAtLast?_eq_some_iff {p : Char → Bool} {cs before after : List Char} :
    breakAtLast? p cs = some (before, after) ↔
      ∃ c, cs = before ++ c :: after ∧ p c = true ∧ ∀ d ∈ after, p d = false := by
  have hback : breakAtLast? p cs = some (before, after) ↔
      breakAt? p cs.reverse = some (after.reverse, before.reverse) := by
    rw [breakAtLast?]
    cases breakAt? p cs.reverse with
    | none => simp
    | some found => simp [Prod.ext_iff, List.reverse_eq_iff, and_comm]
  rw [hback, breakAt?_eq_some_iff]
  simp [List.reverse_eq_iff]

theorem dropSuffix?_eq_some_iff {pat cs front : List Char} :
    dropSuffix? pat cs = some front ↔ cs = front ++ pat := by
  simp [dropSuffix?, dropPrefix?_eq_some_iff, List.reverse_eq_iff]

theorem eq_of_breakOn?_eq_some {pat cs before after : List Char}
    (h : breakOn? pat cs = some (before, after)) : cs = before ++ pat ++ after := by
  induction cs generalizing before after with
  | nil =>
    cases pat <;> simp_all [breakOn?]
  | cons c r ih =>
    rw [breakOn?] at h
    split at h
    · rename_i rest hp
      obtain ⟨rfl, rfl⟩ : [] = before ∧ rest = after := by simpa using h
      simpa using dropPrefix?_eq_some_iff.1 hp
    · obtain ⟨⟨b, a⟩, hb, he⟩ := Option.map_eq_some_iff.1 h
      simp only [Prod.mk.injEq] at he
      obtain ⟨rfl, rfl⟩ := he
      simp [ih hb]

/-- A text is broken at the first occurrence of the pattern. -/
theorem breakOn?_eq_some_iff {pat cs before after : List Char} :
    breakOn? pat cs = some (before, after) ↔
      cs = before ++ pat ++ after ∧ ∀ x y, cs = x ++ pat ++ y → before.length ≤ x.length := by
  induction cs generalizing before with
  | nil =>
    rw [breakOn?]
    cases pat with
    | nil => simp +contextual
    | cons p ps => simp
  | cons c r ih =>
    rw [breakOn?]
    cases hstarts : dropPrefix? pat (c :: r) with
    | some rest =>
      have hcs : c :: r = pat ++ rest := dropPrefix?_eq_some_iff.1 hstarts
      constructor
      · intro h
        obtain ⟨rfl, rfl⟩ : [] = before ∧ rest = after := by simpa using h
        exact ⟨hcs, fun _ _ _ => Nat.zero_le _⟩
      · rintro ⟨hsplit, hfirst⟩
        obtain rfl : before = [] := List.length_eq_zero_iff.1 (Nat.le_zero.1 (hfirst [] rest hcs))
        have hrest : rest = after := List.append_cancel_left (hcs.symm.trans hsplit)
        rw [hrest]
    | none =>
      -- The pattern does not stand at the front, so it is found in the rest.
      have hfront : ∀ y, c :: r ≠ [] ++ pat ++ y := by
        intro y hy
        have hsome := hstarts.symm.trans (dropPrefix?_eq_some_iff.2 hy)
        contradiction
      have hmap : (breakOn? pat r).map (fun p => (c :: p.1, p.2)) = some (before, after) ↔
          ∃ b, before = c :: b ∧ breakOn? pat r = some (b, after) := by
        constructor
        · intro h
          obtain ⟨⟨b, a⟩, hb, he⟩ := Option.map_eq_some_iff.1 h
          obtain ⟨rfl, rfl⟩ := Prod.mk.inj he
          exact ⟨b, rfl, hb⟩
        · rintro ⟨b, rfl, hb⟩
          rw [hb]
          rfl
      show (breakOn? pat r).map (fun p => (c :: p.1, p.2)) = some (before, after) ↔ _
      rw [hmap]
      constructor
      · rintro ⟨b, rfl, hb⟩
        obtain ⟨hr, hfirst⟩ := ih.1 hb
        refine ⟨by rw [hr]; rfl, fun x y hxy => ?_⟩
        cases x with
        | nil => exact absurd hxy (hfront y)
        | cons d x => exact Nat.succ_le_succ (hfirst x y (List.cons.inj hxy).2)
      · rintro ⟨hsplit, hfirst⟩
        cases before with
        | nil => exact absurd hsplit (hfront after)
        | cons d b =>
          obtain ⟨rfl, hr⟩ := List.cons.inj hsplit
          refine ⟨b, rfl, ih.2 ⟨hr, fun x y hxy => ?_⟩⟩
          exact Nat.le_of_succ_le_succ (hfirst (c :: x) y (by rw [hxy]; rfl))

end Conformance.Text
