import Conformance.Proofs.Regex.Readers

/-!
# Reading a pattern in parentheses

The readers of the parts of a pattern, one by one, up to whole patterns (`agrees_alternatives`): none of them
can tell whether a closing parenthesis stands behind its text.
-/
namespace Conformance.Regex

open Text Reader

variable {α β : Type} {n k : Nat}

/-! ## Escapes -/

theorem local_mapM {ι : Type} {f : ι → Reader α} (h : ∀ i, Local 0 (f i)) (l : List ι) :
    Local 0 (l.mapM f) := by
  induction l with
  | nil => exact local_pure []
  | cons i l ih =>
    rw [List.mapM_cons]
    exact (h i).seq fun a => ih.seq fun as => local_pure (a :: as)

theorem local_hexEscape : Local 1 hexEscape := by
  refine local_nextThenBlanks.step fun kind => local_peek?.seq fun c => ?_
  split
  · exact local_refuse
  · refine local_get_length_seq agrees_takeBraced fun digits => local_nextThenBlanks.step' fun _ => ?_
    split
    · exact local_pure _
    · exact local_refuse
  · refine (local_mapM (fun _ => local_nextThenBlanks.mono (Nat.zero_le 1)) _).seq fun digits => ?_
    split
    · exact local_pure _
    · exact local_refuse

theorem local_negatedIf (f : Flags) (negated : Bool) (s : CharSet) : Local 0 (negatedIf f negated s) := by
  unfold negatedIf
  split
  · split
    · exact local_pure _
    · exact local_refuse
  · exact local_pure _

theorem local_propertyEscape : Local 1 propertyEscape := by
  refine local_nextThenBlanks.step fun kind => .get_seq (fun _ => rfl) fun s => ?_
  extract_lets f goOn of?
  refine local_peek?.seq fun c => ?_
  have hgo : ∀ x, Local 0 (goOn x) := by
    rintro ⟨flip, property⟩
    simp only [goOn]
    split
    · split
      · exact (local_negatedIf f _ _).seq fun _ => local_pure _
      · exact local_refuse
    · exact local_refuse
  split
  · exact local_refuse.seq hgo
  · refine local_get_length_seq agrees_takeBraced fun name => local_next.step' fun _ => ?_
    split
    · exact (local_pure _).seq hgo
    · split
      · exact (local_pure _).seq hgo
      · exact (local_pure _).seq hgo
  · exact local_refuse.seq hgo
  · exact local_nextThenBlanks.step' fun _ => (local_pure _).seq hgo

theorem local_classEscape : Local 1 classEscape := by
  refine local_next.step fun c => .get_seq (fun _ => rfl) fun s => ?_
  extract_lets f base
  exact (local_negatedIf f _ _).seq fun _ => local_pure _

theorem nextThenBlanks_apply {s : State} {c : Char} {r : List Char} (h : s.rest = c :: r) :
    nextThenBlanks s =
      some (c, { s with rest := if s.flags.ignoreBlanks then skipBlanks false r else r }) := by
  show (next >>= fun c => blanks >>= fun _ => pure c) s = _
  refine bind_eq_some_iff.2 ⟨c, _, next_apply_cons h, bind_eq_some_iff.2 ⟨(), _, blanks_apply _, ?_⟩⟩
  cases s.flags.ignoreBlanks <;> rfl

/-- Behind the next character, either both texts have something left or neither has. -/
theorem nextThenBlanks_enclosed {s : State} {c : Char} {r : List Char} (h : s.rest = c :: r) :
    ∃ u w, nextThenBlanks s = some (c, u) ∧ nextThenBlanks s.enclosed = some (c, w) ∧
      (w = u.enclosed ∨ (u.rest = [] ∧ w.rest = [])) := by
  have he : s.enclosed.rest = c :: (r ++ [')']) := by rw [State.enclosed_rest, h]; rfl
  refine ⟨_, _, nextThenBlanks_apply h, nextThenBlanks_apply he, ?_⟩
  cases hb : s.flags.ignoreBlanks with
  | false => exact .inl (by simp [State.enclosed, hb])
  | true =>
    rcases skipBlanks_enclosed false r with hr | ⟨hr, hr'⟩
    · exact .inl (by simp [State.enclosed, hb, hr])
    · exact .inr (by simp [hb, hr, hr'])

theorem local_namedBoundary (ascii : Bool) : Local 0 (namedBoundary ascii) := by
  refine local_get_length_seq (agrees_takeRun _) fun name => local_peek?.seq fun c => ?_
  extract_lets goOn
  have hgo : ∀ x, Local 0 (goOn x) := by
    intro x
    refine local_next.step' fun _ => ?_
    split
    case h_5 => exact local_refuse
    all_goals exact local_pure _
  split
  · exact local_refuse.seq hgo
  · exact hgo ()

theorem wordBoundary_apply (ascii : Bool) (s : State) :
    wordBoundary ascii s =
      if s.rest.head? ≠ some '\x7b' then some (.wordEdge ascii false, s)
      else (nextThenBlanks s).bind fun p =>
        if (p.2.rest.head?).any isBoundaryChar then namedBoundary ascii p.2
        else some (.wordEdge ascii false, s) := by
  simp only [wordBoundary, bind, StateT.bind, get, getThe, MonadStateOf.get, StateT.get, pure,
    peek?_apply, Option.bind_some]
  split
  · rfl
  · show (nextThenBlanks s).bind _ = (nextThenBlanks s).bind _
    congr 1
    funext p
    show (if _ then _ else _ : Reader Look) p.2 = _
    split <;> rfl

/-- Whether braces behind a word boundary hold a name is decided alike, since a closing parenthesis is
no part of a name; a boundary without a name leaves the text as it was. -/
theorem local_wordBoundary (ascii : Bool) : Local 0 (wordBoundary ascii) := by
  refine fun k => ⟨fun s v t h => ?_, fun s _ v t hne h => ?_⟩
  · rw [wordBoundary_apply] at h
    split at h
    · obtain ⟨-, rfl⟩ : _ ∧ s = t := by simpa using h
      exact ⟨[], rfl, Nat.le_refl 0⟩
    · obtain ⟨⟨c, u⟩, hu, h⟩ := Option.bind_eq_some_iff.1 h
      split at h
      · obtain ⟨front, hs, -⟩ := (local_nextThenBlanks k).takes s c u hu
        obtain ⟨front', hu', -⟩ := (local_namedBoundary ascii k).takes u v t h
        exact ⟨front ++ front', by rw [hs, hu', List.append_assoc], Nat.zero_le _⟩
      · obtain ⟨-, rfl⟩ : _ ∧ s = t := by simpa using h
        exact ⟨[], rfl, Nat.le_refl 0⟩
  · rw [wordBoundary_apply] at h ⊢
    cases hs : s.rest with
    | nil =>
      obtain ⟨-, ht⟩ : _ ∧ s.enclosed = t.enclosed := by simpa [hs] using h
      rw [State.ext_of_enclosed ht] at hs
      exact absurd hs hne
    | cons c r =>
      obtain ⟨u, w, hu, hw, huw⟩ := nextThenBlanks_enclosed hs
      rw [State.enclosed_rest, hs, List.cons_append, List.head?_cons] at h
      rw [List.head?_cons]
      -- without a brace nothing more is read
      by_cases hc : some c ≠ some '\x7b'
      · rw [if_pos hc] at h ⊢
        obtain ⟨hv, ht⟩ : _ ∧ s.enclosed = t.enclosed := by simpa using h
        rw [hv, State.ext_of_enclosed ht]
      · rw [if_neg hc, hw, Option.bind_some] at h
        rw [if_neg hc, hu, Option.bind_some]
        have hany : (w.rest.head?).any isBoundaryChar = (u.rest.head?).any isBoundaryChar := by
          rcases huw with rfl | ⟨hnil, hnil'⟩
          · cases hrest : u.rest with
            | nil =>
              rw [State.enclosed_rest, hrest]
              decide
            | cons d r' => rw [State.enclosed_rest, hrest, List.cons_append, List.head?_cons, List.head?_cons]
          · rw [hnil, hnil']
        dsimp only at h ⊢
        rw [hany] at h
        by_cases hd : (u.rest.head?).any isBoundaryChar = true
        · rw [if_pos hd] at h ⊢
          rcases huw with rfl | ⟨hnil, -⟩
          · exact (local_namedBoundary ascii _).blind u (Nat.lt_succ_self _) v t hne h
          · rw [hnil] at hd
            contradiction
        · rw [if_neg hd] at h ⊢
          obtain ⟨hv, ht⟩ : _ ∧ s.enclosed = t.enclosed := by simpa using h
          rw [hv, State.ext_of_enclosed ht]

theorem local_escape : Local 1 escape := by
  refine .get_seq (fun _ => rfl) fun s => ?_
  extract_lets ascii
  refine local_peek?.seq fun c => ?_
  split
  · exact local_refuse
  · split
    · exact local_refuse
    · split
      · exact local_hexEscape
      · split
        · exact local_propertyEscape
        · split
          · exact local_classEscape
          · refine local_next.step fun _ => ?_
            split
            · exact local_pure _
            · split
              case h_9 => exact (local_wordBoundary ascii).seq fun _ => local_pure _
              case h_13 => exact local_refuse
              all_goals exact local_pure _

theorem local_classPrimitive : Local 1 classPrimitive := by
  refine local_next.step fun c => ?_
  split
  · exact local_escape.mono (Nat.zero_le 1)
  · exact local_pure _

theorem local_classLiteral (f : Flags) (p : Primitive) : Local 0 (classLiteral f p) := by
  unfold classLiteral
  split
  · split
    · exact local_pure _
    · exact local_refuse
  · exact local_refuse

/-! ## Classes -/

theorem peekSpace?_apply (s : State) :
    peekSpace? s =
      some ((if s.flags.ignoreBlanks then skipBlanks false s.rest.tail else s.rest.tail).head?, s) :=
  rfl

/-- The character behind the next one is the same with the parenthesis, or there is none without it. -/
theorem peekSpace?_enclosed (s : State) :
    ∃ a b, peekSpace? s = some (a, s) ∧ peekSpace? s.enclosed = some (b, s.enclosed) ∧
      (b = a ∨ (a = none ∧ b = some ')')) := by
  refine ⟨_, _, peekSpace?_apply s, peekSpace?_apply s.enclosed, ?_⟩
  cases hs : s.rest with
  | nil =>
    left
    rw [State.enclosed_rest, hs]
    rfl
  | cons c r =>
    have htail : s.enclosed.rest.tail = r ++ [')'] := by rw [State.enclosed_rest, hs]; rfl
    have hhead : ∀ l : List Char, (l ++ [')']).head? = l.head? ∨
        (l.head? = none ∧ (l ++ [')']).head? = some ')') := by
      intro l
      cases l with
      | nil => exact .inr ⟨rfl, rfl⟩
      | cons d l => exact .inl rfl
    rw [htail, State.enclosed_flags, List.tail_cons]
    split
    · rcases skipBlanks_enclosed false r with hr | ⟨hr, hr'⟩
      · rw [hr]
        exact hhead _
      · rw [hr, hr']
        exact .inl rfl
    · exact hhead r

/-- A reader that decides on the character behind the next one, and for which a parenthesis there is as
good as nothing. -/
theorem local_peekSpace?_seq {g : Option Char → Reader α} (hg : g (some ')') = g none)
    (h : ∀ c, Local n (g c)) : Local n (peekSpace? >>= g) := by
  refine fun k => ⟨fun s v t hr => ?_, fun s hk v t hne hr => ?_⟩
  · obtain ⟨a, u, hu, hr⟩ := bind_eq_some_iff.1 hr
    obtain ⟨-, rfl⟩ : _ ∧ s = u := by simpa [peekSpace?_apply] using hu
    exact (h a k).takes s v t hr
  · obtain ⟨a, b, ha, hb, hab⟩ := peekSpace?_enclosed s
    obtain ⟨b', u, hu, hr⟩ := bind_eq_some_iff.1 hr
    obtain ⟨rfl, rfl⟩ : b = b' ∧ s.enclosed = u := by simpa [hb] using hu
    refine bind_eq_some_iff.2 ⟨a, s, ha, (h a k).blind s hk v t hne ?_⟩
    rcases hab with rfl | ⟨rfl, rfl⟩
    · exact hr
    · rw [← hg]
      exact hr

theorem local_classItem : Local 1 classItem := by
  refine .get_seq (fun _ => rfl) fun s => ?_
  extract_lets f
  refine local_classPrimitive.step fun first => local_blanks.seq fun _ => local_peek?.seq fun c => ?_
  split
  · exact local_refuse
  · refine local_peekSpace?_seq (by simp) fun after => ?_
    split
    · split
      · exact local_pure _
      · exact (local_classLiteral f _).seq fun _ => local_pure _
    · refine local_nextThenBlanks.step' fun _ =>
        (local_classPrimitive.mono (Nat.zero_le 1)).seq fun last => ?_
      split
      · refine (local_classLiteral f _).seq fun lo => (local_classLiteral f _).seq fun hi => ?_
        split
        · exact local_pure _
        · exact local_refuse
      · exact local_refuse

theorem agrees_leadingHyphens (N M k : Nat) (hN : k ≤ N) (hM : k ≤ M) (u : Union) :
    Agrees 0 k (leadingHyphens N u) (leadingHyphens M u) := by
  refine agrees_of_fuel (f := fun u n => leadingHyphens n u) (fun u => (agrees_pure (k := 0) u).takes) ?_
    N M k hN hM u
  intro N M k ih u
  refine (local_peek? k).seq fun c => ?_
  split
  · refine ((local_nextThenBlanks k).step fun _ => ih _).mono (Nat.zero_le 1) (Nat.le_refl k)
  · exact agrees_pure u

theorem local_classOpening : Local 1 classOpening := by
  refine local_nextThenBlanks.step fun _ => local_peek?.seq fun c => ?_
  extract_lets negated goOn
  have hgo : ∀ x, Local 0 (goOn x) := by
    intro x
    refine local_get_length_seq (fun N M k hN hM => agrees_leadingHyphens N M k hN hM {}) fun u =>
      local_peek?.seq fun d => ?_
    split
    · exact local_nextThenBlanks.step' fun _ => local_pure _
    · exact local_pure _
  split
  · exact local_nextThenBlanks.step' fun _ => hgo ()
  · exact hgo ()

theorem takeOr_apply_some {split? : List Char → Option (β × List Char)} {found : β → Reader α}
    {other : Reader α} {s : State} {b : β} {r : List Char} (h : split? s.rest = some (b, r)) :
    takeOr split? found other s = found b { s with rest := r } := by
  unfold takeOr
  rw [bind_apply (get_apply s), h]
  rfl

theorem takeOr_apply_none {split? : List Char → Option (β × List Char)} {found : β → Reader α}
    {other : Reader α} {s : State} (h : split? s.rest = none) :
    takeOr split? found other s = other s := by
  unfold takeOr
  rw [bind_apply (get_apply s), h]

/-- What is taken off a text does not depend on the text behind it. -/
def Splits (split? : List Char → Option (β × List Char)) : Prop :=
  ∃ P : β → List Char → Prop, ∀ cs b rest,
    split? cs = some (b, rest) ↔ ∃ front, cs = front ++ rest ∧ 1 ≤ front.length ∧ P b front

theorem agrees_takeOr {split? : List Char → Option (β × List Char)} (hsplit : Splits split?)
    {found found' : β → Reader α} {other other' : Reader α}
    (hfound : ∀ b, Agrees 0 (k - 1) (found b) (found' b)) (hother : Agrees 1 k other other') :
    Agrees 1 k (takeOr split? found other) (takeOr split? found' other') := by
  obtain ⟨P, hP⟩ := hsplit
  refine ⟨fun s v t h => ?_, fun s hk v t hne h => ?_⟩
  · cases hs : split? s.rest with
    | none =>
      rw [takeOr_apply_none hs] at h
      exact hother.takes s v t h
    | some br =>
      obtain ⟨b, r⟩ := br
      rw [takeOr_apply_some hs] at h
      obtain ⟨front, hrest, hlen, -⟩ := (hP _ _ _).1 hs
      obtain ⟨front', hr, -⟩ := (hfound b).takes _ v t h
      refine ⟨front ++ front', ?_, by rw [List.length_append]; omega⟩
      rw [hrest, show r = front' ++ t.rest from hr, List.append_assoc]
  · cases hs : split? s.enclosed.rest with
    | none =>
      -- What is taken off the text alone would be taken off the enclosed text.
      have hs' : split? s.rest = none := by
        cases hs' : split? s.rest with
        | none => rfl
        | some br =>
          obtain ⟨b, r⟩ := br
          obtain ⟨front, hrest, hlen, hb⟩ := (hP _ _ _).1 hs'
          have henc := (hP s.enclosed.rest b (r ++ [')'])).2
            ⟨front, by rw [State.enclosed_rest, hrest, List.append_assoc], hlen, hb⟩
          rw [hs] at henc
          contradiction
      rw [takeOr_apply_none hs] at h
      rw [takeOr_apply_none hs']
      exact hother.blind s hk v t hne h
    | some br =>
      obtain ⟨b, r⟩ := br
      rw [takeOr_apply_some hs] at h
      obtain ⟨front, hrest, hlen, hb⟩ := (hP _ _ _).1 hs
      obtain ⟨front', hr, -⟩ := (hfound b).takes _ v _ h
      -- Something is left in front of the parenthesis, so what is taken lies in front of it.
      obtain ⟨u, hu, hur⟩ := State.exists_enclosed hr
      have hur' : r = u.rest ++ [')'] := by rw [← State.enclosed_rest, hu]
      have hsrest : s.rest = front ++ u.rest := by
        rw [State.enclosed_rest, hur', ← List.append_assoc] at hrest
        exact List.append_cancel_right hrest
      have hsu : { s with rest := u.rest } = u := by
        refine State.ext_of_enclosed ?_
        rw [hu, hur']
        rfl
      rw [takeOr_apply_some ((hP _ _ _).2 ⟨front, hsrest, hlen, hb⟩), hsu]
      rw [← hu] at h
      have hlen' := congrArg List.length hsrest
      rw [List.length_append] at hlen'
      exact (hfound b).blind u (by omega) v t hne h

theorem splits_setOp? : Splits setOp? := by
  refine ⟨fun op front => ∃ c, front = [c, c] ∧ SetOp.ofSign? c = some op, fun cs op rest => ?_⟩
  constructor
  · intro h
    unfold setOp? at h
    split at h
    · split at h
      · rename_i c d r hcd
        obtain ⟨op', hop, he⟩ := Option.map_eq_some_iff.1 h
        obtain ⟨rfl, rfl⟩ : op' = op ∧ r = rest := by simpa using he
        exact ⟨[c, d], rfl, by simp, c, by rw [hcd], hop⟩
      · contradiction
    · contradiction
  · rintro ⟨-, rfl, -, c, rfl, hc⟩
    simp [setOp?, hc]

theorem splits_asciiClass? : Splits asciiClass? := by
  refine ⟨fun b front => ∃ name, front = '[' :: ':' :: name ++ [':', ']'] ∧ (∀ d ∈ name, d ≠ ':') ∧
    namedClass? name = some b, fun cs b rest => ?_⟩
  have hbreak : ∀ r name after, breakAt? (· = ':') r = some (name, after) ↔
      ∃ c, r = name ++ c :: after ∧ decide (c = ':') = true ∧ ∀ d ∈ name, decide (d = ':') = false :=
    fun _ _ _ => breakAt?_eq_some_iff
  constructor
  · intro h
    obtain ⟨r, hr, h⟩ := Option.bind_eq_some_iff.1 h
    obtain ⟨⟨name, r'⟩, hr', h⟩ := Option.bind_eq_some_iff.1 h
    obtain ⟨r'', hr'', h⟩ := Option.bind_eq_some_iff.1 h
    obtain ⟨b', hb, h⟩ := Option.bind_eq_some_iff.1 h
    obtain ⟨rfl, rfl⟩ : b' = b ∧ r'' = rest := by simpa using h
    obtain ⟨c, rfl, hc, hname⟩ := (hbreak _ _ _).1 hr'
    rw [dropPrefix?_eq_some_iff] at hr hr''
    refine ⟨'[' :: ':' :: name ++ [':', ']'], ?_, by simp, name, rfl, ?_, hb⟩
    · simp_all
    · simpa using hname
  · rintro ⟨-, rfl, -, name, rfl, hname, hb⟩
    have hname' : breakAt? (· = ':') (name ++ ':' :: ']' :: rest) = some (name, ']' :: rest) :=
      (hbreak _ _ _).2 ⟨':', rfl, by simp, by simpa using hname⟩
    simp [asciiClass?, dropPrefix?, hname', hb]

theorem agrees_bracketClass_succ {N M : Nat}
    (h : ∀ p u, Agrees 0 (k - 1) (classBody N p u) (classBody M p u)) :
    Agrees 1 k (bracketClass (N + 1)) (bracketClass (M + 1)) := by
  rw [bracketClass.eq_2, bracketClass.eq_2]
  refine (local_classOpening k).step fun ⟨negated, u⟩ => .get_seq (fun _ => rfl) fun s => ?_
  extract_lets f
  refine (h none u).seq fun ⟨set, depth⟩ => ?_
  exact (local_negatedIf f _ _ _).seq fun _ => agrees_pure _

theorem agrees_classBody_succ {N M : Nat} (hb : Agrees 1 k (bracketClass N) (bracketClass M))
    (h : ∀ p u, Agrees 0 (k - 1) (classBody N p u) (classBody M p u)) (p : Option Pending) (u : Union) :
    Agrees 1 k (classBody (N + 1) p u) (classBody (M + 1) p u) := by
  rw [classBody.eq_2, classBody.eq_2]
  refine (local_blanks k).seq fun _ => .get_seq (fun _ => rfl) fun s => ?_
  extract_lets f
  -- The text ends, the class ends, a class stands in it, or an operator or an item comes next.
  refine (local_peek? k).seq fun c => ?_
  split
  · exact agrees_refuse _
  · exact (local_next k).step fun _ => agrees_pure _
  · refine agrees_takeOr splits_asciiClass? (fun ⟨negated, named⟩ => ?_) (hb.step fun ⟨set, depth⟩ => ?_)
    · exact (local_negatedIf f _ _ _).seq fun _ => h p _
    · exact h p _
  · refine agrees_takeOr splits_setOp? (fun op => ?_) ((local_classItem k).step fun item => ?_)
    · exact h _ _
    · exact h p _

/-- Whatever the fuel, a class takes its opening bracket, and its body takes the closing one. -/
theorem takes_class (N : Nat) :
    Takes 1 (bracketClass N) ∧ ∀ p u, Takes 1 (classBody N p u) := by
  induction N with
  | zero => exact ⟨(agrees_refuse (k := 0) refuse).takes, fun _ _ => (agrees_refuse (k := 0) refuse).takes⟩
  | succ N ih =>
    have hbody : ∀ p u, Agrees 0 (0 - 1) (classBody N p u) (classBody N p u) := fun p u =>
      .of_zero ((ih.2 p u).mono (Nat.zero_le 1))
    exact ⟨(agrees_bracketClass_succ hbody).takes,
      fun p u => (agrees_classBody_succ (.of_zero ih.1) hbody p u).takes⟩

/-- A class takes two units of fuel for each character. -/
theorem agrees_class (N : Nat) :
    (∀ M k, 2 * k ≤ N → 2 * k ≤ M → Agrees 1 k (bracketClass N) (bracketClass M)) ∧
      ∀ M k, 2 * k + 1 ≤ N → 2 * k + 1 ≤ M →
        ∀ p u, Agrees 1 k (classBody N p u) (classBody M p u) := by
  induction N with
  | zero =>
    refine ⟨fun M k hN _ => ?_, fun M k hN _ => absurd hN (by omega)⟩
    obtain rfl : k = 0 := by omega
    exact .of_zero (takes_class 0).1
  | succ N ih =>
    refine ⟨fun M k hN hM => ?_, fun M k hN hM p u => ?_⟩
    · cases k with
      | zero => exact .of_zero (takes_class _).1
      | succ k =>
        obtain ⟨M, rfl⟩ : ∃ M', M = M' + 1 := ⟨M - 1, by omega⟩
        refine agrees_bracketClass_succ fun p u => ?_
        exact (ih.2 M k (by omega) (by omega) p u).mono (Nat.zero_le 1) (Nat.le_refl k)
    · obtain ⟨M, rfl⟩ : ∃ M', M = M' + 1 := ⟨M - 1, by omega⟩
      refine agrees_classBody_succ (ih.1 M k (by omega) (by omega)) (fun p u => ?_) p u
      cases k with
      | zero => exact .of_zero (((takes_class N).2 p u).mono (Nat.zero_le 1))
      | succ k => exact (ih.2 M k (by omega) (by omega) p u).mono (Nat.zero_le 1) (Nat.le_refl k)

/-- Two units of fuel for each character of the text are enough with and without the parenthesis. -/
theorem local_bracketClass :
    Local 1 (get >>= fun s => bracketClass (2 * s.rest.length + 2)) := by
  refine fun k => .get_bind (fun s => (takes_class _).1) fun s _ => ?_
  refine ((agrees_class _).1 _ (s.rest.length + 1) ?_ ?_).blind s (Nat.lt_succ_self _)
  · rw [State.enclosed_rest, List.length_append]
    omega
  · omega

/-! ## Repetitions and groups -/

theorem local_primitiveNode (f : Flags) (p : Primitive) : Local 0 (primitiveNode f p) := by
  unfold primitiveNode
  split
  · split
    · exact local_refuse
    · exact local_pure _
  · exact local_pure _
  · exact local_pure _
  · split
    · exact local_refuse
    · split
      · exact local_pure _
      · split
        · exact local_pure _
        · exact local_pure _

theorem local_primitive : Local 1 primitive := by
  refine local_next.step fun c => .get_seq (fun _ => rfl) fun s => ?_
  extract_lets f
  split
  · exact (local_escape.mono (Nat.zero_le 1)).seq fun p => local_primitiveNode f p
  · exact local_primitiveNode f _
  · exact local_pure _
  · exact local_pure _
  · exact local_primitiveNode f _

theorem local_dropWhite :
    Local 0 (modify fun s : State => { s with rest := s.rest.dropWhile isWhite } : Reader Unit) := by
  refine local_of_apply (f := fun s => { s with rest := s.rest.dropWhile isWhite }) (fun _ => rfl)
    (fun s => List.dropWhile_suffix _) fun s => .inr ?_
  have hdrop : ∀ cs : List Char, (cs ++ [')']).dropWhile isWhite = cs.dropWhile isWhite ++ [')'] := by
    intro cs
    induction cs with
    | nil => decide
    | cons c cs ih =>
      rw [List.cons_append, List.dropWhile_cons, List.dropWhile_cons, ih]
      split <;> rfl
  simp only [State.enclosed, hdrop]

theorem local_decimal? : Local 0 decimal? := by
  refine local_dropWhite.seq fun _ => local_get_length_seq (agrees_takeRun _) fun digits =>
    local_get_length_seq (agrees_takeRun _) fun _ => ?_
  split
  · exact local_pure _
  · split
    · exact local_pure _
    · exact local_refuse

theorem local_bounds : Local 1 bounds := by
  refine local_nextThenBlanks.step fun _ => local_decimal?.seq fun first => local_peek?.seq fun c => ?_
  split
  · refine local_nextThenBlanks.step' fun _ => local_peek?.seq fun c => ?_
    split
    · exact local_pure _
    · refine local_decimal?.seq fun last => ?_
      split
      · split
        · exact local_pure _
        · exact local_refuse
      · exact local_refuse
  · exact local_pure _
  · exact local_refuse

theorem local_repetition (p : Piece) : Local 1 (repetition p) := by
  unfold repetition
  -- `goOn` reads what follows the bounds, and `reading` the bounds, once the piece may be repeated.
  extract_lets goOn reading
  have hgo : ∀ x, Local 0 (goOn x) := fun ⟨min, max⟩ =>
    (local_take "?").seq fun _ => .get_seq (fun _ => rfl) fun s => local_pure _
  have hread : ∀ x, Local 1 (reading x) := by
    refine fun _ => local_peek?.seq fun c => ?_
    split
    · exact local_next.step fun _ => (local_pure _).seq hgo
    · exact local_next.step fun _ => (local_pure _).seq hgo
    · exact local_next.step fun _ => (local_pure _).seq hgo
    · refine local_bounds.step fun b => local_peek?.seq fun d => ?_
      extract_lets closing
      have hclosing : ∀ x, Local 0 (closing x) := fun _ =>
        local_nextThenBlanks.step' fun _ => (local_pure b).seq hgo
      split
      · exact local_refuse.seq hclosing
      · exact hclosing ()
  split
  · exact local_refuse.seq hread
  · exact hread ()

theorem agrees_flagLetters (N M k : Nat) (hN : k ≤ N) (hM : k ≤ M) (seen : List Char) (f : Flags) :
    Agrees 0 k (flagLetters N seen f) (flagLetters M seen f) := by
  refine agrees_of_fuel (f := fun (i : List Char × Flags) n => flagLetters n i.1 i.2)
    (fun _ => (agrees_refuse (k := 0) refuse).takes) ?_ N M k hN hM (seen, f)
  rintro N M k ih ⟨seen, f⟩
  refine (local_peek? k).seq fun c => ?_
  split
  · exact agrees_refuse _
  · split
    · split
      · exact agrees_refuse _
      · exact agrees_pure _
    · split
      · exact agrees_refuse _
      · refine ((local_next k).step fun _ => ?_).mono (Nat.zero_le 1) (Nat.le_refl k)
        split
        · exact ih (_ :: seen, f)
        · split
          · exact ih (_ :: seen, _)
          · exact agrees_refuse _

theorem splits_groupName? : Splits groupName? := by
  refine ⟨fun name front => ∃ c r, front = c :: r ++ ['>'] ∧ (∀ d ∈ c :: r, d ≠ '>') ∧
    (isGroupNameChar true c && r.all (isGroupNameChar false)) = true ∧ String.ofList (c :: r) = name,
    fun cs name rest => ?_⟩
  have hbreak : ∀ cs name after, breakAt? (· = '>') cs = some (name, after) ↔
      ∃ c, cs = name ++ c :: after ∧ decide (c = '>') = true ∧ ∀ d ∈ name, decide (d = '>') = false :=
    fun _ _ _ => breakAt?_eq_some_iff
  constructor
  · intro h
    unfold groupName? at h
    split at h
    · rename_i c r after hcs
      split at h
      · rename_i hname
        obtain ⟨rfl, rfl⟩ : String.ofList (c :: r) = name ∧ after = rest := by simpa using h
        obtain ⟨d, hcs, hd, hall⟩ := (hbreak _ _ _).1 hcs
        refine ⟨c :: r ++ ['>'], ?_, by simp, c, r, rfl, by simpa using hall, hname, rfl⟩
        rw [hcs, show d = '>' by simpa using hd]
        simp
      · contradiction
    · contradiction
  · rintro ⟨-, rfl, -, c, r, rfl, hall, hname, rfl⟩
    unfold groupName?
    rw [(hbreak _ (c :: r) rest).2 ⟨'>', by simp, by simp, by simpa using hall⟩]
    dsimp only
    rw [if_pos hname]

theorem local_groupName : Local 1 groupName :=
  fun _ => agrees_takeOr splits_groupName? (fun name => agrees_pure name) (agrees_refuse _)

/-- Nothing but the text is changed by a parenthesis behind it. -/
theorem local_modify {f : State → State} (hrest : ∀ s, (f s).rest = s.rest)
    (henc : ∀ s, f s.enclosed = (f s).enclosed) : Local 0 (modify f : Reader Unit) :=
  local_of_apply (fun _ => rfl) (fun s => hrest s ▸ List.suffix_rfl) fun s => .inr (henc s)

theorem local_openGroup (name : Option String) : Local 0 (openGroup name) := by
  refine .get_seq (fun _ => rfl) fun s => ?_
  extract_lets index
  split
  · refine .seq (local_modify ?_ ?_) fun _ => local_pure _
    · exact fun _ => rfl
    · exact fun _ => rfl
  · refine .get_seq (fun _ => rfl) fun s => ?_
    extract_lets goOn
    have hgo : ∀ x, Local 0 (goOn x) := by
      refine fun _ => .seq (local_modify ?_ ?_) fun _ => local_pure _
      · exact fun _ => rfl
      · exact fun _ => rfl
    split
    · exact local_refuse.seq hgo
    · exact hgo ()

theorem local_takeOne (texts : List String) : Local 0 (takeOne texts) := by
  induction texts with
  | nil => exact local_pure false
  | cons text texts ih =>
    refine (local_take text).seq fun taken => ?_
    split
    · exact local_pure true
    · exact ih

/-- What comes next without the parenthesis comes next with it too. -/
theorem local_refuseAt (marks : List String) : Local 0 (refuseAt marks) := by
  let found (cs : List Char) : Bool := marks.any fun mark => (dropPrefix? mark.toList cs).isSome
  have hfound : ∀ cs, found cs = true → found (cs ++ [')']) = true := by
    simp only [found, List.any_eq_true, Option.isSome_iff_exists]
    rintro cs ⟨mark, hmark, rest, hrest⟩
    refine ⟨mark, hmark, rest ++ [')'], ?_⟩
    rw [dropPrefix?_eq_some_iff] at hrest ⊢
    rw [hrest, List.append_assoc]
  have hagrees : ∀ k cs cs', (found cs' = true → found cs = true) →
      Agrees 0 k (if found cs then refuse else pure () : Reader Unit)
        (if found cs' then refuse else pure ()) :=
    fun k cs cs' h => .refuse_if h (agrees_pure ())
  -- The parenthesis may complete a mark, but then the enclosed text is refused.
  show Local 0 (get >>= fun s => if found s.rest then refuse else pure ())
  exact fun k => .get_bind (fun s => (hagrees k s.rest s.rest id).takes) fun s hs =>
    (hagrees k _ s.rest (hfound s.rest)).blind s hs

theorem agrees_groupBody_succ {N M : Nat} (h : Agrees 0 k (alternatives N) (alternatives M))
    (outer : Flags) (index : Option Nat) :
    Agrees 1 k (groupBody (N + 1) outer index) (groupBody (M + 1) outer index) := by
  rw [groupBody.eq_2, groupBody.eq_2]
  refine h.seq fun p => (local_peek? k).seq fun c => ?_
  extract_lets closing
  have hclosing : ∀ x, Local 1 (closing x) := by
    refine fun _ => local_next.step fun _ => .seq (local_modify ?_ ?_) fun _ => ?_
    · exact fun _ => rfl
    · exact fun _ => rfl
    · split
      · exact local_pure _
      · exact local_pure _
  split
  · exact local_refuse.seq hclosing k
  · exact hclosing () k

theorem agrees_group_succ {N M : Nat}
    (h : ∀ outer index, Agrees 0 (k - 1) (groupBody N outer index) (groupBody M outer index)) :
    Agrees 1 k (group (N + 1)) (group (M + 1)) := by
  rw [group.eq_2, group.eq_2]
  refine (local_nextThenBlanks k).step fun _ => .get_seq (fun _ => rfl) fun s => ?_
  extract_lets outer
  refine (local_refuseAt _ _).seq fun _ => (local_takeOne _ _).seq fun named => ?_
  split
  · exact ((local_groupName _).mono (Nat.zero_le 1) (Nat.le_refl _)).seq fun name =>
      (local_openGroup _ _).seq fun index => h _ _
  · refine (local_take "?" _).seq fun flagged => ?_
    split
    · have hflags := local_get_length fun N M k hN hM => agrees_flagLetters N M k hN hM [] outer
      refine hflags.get_bind fun flags => .seq (local_modify ?_ ?_ _) fun _ => ?_
      · exact fun _ => rfl
      · exact fun _ => rfl
      · refine ((local_next _).mono (Nat.zero_le 1) (Nat.le_refl _)).seq fun c => ?_
        split
        · exact agrees_pure _
        · exact h _ _
    · exact (local_openGroup _ _).seq fun index => h _ _

theorem agrees_pieces_succ {N M : Nat} (hg : Agrees 1 k (group N) (group M))
    (h : ∀ before, Agrees 0 (k - 1) (pieces N before) (pieces M before)) (before : List Piece) :
    Agrees 0 k (pieces (N + 1) before) (pieces (M + 1) before) := by
  unfold pieces
  dsimp only
  -- The pieces end with the text or at a sign, or a group, a class, a repetition or a primitive comes next.
  refine (local_blanks k).seq fun _ => (local_peek? k).seq fun c => ?_
  split
  · exact agrees_pure _
  · split
    · exact agrees_pure _
    · split
      · exact (hg.step fun p => h (p :: before)).mono (Nat.zero_le 1) (Nat.le_refl k)
      · split
        · exact (local_bracketClass.get_bind fun set => h _).mono (Nat.zero_le 1) (Nat.le_refl k)
        · split
          · split
            · exact agrees_refuse _
            · exact ((local_repetition _ k).step fun p => h _).mono (Nat.zero_le 1) (Nat.le_refl k)
          · exact ((local_primitive k).step fun node => h _).mono (Nat.zero_le 1) (Nat.le_refl k)

theorem agrees_alternatives_succ {N M : Nat} (hp : Agrees 0 k (pieces N []) (pieces M []))
    (h : Agrees 0 (k - 1) (moreAlternatives N) (moreAlternatives M)) :
    Agrees 0 k (alternatives (N + 1)) (alternatives (M + 1)) ∧
      Agrees 0 k (moreAlternatives (N + 1)) (moreAlternatives (M + 1)) := by
  rw [alternatives.eq_2, alternatives.eq_2, moreAlternatives.eq_2, moreAlternatives.eq_2]
  constructor
  all_goals
    refine hp.seq fun first => (local_peek? k).seq fun c => ?_
    split
    · exact ((local_next k).step fun _ => h.seq fun rest => agrees_pure _).mono (Nat.zero_le 1)
        (Nat.le_refl k)
    · exact agrees_pure _

/-- Whatever the fuel, a pattern is taken from the front of the text, and a group takes its parentheses. -/
theorem takes_alternatives (N : Nat) :
    (Takes 0 (alternatives N) ∧ Takes 0 (moreAlternatives N)) ∧ (∀ before, Takes 0 (pieces N before)) ∧
      Takes 1 (group N) ∧ ∀ outer index, Takes 0 (groupBody N outer index) := by
  induction N with
  | zero =>
    have hrefuse : ∀ {n}, Takes n (refuse : Reader Piece) := (agrees_refuse (k := 0) refuse).takes
    exact ⟨⟨hrefuse, hrefuse⟩, fun _ => hrefuse, hrefuse, fun _ _ => hrefuse⟩
  | succ N ih =>
    obtain ⟨⟨ha, hm⟩, hp, hg, hb⟩ := ih
    have halt := agrees_alternatives_succ (N := N) (M := N) (.of_zero (hp [])) (.of_zero hm)
    exact ⟨⟨halt.1.takes, halt.2.takes⟩,
      fun before => (agrees_pieces_succ (M := N) (.of_zero hg) (fun b => .of_zero (hp b)) before).takes,
      (agrees_group_succ (k := 0) (M := N) fun outer index => .of_zero (hb outer index)).takes,
      fun outer index =>
        (agrees_groupBody_succ (M := N) (.of_zero ha) outer index).takes.mono (Nat.zero_le 1)⟩

/-- A pattern takes four units of fuel for each character: one for a piece, and three more from there to
the pieces of the group that it may be. -/
theorem agrees_alternatives (N : Nat) :
    (∀ M k, 4 * k + 1 ≤ N → 4 * k + 1 ≤ M → Agrees 0 k (alternatives N) (alternatives M) ∧
      Agrees 0 k (moreAlternatives N) (moreAlternatives M)) ∧
    (∀ M k, 4 * k ≤ N → 4 * k ≤ M → ∀ before, Agrees 0 k (pieces N before) (pieces M before)) ∧
    (∀ M k, 4 * k ≤ N + 1 → 4 * k ≤ M + 1 → Agrees 1 k (group N) (group M)) ∧
    ∀ M k, 4 * k + 2 ≤ N → 4 * k + 2 ≤ M →
      ∀ outer index, Agrees 0 k (groupBody N outer index) (groupBody M outer index) := by
  -- on the fuel of the left side, with all four readers at once, as each calls another on less
  induction N with
  | zero =>
    refine ⟨fun M k hN _ => absurd hN (by omega), fun M k hN _ before => ?_, fun M k hN _ => ?_,
      fun M k hN _ => absurd hN (by omega)⟩
    · obtain rfl : k = 0 := by omega
      exact .of_zero ((takes_alternatives 0).2.1 before)
    · obtain rfl : k = 0 := by omega
      exact .of_zero (takes_alternatives 0).2.2.1
  | succ N ih =>
    obtain ⟨ha, hp, hg, hb⟩ := ih
    obtain ⟨⟨-, hm'⟩, hp', -, hb'⟩ := takes_alternatives N
    refine ⟨fun M k hN hM => ?_, fun M k hN hM before => ?_, fun M k hN hM => ?_,
      fun M k hN hM outer index => ?_⟩
    · obtain ⟨M, rfl⟩ : ∃ M', M = M' + 1 := ⟨M - 1, by omega⟩
      refine agrees_alternatives_succ (hp M k (by omega) (by omega) []) ?_
      cases k with
      | zero => exact .of_zero hm'
      | succ k => exact (ha M k (by omega) (by omega)).2
    · cases k with
      | zero => exact .of_zero ((takes_alternatives (N + 1)).2.1 before)
      | succ k =>
        obtain ⟨M, rfl⟩ : ∃ M', M = M' + 1 := ⟨M - 1, by omega⟩
        exact agrees_pieces_succ (hg M (k + 1) (by omega) (by omega)) (hp M k (by omega) (by omega)) before
    · cases k with
      | zero => exact .of_zero (takes_alternatives (N + 1)).2.2.1
      | succ k =>
        obtain ⟨M, rfl⟩ : ∃ M', M = M' + 1 := ⟨M - 1, by omega⟩
        exact agrees_group_succ (hb M k (by omega) (by omega))
    · obtain ⟨M, rfl⟩ : ∃ M', M = M' + 1 := ⟨M - 1, by omega⟩
      exact (agrees_groupBody_succ (ha M k (by omega) (by omega)).1 outer index).mono (Nat.zero_le 1)
        (Nat.le_refl k)

end Conformance.Regex
