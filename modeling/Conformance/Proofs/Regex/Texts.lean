import Conformance.Proofs.Regex.Search
import Mathlib.Computability.Language

/-!
# Texts that a pattern takes

A pattern that looks at nothing but the characters it takes is a language (`Node.Reads`), put together as the pattern
is. Bound to the start of a text, it matches a front of the text that is in the language; if no text of the language is
the front of another one, there is at most one such front (`Program.find?_bound_iff`).
-/
namespace Conformance.Regex

open Text

/-! ## Languages -/

/-- The texts of one character that has the property. -/
def oneOf (p : Char → Bool) : Language Char := {t | ∃ c, t = [c] ∧ p c = true}

/-- The texts of characters that have the property, of at least `min` and at most `max` of them. -/
def runsOf (p : Char → Bool) (min : Nat) (max : Option Nat) : Language Char :=
  {t | (∀ c ∈ t, p c = true) ∧ min ≤ t.length ∧ ∀ m ∈ max, t.length ≤ m}

/-- One of these words. -/
def anyOf (words : List (List Char)) : Language Char := {t | t ∈ words}

/-- No text of the language is the front of another one. -/
def PrefixFree (L : Language Char) : Prop := ∀ t ∈ L, ∀ u ∈ L, t <+: u → t = u

/-- Every text of the language begins with a character that has the property. -/
def BeginsWith (p : Char → Bool) (L : Language Char) : Prop := ∀ t ∈ L, ∃ c r, t = c :: r ∧ p c = true

section Languages

variable {p : Char → Bool} {L M : Language Char}

/-- A text has at most one front in the language. -/
theorem PrefixFree.eq_of_append (h : PrefixFree L) {t u r r' : List Char} (ht : t ∈ L) (hu : u ∈ L)
    (heq : t ++ r = u ++ r') : t = u := by
  rcases List.prefix_or_prefix_of_prefix (List.prefix_append t r) (heq ▸ List.prefix_append u r') with hle | hle
  · exact h t ht u hu hle
  · exact (h u hu t ht hle).symm

theorem PrefixFree.eq_of_prefix (h : PrefixFree L) {t u cs : List Char} (ht : t ∈ L) (hu : u ∈ L) (htcs : t <+: cs)
    (hucs : u <+: cs) : t = u := by
  obtain ⟨r, rfl⟩ := htcs
  obtain ⟨r', heq⟩ := hucs
  exact h.eq_of_append ht hu heq.symm

theorem prefixFree_of_length {n : Nat} (h : ∀ t ∈ L, t.length = n) : PrefixFree L :=
  fun t ht u hu hle => hle.eq_of_length ((h t ht).trans (h u hu).symm)

theorem prefixFree_anyOf {words : List (List Char)} (h : ∀ t ∈ words, ∀ u ∈ words, t <+: u → t = u) :
    PrefixFree (anyOf words) := h

theorem prefixFree_singleton (w : List Char) : PrefixFree {w} := fun _ ht _ hu _ => ht.trans hu.symm

theorem PrefixFree.mul (hL : PrefixFree L) (hM : PrefixFree M) : PrefixFree (L * M) := by
  rintro _ ⟨x, hx, y, hy, rfl⟩ _ ⟨x', hx', y', hy', rfl⟩ ⟨r, heq⟩
  dsimp only at heq ⊢
  rw [List.append_assoc] at heq
  obtain rfl := hL.eq_of_append hx hx' heq
  have hrest : y ++ r = y' ++ [] := by simpa using heq
  rw [hM.eq_of_append hy hy' hrest]

theorem beginsWith_anyOf {words : List (List Char)} (h : ∀ t ∈ words, t.head?.any p = true) :
    BeginsWith p (anyOf words) := by
  intro t ht
  obtain ⟨c, hhead, hc⟩ := (Option.any_eq_true _ _).1 (h t ht)
  obtain ⟨r, rfl⟩ := List.head?_eq_some_iff.1 hhead
  exact ⟨c, r, rfl, hc⟩

theorem beginsWith_singleton {w : List Char} (h : w.head?.any p = true) : BeginsWith p {w} := by
  intro t ht
  obtain rfl : t = w := ht
  exact beginsWith_anyOf (List.forall_mem_singleton.2 h) t (List.mem_singleton_self t)

theorem BeginsWith.add (hL : BeginsWith p L) (hM : BeginsWith p M) : BeginsWith p (L + M) := by
  rintro t (ht | ht)
  · exact hL t ht
  · exact hM t ht

theorem BeginsWith.mul (h : BeginsWith p L) : BeginsWith p (L * M) := by
  rintro _ ⟨x, hx, y, hy, rfl⟩
  obtain ⟨c, r, rfl, hc⟩ := h x hx
  exact ⟨c, r ++ y, rfl, hc⟩

theorem BeginsWith.mono {q : Char → Bool} (h : BeginsWith p L) (hpq : ∀ c, p c = true → q c = true) :
    BeginsWith q L := by
  intro t ht
  obtain ⟨c, r, rfl, hc⟩ := h t ht
  exact ⟨c, r, rfl, hpq c hc⟩

theorem beginsWith_runsOf {min : Nat} (hmin : 0 < min) (max : Option Nat) : BeginsWith p (runsOf p min max) := by
  rintro t ⟨hp, hlength, -⟩
  cases t with
  | nil => exact absurd (Nat.lt_of_lt_of_le hmin hlength) (Nat.not_lt_zero 0)
  | cons c r => exact ⟨c, r, rfl, hp c List.mem_cons_self⟩

/-- A run ends where a character stands that it cannot hold. -/
theorem takeWhile_run {x y : List Char} (hx : ∀ c ∈ x, p c = true) (hy : ∃ c r, y = c :: r ∧ (!p c) = true) :
    (x ++ y).takeWhile p = x := by
  obtain ⟨c, r, rfl, hc⟩ := hy
  rw [List.takeWhile_append_of_pos hx, List.takeWhile_cons_of_neg (by simpa using hc), List.append_nil]

theorem PrefixFree.run_mul (hM : PrefixFree M) (hbegins : BeginsWith (!p ·) M) {min : Nat} {max : Option Nat} :
    PrefixFree (runsOf p min max * M) := by
  rintro _ ⟨x, hx, y, hy, rfl⟩ _ ⟨x', hx', y', hy', rfl⟩ ⟨r, heq⟩
  dsimp only at heq ⊢
  have hbehind : ∃ c r', y ++ r = c :: r' ∧ (!p c) = true := by
    obtain ⟨c, r', rfl, hc⟩ := hbegins y hy
    exact ⟨c, r' ++ r, rfl, hc⟩
  have hrun : x = x' := by
    rw [← takeWhile_run hx.1 hbehind, ← takeWhile_run hx'.1 (hbegins y' hy'), ← List.append_assoc, heq]
  subst hrun
  rw [List.append_assoc, List.append_cancel_left_eq] at heq
  rw [hM y hy y' hy' ⟨r, heq⟩]

theorem PrefixFree.add (hL : PrefixFree L) (hM : PrefixFree M) (hbeginsL : BeginsWith p L)
    (hbeginsM : BeginsWith (!p ·) M) : PrefixFree (L + M) := by
  -- the first characters tell the two languages apart
  have hapart : ∀ t ∈ L, ∀ u ∈ M, t.head? ≠ u.head? := by
    intro t ht u hu hhead
    obtain ⟨c, r, rfl, hc⟩ := hbeginsL t ht
    obtain ⟨d, r', rfl, hd⟩ := hbeginsM u hu
    obtain rfl : c = d := Option.some.inj hhead
    have hnot : (!p c) = true := hd
    rw [hc] at hnot
    cases hnot
  have hhead : ∀ {t u : List Char}, t ≠ [] → t <+: u → t.head? = u.head? := by
    rintro t u hne ⟨r, rfl⟩
    rw [List.head?_append_of_ne_nil t hne]
  have hneL : ∀ t ∈ L, t ≠ [] := by
    intro t ht
    obtain ⟨c, r, rfl, -⟩ := hbeginsL t ht
    exact List.cons_ne_nil c r
  have hneM : ∀ t ∈ M, t ≠ [] := by
    intro t ht
    obtain ⟨c, r, rfl, -⟩ := hbeginsM t ht
    exact List.cons_ne_nil c r
  rintro t (ht | ht) u (hu | hu) hle
  · exact hL t ht u hu hle
  · exact absurd (hhead (hneL t ht) hle) (hapart t ht u hu)
  · exact absurd (hhead (hneM t ht) hle).symm (hapart u hu t ht)
  · exact hM t ht u hu hle

end Languages

/-! ## Patterns -/

/-- The pattern leads over the texts of the language, and over no others. -/
def Node.Reads (a : Node) (L : Language Char) : Prop :=
  ∀ p q, a.Leads p q ↔ ∃ t ∈ L, p.rest = t ++ q.rest ∧ q = p.past t q.rest

/-- A word as a pattern, with another pattern behind it. -/
def Node.spelled : List Char → Node → Node
  | [], a => a
  | c :: r, a => .cat (.set (.single c)) (spelled r a)

/-- A word as a pattern. -/
def Node.literal : List Char → Node
  | [] => .empty
  | [c] => .set (.single c)
  | c :: d :: r => .cat (.set (.single c)) (literal (d :: r))

/-- These words as alternatives, with another pattern behind them. -/
def Node.choices : List (List Char) → Node → Node
  | [], a => a
  | w :: r, a => .alt (.literal w) (choices r a)

section Reads

variable {a b : Node} {L M : Language Char}

theorem Node.reads_empty : Node.empty.Reads {[]} := by
  intro p q
  constructor
  · rintro rfl
    exact ⟨[], rfl, rfl, rfl⟩
  · rintro ⟨t, rfl, hrest, hq⟩
    rw [List.nil_append] at hrest
    rw [hq, ← hrest]
    exact p.past_nil.symm

theorem Node.reads_set {s : CharSet} {p : Char → Bool} (hs : ∀ c : Char, s.contains c.toNat = p c) :
    (Node.set s).Reads (oneOf p) := by
  intro x y
  constructor
  · rintro ⟨c, r, hrest, hc, rfl⟩
    exact ⟨[c], ⟨c, rfl, (hs c).symm.trans hc⟩, hrest, rfl⟩
  · rintro ⟨_, ⟨c, rfl, hc⟩, hrest, hy⟩
    exact ⟨c, y.rest, hrest, (hs c).trans hc, hy⟩

theorem Node.Reads.cat (ha : a.Reads L) (hb : b.Reads M) : (Node.cat a b).Reads (L * M) := by
  intro p q
  constructor
  · rintro ⟨m, hpm, hmq⟩
    obtain ⟨t, ht, hrest, hm⟩ := (ha p m).1 hpm
    obtain ⟨u, hu, hrest', hq⟩ := (hb m q).1 hmq
    refine ⟨t ++ u, Language.append_mem_mul ht hu, ?_, ?_⟩
    · rw [hrest, hrest', List.append_assoc]
    · rw [hq, hm, Place.past_append]
      rfl
  · rintro ⟨_, ⟨t, ht, u, hu, rfl⟩, hrest, hq⟩
    dsimp only at hrest hq
    rw [List.append_assoc] at hrest
    refine ⟨p.past t (u ++ q.rest), (ha _ _).2 ⟨t, ht, hrest, rfl⟩, (hb _ _).2 ⟨u, hu, rfl, ?_⟩⟩
    rw [hq, Place.past_append]
    rfl

theorem Node.Reads.alt (ha : a.Reads L) (hb : b.Reads M) : (Node.alt a b).Reads (L + M) := by
  intro p q
  constructor
  · rintro (h | h)
    · obtain ⟨t, ht, hrest⟩ := (ha p q).1 h
      exact ⟨t, .inl ht, hrest⟩
    · obtain ⟨t, ht, hrest⟩ := (hb p q).1 h
      exact ⟨t, .inr ht, hrest⟩
  · rintro ⟨t, ht | ht, hrest⟩
    · exact .inl ((ha p q).2 ⟨t, ht, hrest⟩)
    · exact .inr ((hb p q).2 ⟨t, ht, hrest⟩)

/-- A repetition of a character is a run. -/
theorem Node.reads_repeat {s : CharSet} {p : Char → Bool} (hs : ∀ c : Char, s.contains c.toNat = p c) (min : Nat)
    (max : Option Nat) (greedy : Bool) : (Node.repeat min max greedy (.set s)).Reads (runsOf p min max) := by
  -- each round takes one character, so rounds are counted by the length of the text
  have hrounds : ∀ n x y, Rounds (Node.set s).Leads n x y ↔
      ∃ t, (∀ c ∈ t, p c = true) ∧ t.length = n ∧ x.rest = t ++ y.rest ∧ y = x.past t y.rest := by
    intro n x y
    induction n generalizing x with
    | zero =>
      refine (Node.reads_empty x y).trans ?_
      constructor
      · rintro ⟨t, rfl, hrest, hy⟩
        exact ⟨[], fun c hc => absurd hc List.not_mem_nil, rfl, hrest, hy⟩
      · rintro ⟨t, -, hlength, hrest, hy⟩
        obtain rfl := List.eq_nil_of_length_eq_zero hlength
        exact ⟨[], rfl, hrest, hy⟩
    | succ n ih =>
      constructor
      · rintro ⟨m, hm, h⟩
        obtain ⟨c, r, hrest, hc, rfl⟩ := hm
        obtain ⟨t, ht, hlength, hrest', hy⟩ := (ih _).1 h
        refine ⟨c :: t, List.forall_mem_cons.2 ⟨(hs c).symm.trans hc, ht⟩, congrArg (· + 1) hlength, ?_, ?_⟩
        · rw [hrest, List.cons_append, ← hrest']
          rfl
        · rw [hy, Place.past_append]
          rfl
      · rintro ⟨t, ht, hlength, hrest, hy⟩
        cases t with
        | nil => cases hlength
        | cons c r =>
          obtain ⟨hc, hr⟩ := List.forall_mem_cons.1 ht
          refine ⟨x.past [c] (r ++ y.rest), ⟨c, r ++ y.rest, hrest, (hs c).trans hc, rfl⟩,
            (ih _).2 ⟨r, hr, Nat.succ.inj hlength, rfl, ?_⟩⟩
          rw [hy, Place.past_append]
          rfl
  intro x y
  constructor
  · rintro ⟨n, hmin, hmax, h⟩
    obtain ⟨t, ht, rfl, hrest⟩ := (hrounds n x y).1 h
    exact ⟨t, ⟨ht, hmin, hmax⟩, hrest⟩
  · rintro ⟨t, ⟨ht, hmin, hmax⟩, hrest⟩
    exact ⟨t.length, hmin, hmax, (hrounds _ x y).2 ⟨t, ht, rfl, hrest⟩⟩

theorem CharSet.contains_single (c d : Char) : (CharSet.single c).contains d.toNat = decide (d = c) := by
  rw [CharSet.single, CharSet.contains, Bool.eq_iff_iff, Bool.and_eq_true, decide_eq_true_iff, decide_eq_true_iff,
    decide_eq_true_iff]
  constructor
  · rintro ⟨hle, hge⟩
    exact Char.toNat_inj.1 (Nat.le_antisymm hge hle)
  · rintro rfl
    exact ⟨Nat.le_refl _, Nat.le_refl _⟩

theorem Node.reads_single (c : Char) : (Node.set (.single c)).Reads {[c]} := by
  have hone : oneOf (fun d => decide (d = c)) = {[c]} := by
    ext t
    constructor
    · rintro ⟨d, rfl, hd⟩
      exact congrArg (fun d => [d]) (of_decide_eq_true hd)
    · rintro rfl
      exact ⟨c, rfl, decide_eq_true rfl⟩
  exact hone ▸ Node.reads_set (CharSet.contains_single c)

theorem singleton_mul_singleton (u v : List Char) : ({u} * {v} : Language Char) = {u ++ v} :=
  Set.image2_singleton

theorem Node.Reads.spelled (ha : a.Reads L) (w : List Char) : (Node.spelled w a).Reads ({w} * L) := by
  induction w with
  | nil =>
    rw [show ({[]} * L : Language Char) = L from one_mul L]
    exact ha
  | cons c r ih =>
    have hcons : ({c :: r} * L : Language Char) = {[c]} * ({r} * L) := by
      rw [← mul_assoc, singleton_mul_singleton]
      rfl
    exact hcons ▸ (Node.reads_single c).cat ih

theorem Node.reads_literal (w : List Char) : (Node.literal w).Reads {w} := by
  induction w using Node.literal.induct with
  | case1 => exact Node.reads_empty
  | case2 c => exact Node.reads_single c
  | case3 c d r ih =>
    have hcons : ({c :: d :: r} : Language Char) = {[c]} * {d :: r} := (singleton_mul_singleton [c] (d :: r)).symm
    exact hcons ▸ (Node.reads_single c).cat ih

theorem Node.Reads.choices (ha : a.Reads L) (words : List (List Char)) :
    (Node.choices words a).Reads (anyOf words + L) := by
  induction words with
  | nil =>
    have hnone : anyOf [] + L = L := by
      rw [show anyOf [] = 0 from Set.eq_empty_of_forall_notMem fun t ht => absurd ht List.not_mem_nil, zero_add]
    rw [hnone]
    exact ha
  | cons w r ih =>
    have hcons : anyOf (w :: r) = {w} + anyOf r := by
      ext t
      exact List.mem_cons
    rw [hcons, add_assoc]
    exact (Node.reads_literal w).alt ih

end Reads

/-! ## Matches -/

theorem placeIn_length (t r : List Char) : placeIn (t ++ r) t.length = (placeIn (t ++ r) 0).past t r := by
  simp [placeIn, Place.past]

/-- From the start of a text, a pattern bound to it leads over the fronts that are in its language. -/
theorem Node.leads_bound_iff {a : Node} {L : Language Char} (ha : a.Reads L) {cs : List Char} {start finish : Nat}
    (hle : start ≤ finish) (hlength : finish ≤ cs.length) :
    (Node.cat (.look .start) a).Leads (placeIn cs start) (placeIn cs finish) ↔
      start = 0 ∧ ∃ t ∈ L, t <+: cs ∧ t.length = finish := by
  constructor
  · rintro ⟨_, ⟨hlook, rfl⟩, hleads⟩
    obtain rfl := start_eq_zero hle hlength hlook
    obtain ⟨t, ht, hrest, hplace⟩ := (ha _ _).1 hleads
    have hindex : finish = 0 + t.length := congrArg Place.index hplace
    exact ⟨rfl, t, ht, ⟨_, hrest.symm⟩, by omega⟩
  · rintro ⟨rfl, t, ht, ⟨r, rfl⟩, rfl⟩
    refine ⟨_, ⟨rfl, rfl⟩, (ha _ _).2 ⟨t, ht, ?_, ?_⟩⟩
    · rw [placeIn_length]
      rfl
    · rw [placeIn_length]
      rfl

/-- Bound to the start, a pattern matches a front of the text that is in its language, if there is one. -/
theorem Program.find?_bound {a : Node} {L : Language Char} (horder : a.inOrder = true) (ha : a.Reads L)
    (hfree : PrefixFree L) (cs : List Char) :
    (∀ t ∈ L, t <+: cs → (ofNode (.cat (.look .start) a) []).find? cs = some ⟨t, []⟩) ∧
      ((∀ t ∈ L, ¬ t <+: cs) → (ofNode (.cat (.look .start) a) []).find? cs = none) := by
  have horder' : (Node.cat (.look .start) a).inOrder = true := horder
  -- bound to the start, whatever is found is a front of the text
  have hsound : ∀ m, (ofNode (.cat (.look .start) a) []).find? cs = some m → m.text ∈ L ∧ m.text <+: cs := by
    intro m hm
    obtain ⟨start, finish, hle, hlength, htext, hleads⟩ := find?_sound horder' [] hm
    obtain ⟨rfl, t, ht, ⟨r, rfl⟩, rfl⟩ := (Node.leads_bound_iff ha hle hlength).1 hleads
    rw [slice, List.drop_zero, Nat.sub_zero, List.take_left] at htext
    rw [htext]
    exact ⟨ht, List.prefix_append t r⟩
  constructor
  · intro t ht htcs
    cases hfound : (ofNode (.cat (.look .start) a) []).find? cs with
    | none =>
      refine absurd ?_ (find?_complete horder' [] hfound (Nat.zero_le t.length) htcs.length_le)
      exact (Node.leads_bound_iff ha (Nat.zero_le _) htcs.length_le).2 ⟨rfl, t, ht, htcs, rfl⟩
    | some m =>
      obtain ⟨hm, hmcs⟩ := hsound m hfound
      have htext := hfree.eq_of_prefix hm ht hmcs htcs
      obtain ⟨found, -, hgroups⟩ := Option.bind_eq_some_iff.1 hfound
      obtain rfl := Option.some.inj hgroups
      exact congrArg (fun text => some (⟨text, []⟩ : Match)) htext
  · intro hnone
    cases hfound : (ofNode (.cat (.look .start) a) []).find? cs with
    | none => rfl
    | some m =>
      obtain ⟨hm, hmcs⟩ := hsound m hfound
      exact absurd hmcs (hnone _ hm)

end Conformance.Regex
