import Conformance.Proofs.Expr.Evaluation

/-!
# Integer arithmetic

An expression over integers has its exact value, or an error. The exact value is that over unbounded integers, where
quotients are rounded toward zero (`Tree.value?`). The error is that of the first part that breaks (`FirstBreak`) in the
order of evaluation (`Tree.parts`): a part whose divisor is zero, whose exact value is no 64-bit integer, or that is the
remainder of the least integer by minus one (`Breaks`).

Each operator breaks where the operation on 64-bit integers has a problem (`applyInts_eq_error_iff`), and gives the exact
value where it has none (`applyInts_eq_ok`). An expression follows by induction on its operands (`exactOrBroken`).
-/
namespace Conformance.Expr

open Text

variable {a b n : Int} {p p' : Problem} {e l r : Tree} {o : Binary} {ps qs : List Tree}

/-! ## The range of the integers -/

/-- The integer has 64 bits and a sign. -/
def InRange (n : Int) : Prop := Int64.minValue.toInt ≤ n ∧ n ≤ Int64.maxValue.toInt

instance (n : Int) : Decidable (InRange n) := inferInstanceAs (Decidable (_ ∧ _))

theorem inRange_iff : InRange n ↔ -9223372036854775808 ≤ n ∧ n < 9223372036854775808 :=
  and_congr_right' Int.le_iff_lt_add_one

theorem inRange_toInt (i : Int64) : InRange i.toInt := inRange_iff.2 ⟨i.le_toInt, i.toInt_lt⟩

theorem int64?_of_inRange (h : InRange n) : int64? n = some (Int64.ofInt n) := if_pos (inRange_iff.1 h)

theorem int64?_of_not_inRange (h : ¬ InRange n) : int64? n = none := if_neg fun hn => h (inRange_iff.2 hn)

theorem checked_eq_ok {v : Value} (h : checked n = .ok v) : ∃ i : Int64, v = .int i ∧ i.toInt = n := by
  by_cases hn : InRange n
  · rw [checked, int64?_of_inRange hn] at h
    obtain ⟨hlow, hhigh⟩ := inRange_iff.1 hn
    exact ⟨Int64.ofInt n, (Except.ok.inj h).symm, Int64.toInt_ofInt_of_le hlow hhigh⟩
  · rw [checked, int64?_of_not_inRange hn] at h
    cases h

theorem checked_eq_error_iff : checked n = .error p ↔ p = .overflow ∧ ¬ InRange n := by
  by_cases hn : InRange n
  · rw [checked, int64?_of_inRange hn]
    simp [hn]
  · rw [checked, int64?_of_not_inRange hn]
    simp [hn, eq_comm]

/-- A quotient is out of range in one case only. -/
theorem inRange_tdiv_iff (ha : InRange a) (hb : b ≠ 0) :
    InRange (a.tdiv b) ↔ ¬ (a = Int64.minValue.toInt ∧ b = -1) := by
  rw [inRange_iff] at ha ⊢
  rw [show Int64.minValue.toInt = -9223372036854775808 from rfl]
  have habs : (a.tdiv b).natAbs = a.natAbs / b.natAbs := Int.natAbs_tdiv a b
  by_cases hunit : b.natAbs = 1
  · obtain rfl | rfl : b = 1 ∨ b = -1 := Int.natAbs_eq_iff.1 hunit
    · rw [Int.tdiv_one]
      omega
    · rw [Int.tdiv_neg, Int.tdiv_one]
      omega
  · have hhalf : a.natAbs / b.natAbs ≤ a.natAbs / 2 := Nat.div_le_div_left (by omega) (by decide)
    omega

/-- A remainder lies between zero and the dividend. -/
theorem tmod_between (a b : Int) : 0 ≤ a.tmod b ∧ a.tmod b ≤ a ∨ a ≤ a.tmod b ∧ a.tmod b ≤ 0 := by
  have habs : (a.tmod b).natAbs ≤ a.natAbs := by
    rw [Int.natAbs_tmod]
    exact Nat.mod_le _ _
  rcases Int.le_total 0 a with ha | ha
  · have hsign := Int.tmod_nonneg b ha
    omega
  · have hsign := Int.tmod_nonneg b (Int.neg_nonneg_of_nonpos ha)
    rw [Int.neg_tmod] at hsign
    omega

theorem inRange_tmod (ha : InRange a) (b : Int) : InRange (a.tmod b) := by
  rw [inRange_iff] at ha ⊢
  have hbetween := tmod_between a b
  omega

theorem inRange_tdiv_mul (ha : InRange a) (b : Int) : InRange (a.tdiv b * b) := by
  rw [inRange_iff] at ha ⊢
  have hbetween := tmod_between a b
  have hidentity := Int.tdiv_mul_add_tmod a b
  omega

/-! ## Exact values -/

/-- The exact value of an operation on unbounded integers, if there is one. Quotients are rounded toward zero. -/
def Binary.value? : Binary → Int → Int → Option Int
  | add, a, b => some (a + b)
  | sub, a, b => some (a - b)
  | mul, a, b => some (a * b)
  | div, a, b => if b = 0 then none else some (a.tdiv b)
  | rem, a, b => if b = 0 then none else some (a.tmod b)
  | eq, _, _ | ne, _, _ => none

namespace Tree

/-- The exact value of an expression over integers, if there is one. -/
def value? : Tree → Option Int
  | literal (.int n) => some n.toInt
  | sign .negate e => e.value?.map fun a => -a
  | binary o l r => l.value?.bind fun a => r.value?.bind fun b => o.value? a b
  | _ => none

/-- The expression and all within it, in the order in which they are evaluated. -/
def parts : Tree → List Tree
  | sign s e => e.parts ++ [sign s e]
  | binary o l r => l.parts ++ r.parts ++ [binary o l r]
  | e => [e]

end Tree

/-- The expression consists of integers with signs and arithmetic operators. -/
inductive Arithmetic : Tree → Prop where
  | int (n : Int64) : Arithmetic (.literal (.int n))
  | negate {e : Tree} (h : Arithmetic e) : Arithmetic (.sign .negate e)
  | binary {o : Binary} {l r : Tree} (ho : o ≠ .eq ∧ o ≠ .ne) (hl : Arithmetic l) (hr : Arithmetic r) :
    Arithmetic (.binary o l r)

/-- The outermost operation of the expression cannot be carried out on 64-bit integers. -/
inductive Breaks : Tree → Problem → Prop where
  | quotient {l r : Tree} (hr : r.value? = some 0) : Breaks (.binary .div l r) .divisionByZero
  | remainder {l r : Tree} (hr : r.value? = some 0) : Breaks (.binary .rem l r) .divisionByZero
  | range {e : Tree} {n : Int} (he : e.value? = some n) (hn : ¬ InRange n) : Breaks e .overflow
  | least {l r : Tree} (hl : l.value? = some Int64.minValue.toInt) (hr : r.value? = some (-1)) :
    Breaks (.binary .rem l r) .overflow

/-- The first of the expressions that breaks does so with this problem. -/
inductive FirstBreak : List Tree → Problem → Prop where
  | here {e : Tree} {p : Problem} (h : Breaks e p) (rest : List Tree) : FirstBreak (e :: rest) p
  | later {e : Tree} {rest : List Tree} {p : Problem} (he : ∀ p, ¬ Breaks e p) (h : FirstBreak rest p) :
    FirstBreak (e :: rest) p

/-- None of the expressions breaks. -/
def Unbroken (ps : List Tree) : Prop := ∀ part ∈ ps, ∀ p, ¬ Breaks part p

theorem value?_binary (hl : l.value? = some a) (hr : r.value? = some b) :
    (Tree.binary o l r).value? = o.value? a b := by
  rw [Tree.value?, hl, Option.bind_some, hr, Option.bind_some]

/-- There is no exact value behind a division by zero. -/
theorem value?_ne_of_zero (ho : o = .div ∨ o = .rem) (hr : r.value? = some 0) :
    (Tree.binary o l r).value? ≠ some n := by
  intro he
  obtain ⟨a, hl, he⟩ := Option.bind_eq_some_iff.1 he
  rw [hr, Option.bind_some] at he
  rcases ho with rfl | rfl <;> cases he

theorem Breaks.unique (h : Breaks e p) (h' : Breaks e p') : p = p' := by
  cases h with
  | quotient hr =>
    cases h' with
    | quotient => rfl
    | range he => exact absurd he (value?_ne_of_zero (.inl rfl) hr)
  | remainder hr =>
    cases h' with
    | remainder => rfl
    | range he => exact absurd he (value?_ne_of_zero (.inr rfl) hr)
    | least hl hr' => cases hr.symm.trans hr'
  | range he hn =>
    cases h' with
    | quotient hr => exact absurd he (value?_ne_of_zero (.inl rfl) hr)
    | remainder hr => exact absurd he (value?_ne_of_zero (.inr rfl) hr)
    | range | least => rfl
  | least hl hr =>
    cases h' with
    | remainder hr' => cases hr.symm.trans hr'
    | range | least => rfl

theorem FirstBreak.unique (h : FirstBreak ps p) (h' : FirstBreak ps p') : p = p' := by
  induction h with
  | here h rest =>
    cases h' with
    | here h' => exact h.unique h'
    | later he => exact absurd h (he _)
  | later he h ih =>
    cases h' with
    | here h' => exact absurd h' (he _)
    | later he' h' => exact ih h'

theorem FirstBreak.append (h : FirstBreak ps p) (qs : List Tree) : FirstBreak (ps ++ qs) p := by
  induction h with
  | here h rest => exact .here h (rest ++ qs)
  | later he h ih => exact .later he ih

theorem FirstBreak.behind (hps : Unbroken ps) (h : FirstBreak qs p) : FirstBreak (ps ++ qs) p := by
  induction ps with
  | nil => exact h
  | cons e ps ih =>
    obtain ⟨he, hps⟩ := List.forall_mem_cons.1 hps
    exact .later he (ih hps)

theorem FirstBreak.exists_breaks (h : FirstBreak ps p) : ∃ part ∈ ps, Breaks part p := by
  induction h with
  | here h rest => exact ⟨_, List.mem_cons_self, h⟩
  | later he h ih =>
    obtain ⟨part, hmem, hp⟩ := ih
    exact ⟨part, List.mem_cons_of_mem _ hmem, hp⟩

theorem FirstBreak.not_unbroken (h : FirstBreak ps p) : ¬ Unbroken ps := by
  obtain ⟨part, hmem, hp⟩ := h.exists_breaks
  exact fun hps => hps part hmem p hp

theorem unbroken_append : Unbroken (ps ++ qs) ↔ Unbroken ps ∧ Unbroken qs := List.forall_mem_append

theorem unbroken_singleton : Unbroken [e] ↔ ∀ p, ¬ Breaks e p := List.forall_mem_singleton

theorem unbroken_binary :
    Unbroken (Tree.binary o l r).parts ↔ (Unbroken l.parts ∧ Unbroken r.parts) ∧ ∀ p, ¬ Breaks (.binary o l r) p := by
  rw [Tree.parts, unbroken_append, unbroken_append, unbroken_singleton]

/-! ## One operation -/

theorem breaks_negate_iff (he : e.value? = some a) :
    Breaks (.sign .negate e) p ↔ p = .overflow ∧ ¬ InRange (-a) := by
  have hexact : (Tree.sign .negate e).value? = some (-a) := by rw [Tree.value?, he, Option.map_some]
  constructor
  · intro h
    cases h with
    | range he' hn =>
      obtain rfl := Option.some.inj (hexact.symm.trans he')
      exact ⟨rfl, hn⟩
  · rintro ⟨rfl, hn⟩
    exact .range hexact hn

theorem breaks_binary_iff (hl : l.value? = some a) (hr : r.value? = some b) :
    Breaks (.binary o l r) p ↔ p = .divisionByZero ∧ (o = .div ∨ o = .rem) ∧ b = 0 ∨
      p = .overflow ∧ ((∃ n, o.value? a b = some n ∧ ¬ InRange n) ∨
        o = .rem ∧ a = Int64.minValue.toInt ∧ b = -1) := by
  have hexact := value?_binary (o := o) hl hr
  constructor
  · intro h
    cases h with
    | quotient hr' => exact .inl ⟨rfl, .inl rfl, Option.some.inj (hr.symm.trans hr')⟩
    | remainder hr' => exact .inl ⟨rfl, .inr rfl, Option.some.inj (hr.symm.trans hr')⟩
    | range he hn => exact .inr ⟨rfl, .inl ⟨_, hexact.symm.trans he, hn⟩⟩
    | least hl' hr' =>
      exact .inr ⟨rfl, .inr ⟨rfl, Option.some.inj (hl.symm.trans hl'), Option.some.inj (hr.symm.trans hr')⟩⟩
  · rintro (⟨rfl, rfl | rfl, rfl⟩ | ⟨rfl, ⟨n, he, hn⟩ | ⟨rfl, rfl, rfl⟩⟩)
    · exact .quotient hr
    · exact .remainder hr
    · exact .range (hexact.trans he) hn
    · exact .least hl hr

/-- An operation with an exact value in range breaks in one case only. -/
theorem not_breaks_binary (hl : l.value? = some a) (hr : r.value? = some b) (hvalue : o.value? a b = some n)
    (hn : InRange n) (hleast : ¬ (o = .rem ∧ a = Int64.minValue.toInt ∧ b = -1)) : ¬ Breaks (.binary o l r) p := by
  rw [breaks_binary_iff hl hr]
  rintro (⟨-, rfl | rfl, rfl⟩ | ⟨-, ⟨m, hm, hrange⟩ | h⟩)
  · cases hvalue
  · cases hvalue
  · obtain rfl := Option.some.inj (hvalue.symm.trans hm)
    exact hrange hn
  · exact hleast h

theorem applySign_eq_ok {i : Int64} {v : Value} (he : e.value? = some i.toInt) (h : applySign .negate (.int i) = .ok v) :
    ∃ n : Int64, v = .int n ∧ (Tree.sign .negate e).value? = some n.toInt := by
  obtain ⟨n, rfl, hn⟩ := checked_eq_ok h
  exact ⟨n, rfl, by rw [Tree.value?, he, Option.map_some, hn]⟩

theorem applySign_eq_error_iff {i : Int64} (he : e.value? = some i.toInt) :
    applySign .negate (.int i) = .error p ↔ Breaks (.sign .negate e) p := by
  rw [breaks_negate_iff he, applySign, checked_eq_error_iff]

theorem applyBinary_ints (ho : o ≠ .eq ∧ o ≠ .ne) (i j : Int64) :
    applyBinary o (.int i) (.int j) = applyInts o i j := by
  cases o with
  | eq => exact absurd rfl ho.1
  | ne => exact absurd rfl ho.2
  | add | sub | mul | div | rem => rfl

theorem toInt_eq_zero_iff {i : Int64} : i.toInt = 0 ↔ i = 0 := by rw [← Int64.toInt_zero, Int64.toInt_inj]

theorem applyInts_eq_ok {i j : Int64} {v : Value} (ho : o ≠ .eq ∧ o ≠ .ne) (hl : l.value? = some i.toInt)
    (hr : r.value? = some j.toInt) (h : applyInts o i j = .ok v) :
    ∃ n : Int64, v = .int n ∧ (Tree.binary o l r).value? = some n.toInt := by
  rw [value?_binary hl hr]
  cases o with
  | eq => exact absurd rfl ho.1
  | ne => exact absurd rfl ho.2
  | add | sub | mul =>
    obtain ⟨n, rfl, hn⟩ := checked_eq_ok h
    exact ⟨n, rfl, congrArg some hn.symm⟩
  | div =>
    by_cases hj : j = 0
    · rw [applyInts, if_pos hj] at h
      cases h
    · rw [applyInts, if_neg hj] at h
      obtain ⟨n, rfl, hn⟩ := checked_eq_ok h
      exact ⟨n, rfl, by rw [Binary.value?, if_neg fun h => hj (toInt_eq_zero_iff.1 h), hn]⟩
  | rem =>
    by_cases hj : j = 0
    · rw [applyInts, if_pos hj] at h
      cases h
    · rw [applyInts, if_neg hj] at h
      split at h
      · cases h
      · obtain ⟨n, rfl, hn⟩ := checked_eq_ok h
        exact ⟨n, rfl, by rw [Binary.value?, if_neg fun h => hj (toInt_eq_zero_iff.1 h), hn]⟩

theorem int64?_isNone_iff : (int64? n).isNone = true ↔ ¬ InRange n := by
  by_cases hn : InRange n
  · simp [int64?_of_inRange hn, hn]
  · simp [int64?_of_not_inRange hn, hn]

/-- An operator has a problem with two integers exactly if the operation breaks. -/
theorem applyInts_eq_error_iff {i j : Int64} (ho : o ≠ .eq ∧ o ≠ .ne) (hl : l.value? = some i.toInt)
    (hr : r.value? = some j.toInt) : applyInts o i j = .error p ↔ Breaks (.binary o l r) p := by
  rw [breaks_binary_iff hl hr]
  cases o with
  | eq => exact absurd rfl ho.1
  | ne => exact absurd rfl ho.2
  | add | sub | mul => simp [applyInts, checked_eq_error_iff, Binary.value?]
  | div =>
    by_cases hj : j = 0
    · subst hj
      simp [applyInts, Binary.value?, eq_comm]
    · have hj' : j.toInt ≠ 0 := fun h => hj (toInt_eq_zero_iff.1 h)
      simp [applyInts, checked_eq_error_iff, Binary.value?, hj, hj']
  | rem =>
    by_cases hj : j = 0
    · subst hj
      simp [applyInts, Binary.value?, eq_comm]
    · have hj' : j.toInt ≠ 0 := fun h => hj (toInt_eq_zero_iff.1 h)
      have hquotient := inRange_tdiv_iff (inRange_toInt i) hj'
      have hremainder := inRange_tmod (inRange_toInt i) j.toInt
      rw [applyInts, if_neg hj]
      -- a remainder is always in range, but the quotient that goes with it is not
      by_cases hleast : i.toInt = Int64.minValue.toInt ∧ j.toInt = -1
      · rw [if_pos (int64?_isNone_iff.2 fun h => hquotient.1 h hleast)]
        simp [hleast, eq_comm]
      · rw [if_neg fun h => int64?_isNone_iff.1 h (hquotient.2 hleast), checked_eq_error_iff]
        simpa [Binary.value?, hj', hremainder] using fun _ : p = .overflow => not_and.1 hleast

/-! ## Quotient and remainder -/

/-- The expression `(l / r) * r + l % r`. -/
def Tree.recombined (l r : Tree) : Tree :=
  .binary .add (.binary .mul (.binary .div l r) r) (.binary .rem l r)

theorem value?_recombined {q m : Int} (hq : (Tree.binary .div l r).value? = some q) (hr : r.value? = some b)
    (hm : (Tree.binary .rem l r).value? = some m) : (Tree.recombined l r).value? = some (q * b + m) :=
  value?_binary (value?_binary hq hr) hm

/-- If the quotient of two integers does not break, neither does the remainder, nor what gives the dividend again. -/
theorem unbroken_recombined (hl : l.value? = some a) (hr : r.value? = some b) (ha : InRange a)
    (h : Unbroken (Tree.binary .div l r).parts) :
    Unbroken (Tree.binary .rem l r).parts ∧ Unbroken (Tree.recombined l r).parts ∧
      (Tree.recombined l r).value? = some a := by
  obtain ⟨hoperands, hbreaks⟩ := unbroken_binary.1 h
  have hb : b ≠ 0 := by
    rintro rfl
    exact hbreaks _ (.quotient hr)
  have hdiv : Binary.div.value? a b = some (a.tdiv b) := if_neg hb
  have hrem : Binary.rem.value? a b = some (a.tmod b) := if_neg hb
  have hq := (value?_binary hl hr).trans hdiv
  have hm := (value?_binary hl hr).trans hrem
  have hrange : InRange (a.tdiv b) := Decidable.byContradiction fun hn => hbreaks _ (.range hq hn)
  have hleast := (inRange_tdiv_iff ha hb).1 hrange
  have hremainder : Unbroken (Tree.binary .rem l r).parts :=
    unbroken_binary.2 ⟨hoperands, fun _ => not_breaks_binary hl hr hrem (inRange_tmod ha b) fun h => hleast h.2⟩
  have hproduct : Unbroken (Tree.binary .mul (.binary .div l r) r).parts :=
    unbroken_binary.2 ⟨⟨h, hoperands.2⟩, fun _ =>
      not_breaks_binary hq hr rfl (inRange_tdiv_mul ha b) fun h => by cases h.1⟩
  have hidentity := Int.tdiv_mul_add_tmod a b
  refine ⟨hremainder, unbroken_binary.2 ⟨⟨hproduct, hremainder⟩, fun _ => ?_⟩, ?_⟩
  · exact not_breaks_binary (value?_binary hq hr) hm rfl (hidentity.symm ▸ ha) fun h => by cases h.1
  · rw [value?_recombined hq hr hm, hidentity]

/-! ## Whole expressions -/

section Evaluation

variable {σ : Type} (host : Host σ) (env : Env) (s : σ)

/-- The expression evaluates to its exact value, and none of its parts breaks; or it fails as the first one that breaks
does. -/
inductive ExactOrBroken (e : Tree) : Prop where
  | exact (n : Int64) (hrun : (evalTree host env e).run s = .ok (.int n) s) (hvalue : e.value? = some n.toInt)
    (hparts : Unbroken e.parts)
  | broken (p : Problem) (hrun : (evalTree host env e).run s = .error p.fault s) (hparts : FirstBreak e.parts p)

variable {host env s}

/-- An operation whose operands have been evaluated. -/
theorem ExactOrBroken.of_operation {result : Except Problem Value} (hparts : e.parts = ps ++ [e])
    (hps : Unbroken ps) (hrun : (evalTree host env e).run s = (orFail result : EStateM Fault σ Value).run s)
    (hok : ∀ v, result = .ok v → ∃ n : Int64, v = .int n ∧ e.value? = some n.toInt)
    (herror : ∀ p, result = .error p ↔ Breaks e p) : ExactOrBroken host env s e := by
  cases result with
  | ok v =>
    obtain ⟨n, rfl, hvalue⟩ := hok v rfl
    refine .exact n hrun hvalue ?_
    rw [hparts, unbroken_append, unbroken_singleton]
    exact ⟨hps, fun p hp => by cases (herror p).2 hp⟩
  | error p =>
    refine .broken p hrun ?_
    rw [hparts]
    exact .behind hps (.here ((herror p).1 rfl) [])

/-- The step from the operands to the operation is that of `of_operation`; a broken operand breaks all around it. -/
theorem exactOrBroken (host : Host σ) (env : Env) (s : σ) (h : Arithmetic e) : ExactOrBroken host env s e := by
  -- by the tree: the parts are evaluated from left to right, and the first broken one ends it
  induction h with
  | int n =>
    refine .exact n (by rw [evalTree]; rfl) rfl (unbroken_singleton.2 fun p hp => ?_)
    cases hp with
    | range he hn =>
      obtain rfl := Option.some.inj he
      exact hn (inRange_toInt n)
  | @negate e h ih =>
    cases ih with
    | exact i hrun hvalue hparts =>
      refine .of_operation rfl hparts ?_ (fun v => applySign_eq_ok hvalue) fun p => applySign_eq_error_iff hvalue
      rw [evalTree, EStateM.run_bind, hrun]
    | broken p hrun hparts =>
      refine .broken p ?_ (hparts.append _)
      rw [evalTree, EStateM.run_bind, hrun]
  | @binary o l r ho hl hr ihl ihr =>
    cases ihl with
    | exact i hrun hvalue hparts =>
      cases ihr with
      | exact j hrun' hvalue' hparts' =>
        refine .of_operation rfl (unbroken_append.2 ⟨hparts, hparts'⟩) ?_ (fun v => applyInts_eq_ok ho hvalue hvalue')
          fun p => applyInts_eq_error_iff ho hvalue hvalue'
        rw [evalTree, EStateM.run_bind, hrun]
        dsimp only
        rw [EStateM.run_bind, hrun']
        dsimp only
        rw [applyBinary_ints ho]
      | broken p hrun' hparts' =>
        refine .broken p ?_ ((FirstBreak.behind hparts hparts').append _)
        rw [evalTree, EStateM.run_bind, hrun]
        dsimp only
        rw [EStateM.run_bind, hrun']
    | broken p hrun hparts =>
      refine .broken p ?_ ((hparts.append _).append _)
      rw [evalTree, EStateM.run_bind, hrun]

theorem run_eq_ok_iff (h : Arithmetic e) {v : Value} {s' : σ} :
    (evalTree host env e).run s = .ok v s' ↔
      s' = s ∧ Unbroken e.parts ∧ ∃ n : Int64, v = .int n ∧ e.value? = some n.toInt := by
  cases exactOrBroken host env s h with
  | exact n hrun hvalue hparts =>
    rw [hrun]
    constructor
    · rintro ⟨⟩
      exact ⟨rfl, hparts, n, rfl, hvalue⟩
    · rintro ⟨rfl, -, m, rfl, hm⟩
      obtain rfl := Int64.toInt.inj (Option.some.inj (hvalue.symm.trans hm))
      rfl
  | broken p hrun hparts =>
    rw [hrun]
    constructor
    · rintro ⟨⟩
    · rintro ⟨-, hsound, -⟩
      exact absurd hsound hparts.not_unbroken

theorem run_eq_error_iff (h : Arithmetic e) {f : Fault} {s' : σ} :
    (evalTree host env e).run s = .error f s' ↔ s' = s ∧ ∃ p, f = p.fault ∧ FirstBreak e.parts p := by
  cases exactOrBroken host env s h with
  | exact n hrun hvalue hparts =>
    rw [hrun]
    constructor
    · rintro ⟨⟩
    · rintro ⟨-, p, -, hp⟩
      exact absurd hparts hp.not_unbroken
  | broken p hrun hparts =>
    rw [hrun]
    constructor
    · rintro ⟨⟩
      exact ⟨rfl, p, rfl, hparts⟩
    · rintro ⟨rfl, p', rfl, hp'⟩
      rw [hparts.unique hp']

/-- An expression fails exactly if one of its parts breaks. -/
theorem run_fails_iff (h : Arithmetic e) :
    (∃ f s', (evalTree host env e).run s = .error f s') ↔ ∃ part ∈ e.parts, ∃ p, Breaks part p := by
  cases exactOrBroken host env s h with
  | exact n hrun hvalue hparts =>
    rw [hrun]
    constructor
    · rintro ⟨f, s', ⟨⟩⟩
    · rintro ⟨part, hmem, p, hp⟩
      exact absurd hp (hparts part hmem p)
  | broken p hrun hparts =>
    rw [hrun]
    obtain ⟨part, hmem, hp⟩ := hparts.exists_breaks
    exact ⟨fun _ => ⟨part, hmem, p, hp⟩, fun _ => ⟨_, _, rfl⟩⟩

theorem run_of_unbroken (host : Host σ) (env : Env) (s : σ) (h : Arithmetic e) (hparts : Unbroken e.parts) :
    ∃ n : Int64, (evalTree host env e).run s = .ok (.int n) s ∧ e.value? = some n.toInt := by
  cases exactOrBroken host env s h with
  | exact n hrun hvalue _ => exact ⟨n, hrun, hvalue⟩
  | broken p _ hbreak => exact absurd hparts hbreak.not_unbroken

/-- Where a quotient can be evaluated, so can the remainder, and both together give the dividend. -/
theorem run_quotient (hl : Arithmetic l) (hr : Arithmetic r) {v : Value} {s' : σ}
    (h : (evalTree host env (.binary .div l r)).run s = .ok v s') :
    ∃ i j q m : Int64, (evalTree host env l).run s = .ok (.int i) s ∧ (evalTree host env r).run s = .ok (.int j) s ∧
      v = .int q ∧ (evalTree host env (.binary .rem l r)).run s = .ok (.int m) s ∧
      q.toInt * j.toInt + m.toInt = i.toInt ∧ (evalTree host env (Tree.recombined l r)).run s = .ok (.int i) s := by
  have hquotient : Arithmetic (.binary .div l r) := .binary (by decide) hl hr
  have hremainder : Arithmetic (.binary .rem l r) := .binary (by decide) hl hr
  have hproduct : Arithmetic (.binary .mul (.binary .div l r) r) := .binary (by decide) hquotient hr
  obtain ⟨rfl, hparts, q, rfl, hq⟩ := (run_eq_ok_iff hquotient).1 h
  obtain ⟨⟨hpartsl, hpartsr⟩, -⟩ := unbroken_binary.1 hparts
  obtain ⟨i, hruni, hi⟩ := run_of_unbroken host env s' hl hpartsl
  obtain ⟨j, hrunj, hj⟩ := run_of_unbroken host env s' hr hpartsr
  obtain ⟨hpartsm, hpartsk, hk⟩ := unbroken_recombined hi hj (inRange_toInt i) hparts
  obtain ⟨m, hrunm, hm⟩ := run_of_unbroken host env s' hremainder hpartsm
  have hidentity : q.toInt * j.toInt + m.toInt = i.toInt :=
    Option.some.inj ((value?_recombined hq hj hm).symm.trans hk)
  refine ⟨i, j, q, m, hruni, hrunj, rfl, hrunm, hidentity, ?_⟩
  exact (run_eq_ok_iff (.binary (by decide) hproduct hremainder)).2 ⟨rfl, hpartsk, i, rfl, hk⟩

variable (host env s)

/-- Integer arithmetic is exact or an error:

* an expression has a value exactly if none of its parts breaks, and that is its exact value;
* it fails exactly if one of its parts breaks, and as the first one does;
* where a quotient has a value, so has the remainder, and both together give the dividend. -/
theorem arithmetic_exact :
    (∀ e, Arithmetic e →
      (∀ v s', (evalTree host env e).run s = .ok v s' ↔
        s' = s ∧ Unbroken e.parts ∧ ∃ n : Int64, v = .int n ∧ e.value? = some n.toInt) ∧
      (∀ f s', (evalTree host env e).run s = .error f s' ↔ s' = s ∧ ∃ p, f = p.fault ∧ FirstBreak e.parts p) ∧
      ((∃ f s', (evalTree host env e).run s = .error f s') ↔ ∃ part ∈ e.parts, ∃ p, Breaks part p)) ∧
    ∀ l r v s', Arithmetic l → Arithmetic r → (evalTree host env (.binary .div l r)).run s = .ok v s' →
      ∃ i j q m : Int64, (evalTree host env l).run s = .ok (.int i) s ∧ (evalTree host env r).run s = .ok (.int j) s ∧
        v = .int q ∧ (evalTree host env (.binary .rem l r)).run s = .ok (.int m) s ∧
        q.toInt * j.toInt + m.toInt = i.toInt ∧ (evalTree host env (Tree.recombined l r)).run s = .ok (.int i) s :=
  ⟨fun _ he => ⟨fun _ _ => run_eq_ok_iff he, fun _ _ => run_eq_error_iff he, run_fails_iff he⟩,
    fun _ _ _ _ hl hr => run_quotient hl hr⟩

end Evaluation

/-- The largest integer and one, divided by zero, overflows; minus seven is two times its quotient and its remainder. -/
theorem arithmetic_exact_overflow_first :
    let host : Host Unit := fun _ => pure []
    let largest : Tree := .literal (.int Int64.maxValue)
    let broken : Tree := .binary .div (.binary .add largest (.literal (.int 1))) (.literal (.int 0))
    let seven : Tree := .sign .negate (.literal (.int 7))
    let two : Tree := .literal (.int 2)
    Arithmetic broken ∧ (evalTree host .empty broken).run () = .error Problem.overflow.fault () ∧
    (∃ p, Problem.overflow.fault = p.fault ∧ FirstBreak broken.parts p) ∧
    Arithmetic seven ∧ Arithmetic two ∧
    (evalTree host .empty (.binary .div seven two)).run () = .ok (.int (-3)) () ∧
    ∃ i j q m : Int64, (evalTree host .empty seven).run () = .ok (.int i) () ∧
      (evalTree host .empty two).run () = .ok (.int j) () ∧ .int (-3) = Value.int q ∧
      (evalTree host .empty (.binary .rem seven two)).run () = .ok (.int m) () ∧
      q.toInt * j.toInt + m.toInt = i.toInt ∧
      (evalTree host .empty (Tree.recombined seven two)).run () = .ok (.int i) () := by
  intro host largest broken seven two
  have hbroken : Arithmetic broken := .binary (by decide) (.binary (by decide) (.int _) (.int _)) (.int _)
  have hseven : Arithmetic seven := .negate (.int 7)
  have hfails : (evalTree host .empty broken).run () = .error Problem.overflow.fault () := rfl
  have hquotient : (evalTree host .empty (.binary .div seven two)).run () = .ok (.int (-3)) () := rfl
  obtain ⟨hexpression, hdivision⟩ := arithmetic_exact host .empty ()
  obtain ⟨-, herror, -⟩ := hexpression broken hbroken
  exact ⟨hbroken, hfails, ((herror _ _).1 hfails).2, hseven, .int 2, hquotient,
    hdivision seven two _ _ hseven (.int 2) hquotient⟩

end Conformance.Expr
