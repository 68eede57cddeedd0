import Conformance.Regex.Machine
import Mathlib.Logic.Relation

/-!
# What the program of a pattern reads

A pattern leads from some places of a text to others (`Node.Leads`), and so does its program: the instructions that a
pattern is laid out as form a fragment, which is entered at the first of them and left behind the last one, exactly
from and to the places that the pattern leads from and to (`Node.fragment`).
-/
namespace Conformance.Regex

open Relation

/-! ## Places that a pattern leads to -/

/-- The place behind a text that stands at this one, when `r` is left. -/
def Place.past (p : Place) (t r : List Char) : Place := ⟨t.getLast?.or p.before, r, p.index + t.length⟩

theorem Place.past_append (p : Place) (t u r r' : List Char) : (p.past t r).past u r' = p.past (t ++ u) r' := by
  simp only [Place.past, List.getLast?_append, Option.or_assoc, List.length_append, Nat.add_assoc]

theorem Place.past_nil (p : Place) : p.past [] p.rest = p := rfl

/-- `n` rounds of a relation. -/
def Rounds (R : Place → Place → Prop) : Nat → Place → Place → Prop
  | 0 => Eq
  | n + 1 => Comp R (Rounds R n)

/-- Any number of rounds that the bounds allow. -/
def Repeats (R : Place → Place → Prop) (min : Nat) (max : Option Nat) (p q : Place) : Prop :=
  ∃ n, min ≤ n ∧ (∀ m ∈ max, n ≤ m) ∧ Rounds R n p q

/-- From the first place, the pattern matches the text up to the second one. -/
def Node.Leads : Node → Place → Place → Prop
  | empty => Eq
  | set s => fun p q => ∃ c r, p.rest = c :: r ∧ s.contains c.toNat = true ∧ q = p.past [c] r
  | look l => fun p q => l.holds p = true ∧ p = q
  | group _ a => a.Leads
  | cat a b => Comp a.Leads b.Leads
  | alt a b => fun p q => a.Leads p q ∨ b.Leads p q
  | .repeat min max _ a => Repeats a.Leads min max

/-- No repetition has an upper bound below its lower one. -/
def Node.inOrder : Node → Bool
  | empty | set _ | look _ => true
  | group _ a => a.inOrder
  | cat a b | alt a b => a.inOrder && b.inOrder
  | .repeat min max _ a => max.all (min ≤ ·) && a.inOrder

section Rounds

variable {R : Place → Place → Prop} {p q : Place}

theorem rounds_one : Rounds R 1 p q ↔ R p q := by
  rw [Rounds, Rounds, comp_eq]

theorem rounds_succ_right {n : Nat} : Rounds R (n + 1) p q ↔ Comp (Rounds R n) R p q := by
  induction n generalizing p with
  | zero =>
    rw [rounds_one, Rounds, eq_comp]
  | succ n ih =>
    constructor
    · rintro ⟨m, hm, h⟩
      obtain ⟨m', hm', h⟩ := ih.1 h
      exact ⟨m', ⟨m, hm, hm'⟩, h⟩
    · rintro ⟨m', ⟨m, hm, hm'⟩, h⟩
      exact ⟨m, hm, ih.2 ⟨m', hm', h⟩⟩

theorem rounds_add {m n : Nat} : Rounds R (m + n) p q ↔ Comp (Rounds R m) (Rounds R n) p q := by
  induction m generalizing p with
  | zero => rw [Nat.zero_add, Rounds, eq_comp]
  | succ m ih =>
    rw [Nat.succ_add, Rounds, Rounds, comp_assoc]
    exact exists_congr fun _ => and_congr_right fun _ => ih

theorem repeats_any : Repeats R 0 none p q ↔ ∃ n, Rounds R n p q :=
  exists_congr fun n => ⟨fun h => h.2.2, fun h => ⟨Nat.zero_le n, nofun, h⟩⟩

theorem repeats_atLeast {k : Nat} :
    Repeats R (k + 1) none p q ↔ Comp (Rounds R k) (fun m q => ∃ n, Rounds R (n + 1) m q) p q := by
  constructor
  · rintro ⟨n, hn, -, h⟩
    obtain ⟨j, rfl⟩ := Nat.exists_eq_add_of_le hn
    rw [Nat.add_assoc, Nat.add_comm 1 j] at h
    obtain ⟨m, hm, h⟩ := rounds_add.1 h
    exact ⟨m, hm, j, h⟩
  · rintro ⟨m, hm, n, h⟩
    exact ⟨k + (n + 1), by omega, nofun, rounds_add.2 ⟨m, hm, h⟩⟩

theorem repeats_between {k n : Nat} (hbounds : k ≤ n) :
    Repeats R k (some n) p q ↔ Comp (Rounds R k) (fun m q => ∃ j ≤ n - k, Rounds R j m q) p q := by
  constructor
  · rintro ⟨j, hj, hmax, h⟩
    obtain ⟨j, rfl⟩ := Nat.exists_eq_add_of_le hj
    have hle := hmax n rfl
    obtain ⟨m, hm, h⟩ := rounds_add.1 h
    exact ⟨m, hm, j, by omega, h⟩
  · rintro ⟨m, hm, j, hj, h⟩
    refine ⟨k + j, Nat.le_add_right k j, fun n' hn' => ?_, rounds_add.2 ⟨m, hm, h⟩⟩
    obtain rfl := Option.some.inj hn'
    omega

theorem rounds_zero_or_succ : (p = q ∨ ∃ n, Rounds R (n + 1) p q) ↔ ∃ n, Rounds R n p q := by
  constructor
  · rintro (h | ⟨n, h⟩)
    · exact ⟨0, h⟩
    · exact ⟨n + 1, h⟩
  · rintro ⟨n, h⟩
    cases n with
    | zero => exact .inl h
    | succ n => exact .inr ⟨n, h⟩

theorem rounds_upTo_succ {n : Nat} :
    (p = q ∨ Comp R (fun m q => ∃ k ≤ n, Rounds R k m q) p q) ↔ ∃ k ≤ n + 1, Rounds R k p q := by
  constructor
  · rintro (rfl | ⟨m, hm, k, hk, h⟩)
    · exact ⟨0, Nat.zero_le _, rfl⟩
    · exact ⟨k + 1, Nat.succ_le_succ hk, m, hm, h⟩
  · rintro ⟨k, hk, h⟩
    cases k with
    | zero => exact .inl h
    | succ k =>
      obtain ⟨m, hm, h⟩ := h
      exact .inr ⟨m, hm, k, Nat.le_of_succ_le_succ hk, h⟩

/-- Rounds that lead nowhere are as good as one of them. -/
theorem rounds_of_stays (hstays : ∀ p q, R p q → p = q) {n : Nat} : Rounds R (n + 1) p q ↔ R p q := by
  induction n generalizing p with
  | zero => exact rounds_one
  | succ n ih =>
    constructor
    · rintro ⟨m, hm, h⟩
      rw [hstays p m hm]
      exact ih.1 h
    · intro h
      obtain rfl := hstays p q h
      exact ⟨p, h, ih.2 h⟩

end Rounds

theorem Node.leads_of_onlyEmpty {n : Node} (horder : n.inOrder = true) (honly : n.onlyEmpty = true) :
    ∀ p q, n.Leads p q → p = q := by
  induction n with
  | empty => exact fun p q h => h
  | set s => cases honly
  | look l => exact fun p q h => h.2
  | group i a ih => exact ih horder honly
  | cat a b iha ihb =>
    rintro p q ⟨m, hm, h⟩
    obtain ⟨horda, hordb⟩ := Bool.and_eq_true_iff.1 horder
    obtain ⟨honlya, honlyb⟩ := Bool.and_eq_true_iff.1 honly
    exact (iha horda honlya p m hm).trans (ihb hordb honlyb m q h)
  | alt a b iha ihb =>
    obtain ⟨horda, hordb⟩ := Bool.and_eq_true_iff.1 horder
    obtain ⟨honlya, honlyb⟩ := Bool.and_eq_true_iff.1 honly
    rintro p q (h | h)
    · exact iha horda honlya p q h
    · exact ihb hordb honlyb p q h
  | «repeat» min max greedy a ih =>
    rintro p q ⟨n, -, hmax, h⟩
    obtain ⟨-, horda⟩ := Bool.and_eq_true_iff.1 horder
    cases n with
    | zero => exact h
    | succ n =>
      -- either no round is allowed, or no round leads away
      rcases Bool.or_eq_true_iff.1 honly with hzero | honlya
      · exact absurd (hmax 0 (of_decide_eq_true hzero)) (Nat.not_succ_le_zero n)
      · exact ih horda honlya p q ((rounds_of_stays (ih horda honlya)).1 h)

/-- What leads nowhere is repeated at most once. -/
theorem repeats_of_stays {R : Place → Place → Prop} (hstays : ∀ p q, R p q → p = q) {min : Nat} {max : Option Nat}
    (hbounds : ∀ m ∈ max, min ≤ m) (p q : Place) : Repeats R min max p q ↔ if min = 0 then p = q else R p q := by
  split
  · rename_i hmin
    constructor
    · rintro ⟨n, -, -, h⟩
      cases n with
      | zero => exact h
      | succ n => exact hstays p q ((rounds_of_stays hstays).1 h)
    · exact fun h => ⟨0, Nat.le_of_eq hmin, fun m _ => Nat.zero_le m, h⟩
  · rename_i hmin
    obtain ⟨k, rfl⟩ := Nat.exists_eq_succ_of_ne_zero hmin
    constructor
    · rintro ⟨n, hn, -, h⟩
      obtain ⟨n, rfl⟩ := Nat.exists_eq_succ_of_ne_zero (show n ≠ 0 by omega)
      exact (rounds_of_stays hstays).1 h
    · exact fun h => ⟨k + 1, Nat.le_refl _, hbounds, (rounds_of_stays hstays).2 h⟩

/-- The bounds that a repetition is laid out with are in order if its own are. -/
theorem Node.limits_inOrder (a : Node) {min : Nat} {max : Option Nat} (hbounds : ∀ m ∈ max, min ≤ m) :
    ∀ m ∈ (a.limits min max).2, (a.limits min max).1 ≤ m := by
  rw [Node.limits]
  split
  · rintro - ⟨⟩
    cases max with
    | none => exact Nat.min_le_right min 1
    | some m => exact Nat.le_min.2 ⟨Nat.le_trans (Nat.min_le_left min 1) (hbounds m rfl), Nat.min_le_right min 1⟩
  · exact hbounds

/-- The bounds that a repetition is laid out with allow what its own bounds do. -/
theorem Node.repeats_limits {a : Node} {min : Nat} {max : Option Nat} (horda : a.inOrder = true)
    (hbounds : ∀ m ∈ max, min ≤ m) (p q : Place) :
    Repeats a.Leads (a.limits min max).1 (a.limits min max).2 p q ↔ Repeats a.Leads min max p q := by
  have hlimits := a.limits_inOrder hbounds
  rw [Node.limits] at hlimits ⊢
  split at hlimits
  · rename_i honly
    rw [if_pos honly]
    have hstays := Node.leads_of_onlyEmpty horda honly
    have hzero : Nat.min min 1 = 0 ↔ min = 0 := by
      show Min.min min 1 = 0 ↔ min = 0
      omega
    rw [repeats_of_stays hstays hlimits, repeats_of_stays hstays hbounds]
    simp only [hzero]
  · rename_i honly
    rw [if_neg honly]

/-! ## Steps of the machine -/

/-- The instructions that one leads to without taking a character. -/
def Inst.slips (pc : Nat) (p : Place) : Inst → List Nat
  | take _ | accept => []
  | look l => if l.holds p then [pc + 1] else []
  | mark _ => [pc + 1]
  | split first second => [first, second]
  | jump target => [target]

/-- A step of the machine that takes no character. -/
def Slips (insts : Array Inst) (p : Place) (pc pc' : Nat) : Prop := ∃ i, insts[pc]? = some i ∧ pc' ∈ i.slips pc p

/-- A step of the machine. -/
inductive Step (insts : Array Inst) : Nat × Place → Nat × Place → Prop
  | slip {p : Place} {pc pc' : Nat} (h : Slips insts p pc pc') : Step insts (pc, p) (pc', p)
  | take {p : Place} {pc : Nat} {s : CharSet} {c : Char} {r : List Char} (hinst : insts[pc]? = some (.take s))
      (hrest : p.rest = c :: r) (hc : s.contains c.toNat = true) : Step insts (pc, p) (pc + 1, p.past [c] r)

/-- A number of steps. -/
inductive Steps (insts : Array Inst) : Nat → Nat × Place → Nat × Place → Prop
  | refl (a : Nat × Place) : Steps insts 0 a a
  | head {n : Nat} {a b c : Nat × Place} (h : Step insts a b) (hs : Steps insts n b c) : Steps insts (n + 1) a c

section Steps

variable {insts : Array Inst} {a b c : Nat × Place}

theorem exists_steps_iff : (∃ n, Steps insts n a b) ↔ ReflTransGen (Step insts) a b := by
  constructor
  · rintro ⟨n, h⟩
    induction h with
    | refl a => exact .refl
    | head h _ ih => exact .head h ih
  · intro h
    induction h using ReflTransGen.head_induction_on with
    | refl => exact ⟨0, .refl b⟩
    | head h _ ih =>
      obtain ⟨n, hn⟩ := ih
      exact ⟨n + 1, .head h hn⟩

/-- A step from an instruction that is known. -/
theorem step_iff {pc : Nat} {i : Inst} (hinst : insts[pc]? = some i) {p : Place} :
    Step insts (pc, p) b ↔ (∃ pc' ∈ i.slips pc p, b = (pc', p)) ∨
      ∃ s c r, i = .take s ∧ p.rest = c :: r ∧ s.contains c.toNat = true ∧ b = (pc + 1, p.past [c] r) := by
  constructor
  · intro h
    cases h with
    | slip h =>
      obtain ⟨j, hj, h⟩ := h
      obtain rfl := Option.some.inj (hinst.symm.trans hj)
      exact .inl ⟨_, h, rfl⟩
    | take hj hrest hc => exact .inr ⟨_, _, _, Option.some.inj (hinst.symm.trans hj), hrest, hc, rfl⟩
  · rintro (⟨pc', h, rfl⟩ | ⟨s, c, r, rfl, hrest, hc, rfl⟩)
    · exact .slip ⟨i, hinst, h⟩
    · exact .take hinst hrest hc

end Steps

/-! ## Fragments -/

/-- The instructions from `lo` to `hi`, entered at `lo` and left at `hi`, lead from place to place as `R` does. -/
structure Fragment (insts : Array Inst) (lo hi : Nat) (R : Place → Place → Prop) : Prop where
  le : lo ≤ hi
  through : ∀ p q, R p q → ReflTransGen (Step insts) (lo, p) (hi, q)
  escapes : ∀ n p x q, Steps insts n (lo, p) (x, q) → ¬ (lo ≤ x ∧ x < hi) →
    ∃ m, R p m ∧ ∃ j ≤ n, Steps insts j (hi, m) (x, q)

section Fragment

variable {insts : Array Inst} {lo mid hi : Nat} {R S : Place → Place → Prop}

theorem Fragment.congr (h : Fragment insts lo hi R) (hiff : ∀ p q, R p q ↔ S p q) : Fragment insts lo hi S where
  le := h.le
  through p q hS := h.through p q ((hiff p q).2 hS)
  escapes n p x q hsteps hout := by
    obtain ⟨m, hR, hrest⟩ := h.escapes n p x q hsteps hout
    exact ⟨m, (hiff p m).1 hR, hrest⟩

theorem Fragment.nothing (lo : Nat) : Fragment insts lo lo Eq where
  le := Nat.le_refl lo
  through := by
    rintro p - rfl
    exact .refl
  escapes n p x q hsteps _ := ⟨p, rfl, n, Nat.le_refl n, hsteps⟩

/-- A run that leaves its first instruction makes a first step. -/
theorem exists_first_step {n x : Nat} {p q : Place} (h : Steps insts n (lo, p) (x, q)) (hx : lo ≠ x) :
    ∃ j < n, ∃ b, Step insts (lo, p) b ∧ Steps insts j b (x, q) := by
  cases h with
  | refl => exact absurd rfl hx
  | head h hs => exact ⟨_, Nat.lt_succ_self _, _, h, hs⟩

/-- One instruction that leads to the next one. -/
theorem Fragment.single (h : ∀ p b, Step insts (lo, p) b ↔ ∃ q, R p q ∧ b = (lo + 1, q)) :
    Fragment insts lo (lo + 1) R where
  le := Nat.le_succ lo
  through p q hR := .single ((h p _).2 ⟨q, hR, rfl⟩)
  escapes n p x q hsteps hout := by
    obtain ⟨j, hj, b, hstep, hrest⟩ := exists_first_step hsteps (by omega)
    obtain ⟨m, hR, rfl⟩ := (h p b).1 hstep
    exact ⟨m, hR, j, Nat.le_of_lt hj, hrest⟩

theorem Fragment.seq (h₁ : Fragment insts lo mid R) (h₂ : Fragment insts mid hi S) :
    Fragment insts lo hi (Comp R S) where
  le := Nat.le_trans h₁.le h₂.le
  through := by
    rintro p q ⟨m, hR, hS⟩
    exact (h₁.through p m hR).trans (h₂.through m q hS)
  escapes n p x q hsteps hout := by
    have hlo := h₁.le
    have hhi := h₂.le
    obtain ⟨m, hR, j, hj, hrest⟩ := h₁.escapes n p x q hsteps (by omega)
    obtain ⟨m', hS, k, hk, hrest⟩ := h₂.escapes j m x q hrest (by omega)
    exact ⟨m', ⟨m, hR, hS⟩, k, Nat.le_trans hk hj, hrest⟩

theorem step_take_iff {pc : Nat} {s : CharSet} (hinst : insts[pc]? = some (.take s)) {p : Place} {b : Nat × Place} :
    Step insts (pc, p) b ↔ ∃ c r, p.rest = c :: r ∧ s.contains c.toNat = true ∧ b = (pc + 1, p.past [c] r) := by
  rw [step_iff hinst]
  simp [Inst.slips]

theorem step_look_iff {pc : Nat} {l : Look} (hinst : insts[pc]? = some (.look l)) {p : Place} {b : Nat × Place} :
    Step insts (pc, p) b ↔ l.holds p = true ∧ b = (pc + 1, p) := by
  rw [step_iff hinst]
  cases hl : l.holds p <;> simp [Inst.slips, hl]

theorem step_mark_iff {pc slot : Nat} (hinst : insts[pc]? = some (.mark slot)) {p : Place} {b : Nat × Place} :
    Step insts (pc, p) b ↔ b = (pc + 1, p) := by
  rw [step_iff hinst]
  simp [Inst.slips]

theorem step_split_iff {pc x y : Nat} (hinst : insts[pc]? = some (.split x y)) {p : Place} {b : Nat × Place} :
    Step insts (pc, p) b ↔ b = (x, p) ∨ b = (y, p) := by
  rw [step_iff hinst]
  simp [Inst.slips]

theorem step_choice_iff {pc x y : Nat} {greedy : Bool} (hinst : insts[pc]? = some (Inst.choice greedy x y))
    {p : Place} {b : Nat × Place} : Step insts (pc, p) b ↔ b = (x, p) ∨ b = (y, p) := by
  cases greedy with
  | true => exact step_split_iff hinst
  | false => exact (step_split_iff hinst).trans or_comm

theorem step_jump_iff {pc x : Nat} (hinst : insts[pc]? = some (.jump x)) {p : Place} {b : Nat × Place} :
    Step insts (pc, p) b ↔ b = (x, p) := by
  rw [step_iff hinst]
  simp [Inst.slips]

/-- Two alternatives. -/
theorem Fragment.either (hsplit : insts[lo]? = some (.split (lo + 1) (mid + 1))) (h₁ : Fragment insts (lo + 1) mid R)
    (hjump : insts[mid]? = some (.jump hi)) (h₂ : Fragment insts (mid + 1) hi S) :
    Fragment insts lo hi fun p q => R p q ∨ S p q where
  le := by
    have hlo := h₁.le
    have hhi := h₂.le
    omega
  through := by
    rintro p q (hR | hS)
    · exact .head ((step_split_iff hsplit).2 (.inl rfl)) ((h₁.through p q hR).tail ((step_jump_iff hjump).2 rfl))
    · exact .head ((step_split_iff hsplit).2 (.inr rfl)) (h₂.through p q hS)
  escapes n p x q hsteps hout := by
    have hlo := h₁.le
    have hhi := h₂.le
    obtain ⟨j, hj, b, hstep, hrest⟩ := exists_first_step hsteps (by omega)
    rcases (step_split_iff hsplit).1 hstep with rfl | rfl
    · obtain ⟨m, hR, k, hk, hrest⟩ := h₁.escapes j p x q hrest (by omega)
      obtain ⟨i, hi, b, hstep, hrest⟩ := exists_first_step hrest (by omega)
      obtain rfl := (step_jump_iff hjump).1 hstep
      exact ⟨m, .inl hR, i, by omega, hrest⟩
    · obtain ⟨m, hS, k, hk, hrest⟩ := h₂.escapes j p x q hrest (by omega)
      exact ⟨m, .inr hS, k, by omega, hrest⟩

/-- What may be left out. -/
theorem Fragment.optional {greedy : Bool} (hchoice : insts[lo]? = some (Inst.choice greedy (lo + 1) hi))
    (h : Fragment insts (lo + 1) hi R) : Fragment insts lo hi fun p q => p = q ∨ R p q where
  le := by
    have hhi := h.le
    omega
  through := by
    rintro p q (rfl | hR)
    · exact .single ((step_choice_iff hchoice).2 (.inr rfl))
    · exact .head ((step_choice_iff hchoice).2 (.inl rfl)) (h.through p q hR)
  escapes n p x q hsteps hout := by
    have hhi := h.le
    obtain ⟨j, hj, b, hstep, hrest⟩ := exists_first_step hsteps (by omega)
    rcases (step_choice_iff hchoice).1 hstep with rfl | rfl
    · obtain ⟨m, hR, k, hk, hrest⟩ := h.escapes j p x q hrest (by omega)
      exact ⟨m, .inr hR, k, by omega, hrest⟩
    · exact ⟨p, .inl rfl, j, by omega, hrest⟩

/-- What is tried again behind each round of itself. -/
theorem Fragment.again {greedy : Bool} (h : Fragment insts lo mid R)
    (hchoice : insts[mid]? = some (Inst.choice greedy lo (mid + 1))) :
    Fragment insts lo (mid + 1) fun p q => ∃ n, Rounds R (n + 1) p q where
  le := Nat.le_trans h.le (Nat.le_succ mid)
  through := by
    rintro p q ⟨n, hn⟩
    induction n generalizing p with
    | zero => exact (h.through p q (rounds_one.1 hn)).tail ((step_choice_iff hchoice).2 (.inr rfl))
    | succ n ih =>
      obtain ⟨m, hR, hm⟩ := hn
      exact ((h.through p m hR).tail ((step_choice_iff hchoice).2 (.inl rfl))).trans (ih m hm)
  escapes n p x q hsteps hout := by
    have hle := h.le
    induction n using Nat.strongRecOn generalizing p with
    | ind n ih =>
      obtain ⟨m, hR, j, hj, hrest⟩ := h.escapes n p x q hsteps (by omega)
      obtain ⟨i, hi, b, hstep, hrest⟩ := exists_first_step hrest (by omega)
      rcases (step_choice_iff hchoice).1 hstep with rfl | rfl
      · obtain ⟨m', ⟨k, hk⟩, i', hi', hrest⟩ := ih i (by omega) m hrest
        exact ⟨m', ⟨k + 1, m, hR, hk⟩, i', by omega, hrest⟩
      · exact ⟨m, ⟨0, rounds_one.2 hR⟩, i, by omega, hrest⟩

/-- What is gone back to behind each round of itself. -/
theorem Fragment.back {greedy : Bool} (hchoice : insts[lo]? = some (Inst.choice greedy (lo + 1) (mid + 1)))
    (h : Fragment insts (lo + 1) mid R) (hjump : insts[mid]? = some (.jump lo)) :
    Fragment insts lo (mid + 1) fun p q => ∃ n, Rounds R n p q where
  le := by
    have hle := h.le
    omega
  through := by
    rintro p q ⟨n, hn⟩
    induction n generalizing p with
    | zero =>
      obtain rfl := hn
      exact .single ((step_choice_iff hchoice).2 (.inr rfl))
    | succ n ih =>
      obtain ⟨m, hR, hm⟩ := hn
      exact .head ((step_choice_iff hchoice).2 (.inl rfl))
        (((h.through p m hR).tail ((step_jump_iff hjump).2 rfl)).trans (ih m hm))
  escapes n p x q hsteps hout := by
    have hle := h.le
    -- a round takes some steps, and the way on from its end is shorter
    induction n using Nat.strongRecOn generalizing p with
    | ind n ih =>
      obtain ⟨j, hj, b, hstep, hrest⟩ := exists_first_step hsteps (by omega)
      rcases (step_choice_iff hchoice).1 hstep with rfl | rfl
      · obtain ⟨m, hR, k, hk, hrest⟩ := h.escapes j p x q hrest (by omega)
        obtain ⟨i, hi, b, hstep, hrest⟩ := exists_first_step hrest (by omega)
        obtain rfl := (step_jump_iff hjump).1 hstep
        obtain ⟨m', ⟨k', hk'⟩, i', hi', hrest⟩ := ih i (by omega) m hrest
        exact ⟨m', ⟨k' + 1, m, hR, hk'⟩, i', by omega, hrest⟩
      · exact ⟨p, ⟨0, rfl⟩, j, by omega, hrest⟩

end Fragment

/-! ## The layout of a pattern -/

/-- The program holds this code from `pc` on. -/
def Placed (insts : Array Inst) (pc : Nat) (code : List Inst) : Prop :=
  ∀ i < code.length, insts[pc + i]? = code[i]?

section Placed

variable {insts : Array Inst} {pc : Nat} {code code' : List Inst} {i : Inst}

theorem placed_append (h : Placed insts pc (code ++ code')) :
    Placed insts pc code ∧ Placed insts (pc + code.length) code' := by
  rw [Placed, List.length_append] at h
  constructor
  · intro i hi
    rw [h i (by omega), List.getElem?_append_left hi]
  · intro i hi
    rw [Nat.add_assoc, h (code.length + i) (by omega), List.getElem?_append_right (by omega), Nat.add_sub_cancel_left]

theorem placed_cons (h : Placed insts pc (i :: code)) : insts[pc]? = some i ∧ Placed insts (pc + 1) code := by
  have happend : Placed insts pc ([i] ++ code) := h
  exact ⟨h 0 (Nat.zero_lt_succ _), (placed_append happend).2⟩

theorem length_flatMap_range {f : Nat → List Inst} {size : Nat} (hsize : ∀ i, (f i).length = size) (n : Nat) :
    ((List.range n).flatMap f).length = n * size := by
  simp only [List.length_flatMap, hsize, List.map_const', List.length_range, List.sum_replicate_nat]

/-- Pieces of one length, one behind the other. -/
theorem placed_flatMap {f : Nat → List Inst} {size n : Nat} (hsize : ∀ i, (f i).length = size)
    (h : Placed insts pc ((List.range n).flatMap f)) : ∀ i < n, Placed insts (pc + i * size) (f i) := by
  induction n with
  | zero => exact fun i hi => absurd hi (Nat.not_lt_zero i)
  | succ n ih =>
    rw [List.range_succ, List.flatMap_append, List.flatMap_singleton] at h
    obtain ⟨hfirst, hlast⟩ := placed_append h
    rw [length_flatMap_range hsize] at hlast
    intro i hi
    rcases Nat.lt_succ_iff_lt_or_eq.1 hi with hi | rfl
    · exact ih hfirst i hi
    · exact hlast

end Placed

namespace Node

theorem length_code (a : Node) (pc : Nat) : (a.code pc).length = a.size := by
  induction a generalizing pc with
  | empty => rfl
  | set s => rfl
  | look l => rfl
  | group i a ih => simp [code, size, ih]
  | cat a b iha ihb => simp [code, size, iha, ihb]
  | alt a b iha ihb =>
    simp only [code, size, List.length_append, List.length_cons, iha, ihb]
    omega
  | «repeat» min max greedy a ih =>
    rw [code, size]
    obtain ⟨min, max⟩ := a.limits min max
    cases max with
    | some max =>
      have hcopy : ∀ i, (a.code (pc + i * a.size)).length = a.size := fun i => ih _
      dsimp only [repeatSize]
      rw [List.length_append, length_flatMap_range hcopy, length_flatMap_range fun i => ?_]
      exact congrArg (· + 1) (ih _)
    | none =>
      have hcopy : ∀ i, (a.code (pc + i * a.size)).length = a.size := fun i => ih _
      dsimp only [repeatSize]
      split
      · simp [ih]
      · rw [List.length_append, length_flatMap_range hcopy, List.length_singleton]

section Repetitions

variable {insts : Array Inst} {pc : Nat} {a : Node} {R : Place → Place → Prop}

/-- Copies of a piece. -/
theorem fragment_copies (ha : ∀ pc, Placed insts pc (a.code pc) → Fragment insts pc (pc + a.size) R) {n : Nat}
    (h : ∀ i < n, Placed insts (pc + i * a.size) (a.code (pc + i * a.size))) :
    Fragment insts pc (pc + n * a.size) (Rounds R n) := by
  induction n with
  | zero =>
    rw [Nat.zero_mul]
    exact .nothing pc
  | succ n ih =>
    have hlast := ha _ (h n (Nat.lt_succ_self n))
    rw [Nat.add_assoc, ← Nat.succ_mul] at hlast
    exact ((ih fun i hi => h i (Nat.lt_succ_of_lt hi)).seq hlast).congr fun p q => rounds_succ_right.symm

/-- Copies of a piece that may be left behind each of them. -/
theorem fragment_options (ha : ∀ pc, Placed insts pc (a.code pc) → Fragment insts pc (pc + a.size) R) {greedy : Bool}
    {n : Nat} (h : ∀ i < n, Placed insts (pc + i * (a.size + 1))
      (Inst.choice greedy (pc + i * (a.size + 1) + 1) (pc + n * (a.size + 1)) ::
        a.code (pc + i * (a.size + 1) + 1))) :
    Fragment insts pc (pc + n * (a.size + 1)) fun p q => ∃ k ≤ n, Rounds R k p q := by
  induction n generalizing pc with
  | zero =>
    rw [Nat.zero_mul]
    refine (Fragment.nothing pc).congr fun p q => ⟨fun h => ⟨0, Nat.le_refl 0, h⟩, ?_⟩
    rintro ⟨k, hk, h⟩
    obtain rfl := Nat.le_zero.1 hk
    exact h
  | succ n ih =>
    obtain ⟨hchoice, hfirst⟩ := placed_cons (h 0 (Nat.zero_lt_succ n))
    rw [Nat.zero_mul, Nat.add_zero] at hchoice hfirst
    have hshift : ∀ i, pc + (i + 1) * (a.size + 1) = pc + 1 + a.size + i * (a.size + 1) := by
      intro i
      rw [Nat.succ_mul]
      omega
    have hrest : Fragment insts (pc + 1 + a.size) (pc + 1 + a.size + n * (a.size + 1)) fun p q =>
        ∃ k ≤ n, Rounds R k p q := ih fun i hi => by
      have hnext := h (i + 1) (Nat.succ_lt_succ hi)
      rwa [hshift, hshift] at hnext
    rw [← hshift] at hrest
    exact (Fragment.optional hchoice ((ha _ hfirst).seq hrest)).congr fun p q => rounds_upTo_succ

/-- A repetition that may be left out and that may go on for ever. -/
theorem fragment_any (ha : ∀ pc, Placed insts pc (a.code pc) → Fragment insts pc (pc + a.size) R) {greedy : Bool}
    (h : Placed insts pc
      (Inst.choice greedy (pc + 1) (pc + 1 + a.size + 1) :: a.code (pc + 1) ++
        [if a.neverEmpty then Inst.jump pc else Inst.choice greedy (pc + 1) (pc + 1 + a.size + 1)])) :
    Fragment insts pc (pc + 1 + a.size + 1) (Repeats R 0 none) := by
  rw [List.cons_append] at h
  obtain ⟨hchoice, h⟩ := placed_cons h
  obtain ⟨hinner, hagain⟩ := placed_append h
  rw [length_code] at hagain
  have hagain := (placed_cons hagain).1
  split at hagain
  · exact (Fragment.back hchoice (ha _ hinner) hagain).congr fun p q => repeats_any.symm
  · exact (Fragment.optional hchoice (Fragment.again (ha _ hinner) hagain)).congr fun p q =>
      rounds_zero_or_succ.trans repeats_any.symm

/-- A repetition with a lower bound. The last of the copies is the one that may go on for ever. -/
theorem fragment_atLeast (ha : ∀ pc, Placed insts pc (a.code pc) → Fragment insts pc (pc + a.size) R) {k : Nat}
    {greedy : Bool} (h : Placed insts pc
      (((List.range (k + 1)).flatMap fun i => a.code (pc + i * a.size)) ++
        [Inst.choice greedy (pc + k * a.size) (pc + k * a.size + a.size + 1)])) :
    Fragment insts pc (pc + k * a.size + a.size + 1) (Repeats R (k + 1) none) := by
  have hlast : pc + (k + 1) * a.size = pc + k * a.size + a.size := by
    rw [Nat.succ_mul]
    omega
  obtain ⟨hcopies, hchoice⟩ := placed_append h
  have hcopy := placed_flatMap (fun i => length_code a _) hcopies
  rw [length_flatMap_range fun i => length_code a _, hlast] at hchoice
  have hfirst := fragment_copies ha fun i hi => hcopy i (Nat.lt_succ_of_lt hi)
  have hrest := Fragment.again (ha _ (hcopy k (Nat.lt_succ_self k))) (placed_cons hchoice).1
  exact (hfirst.seq hrest).congr fun p q => repeats_atLeast.symm

/-- A repetition without an upper bound. -/
theorem fragment_unbounded (ha : ∀ pc, Placed insts pc (a.code pc) → Fragment insts pc (pc + a.size) R) {min : Nat}
    {greedy : Bool} (h : Placed insts pc
      (if min = 0 then
        Inst.choice greedy (pc + 1) (pc + repeatSize a.size min none) :: a.code (pc + 1) ++
          [if a.neverEmpty then Inst.jump pc else Inst.choice greedy (pc + 1) (pc + repeatSize a.size min none)]
      else
        ((List.range min).flatMap fun i => a.code (pc + i * a.size)) ++
          [Inst.choice greedy (pc + (min - 1) * a.size) (pc + repeatSize a.size min none)])) :
    Fragment insts pc (pc + repeatSize a.size min none) (Repeats R min none) := by
  rw [repeatSize] at h ⊢
  cases min with
  | zero =>
    have hend : pc + (a.size + 2) = pc + 1 + a.size + 1 := by omega
    rw [if_pos rfl, if_pos rfl, hend] at h
    rw [if_pos rfl, hend]
    exact fragment_any ha h
  | succ k =>
    have hend : pc + ((k + 1) * a.size + 1) = pc + k * a.size + a.size + 1 := by
      rw [Nat.succ_mul]
      omega
    rw [if_neg k.succ_ne_zero, if_neg k.succ_ne_zero, hend] at h
    rw [if_neg k.succ_ne_zero, hend]
    exact fragment_atLeast ha h

/-- A repetition with an upper bound. -/
theorem fragment_bounded (ha : ∀ pc, Placed insts pc (a.code pc) → Fragment insts pc (pc + a.size) R) {min max : Nat}
    {greedy : Bool} (hbounds : min ≤ max) (h : Placed insts pc
      (((List.range min).flatMap fun i => a.code (pc + i * a.size)) ++
        (List.range (max - min)).flatMap fun i =>
          Inst.choice greedy (pc + min * a.size + i * (a.size + 1) + 1) (pc + repeatSize a.size min (some max)) ::
            a.code (pc + min * a.size + i * (a.size + 1) + 1))) :
    Fragment insts pc (pc + repeatSize a.size min (some max)) (Repeats R min (some max)) := by
  rw [repeatSize, ← Nat.add_assoc] at h ⊢
  obtain ⟨hcopies, hoptions⟩ := placed_append h
  have hcopy := placed_flatMap (fun i => length_code a _) hcopies
  rw [length_flatMap_range fun i => length_code a _] at hoptions
  have hoption := placed_flatMap (fun i => congrArg (· + 1) (length_code a _)) hoptions
  exact ((fragment_copies ha hcopy).seq (fragment_options ha hoption)).congr fun p q =>
    (repeats_between hbounds).symm

end Repetitions

section Parts

variable {insts : Array Inst} {pc : Nat} {a b : Node}

/-- A group is marked where it begins and where it ends, and leads as what it encloses. -/
theorem fragment_group (ha : ∀ pc, Placed insts pc (a.code pc) → Fragment insts pc (pc + a.size) a.Leads) {i : Nat}
    (h : Placed insts pc ((group i a).code pc)) : Fragment insts pc (pc + (group i a).size) a.Leads := by
  have hmark : ∀ {pc slot}, insts[pc]? = some (.mark slot) → Fragment insts pc (pc + 1) Eq := fun hinst =>
    .single fun p b => (step_mark_iff hinst).trans ⟨fun hb => ⟨p, rfl, hb⟩, fun ⟨_, hq, hb⟩ => hq ▸ hb⟩
  have hend : pc + (group i a).size = pc + 1 + a.size + 1 := by
    rw [size]
    omega
  rw [code, List.cons_append] at h
  obtain ⟨hopen, h⟩ := placed_cons h
  obtain ⟨hinner, hclose⟩ := placed_append h
  rw [length_code] at hclose
  have hwhole := ((hmark hopen).seq (ha _ hinner)).seq (hmark (placed_cons hclose).1)
  rw [eq_comp, comp_eq] at hwhole
  rw [hend]
  exact hwhole

/-- Of two alternatives the first one jumps over the second one. -/
theorem fragment_alt (ha : ∀ pc, Placed insts pc (a.code pc) → Fragment insts pc (pc + a.size) a.Leads)
    (hb : ∀ pc, Placed insts pc (b.code pc) → Fragment insts pc (pc + b.size) b.Leads)
    (h : Placed insts pc ((alt a b).code pc)) : Fragment insts pc (pc + (alt a b).size) (alt a b).Leads := by
  have hmid : pc + a.size + 2 = pc + 1 + a.size + 1 := by omega
  have hend : pc + (alt a b).size = pc + 1 + a.size + 1 + b.size := by
    rw [size]
    omega
  rw [code, hmid, List.cons_append] at h
  obtain ⟨hsplit, h⟩ := placed_cons h
  obtain ⟨hfirst, h⟩ := placed_append h
  obtain ⟨hjump, hsecond⟩ := placed_cons h
  rw [length_code] at hjump hsecond
  rw [hend]
  exact .either hsplit (ha _ hfirst) hjump (hb _ hsecond)

end Parts

/-- The code of a pattern leads from place to place as the pattern does. -/
theorem fragment {insts : Array Inst} {a : Node} (horder : a.inOrder = true) {pc : Nat}
    (h : Placed insts pc (a.code pc)) : Fragment insts pc (pc + a.size) a.Leads := by
  induction a generalizing pc with
  | empty => exact .nothing pc
  | set s =>
    refine .single fun p b => (step_take_iff (placed_cons h).1).trans ?_
    constructor
    · rintro ⟨c, r, hrest, hc, rfl⟩
      exact ⟨_, ⟨c, r, hrest, hc, rfl⟩, rfl⟩
    · rintro ⟨-, ⟨c, r, hrest, hc, rfl⟩, rfl⟩
      exact ⟨c, r, hrest, hc, rfl⟩
  | look l =>
    refine .single fun p b => (step_look_iff (placed_cons h).1).trans ?_
    constructor
    · rintro ⟨hl, rfl⟩
      exact ⟨p, ⟨hl, rfl⟩, rfl⟩
    · rintro ⟨q, ⟨hl, rfl⟩, rfl⟩
      exact ⟨hl, rfl⟩
  | group i a ih => exact fragment_group (fun pc h => ih horder h) h
  | cat a b iha ihb =>
    obtain ⟨horda, hordb⟩ := Bool.and_eq_true_iff.1 horder
    obtain ⟨hfirst, hsecond⟩ := placed_append h
    rw [length_code] at hsecond
    have hb := ihb hordb hsecond
    rw [Nat.add_assoc] at hb
    exact (iha horda hfirst).seq hb
  | alt a b iha ihb =>
    obtain ⟨horda, hordb⟩ := Bool.and_eq_true_iff.1 horder
    exact fragment_alt (fun pc h => iha horda h) (fun pc h => ihb hordb h) h
  | «repeat» min max greedy a ih =>
    obtain ⟨hbounds, horda⟩ := Bool.and_eq_true_iff.1 horder
    have hbounds : ∀ m ∈ max, min ≤ m := fun m hm => of_decide_eq_true ((Option.all_eq_true _ _).1 hbounds m hm)
    have ha : ∀ pc, Placed insts pc (a.code pc) → Fragment insts pc (pc + a.size) a.Leads := fun pc h => ih horda h
    -- the code is laid out for the limits, which are narrower where nothing is taken, and lead to the same places
    refine Fragment.congr ?_ (repeats_limits horda hbounds)
    have hlimits := limits_inOrder a hbounds
    rw [code] at h
    rw [size]
    revert h hlimits
    obtain ⟨min, max⟩ := a.limits min max
    intro h hlimits
    cases max with
    | some max => exact fragment_bounded ha (hlimits max rfl) h
    | none => exact fragment_unbounded ha h

/-- No pattern ends the program that it is a part of. -/
theorem accept_notMem_code (a : Node) (pc : Nat) : Inst.accept ∉ a.code pc := by
  have hchoice : ∀ greedy x y, Inst.accept ≠ Inst.choice greedy x y := by
    rintro (_ | _) x y h <;> cases h
  induction a generalizing pc with
  | empty => exact List.not_mem_nil
  | set s => simp [code]
  | look l => simp [code]
  | group i a ih => simp [code, ih]
  | cat a b iha ihb => simp [code, iha, ihb]
  | alt a b iha ihb => simp [code, iha, ihb]
  | «repeat» min max greedy a ih =>
    rw [code]
    obtain ⟨min, max⟩ := a.limits min max
    cases max with
    | some max => simp [ih, hchoice]
    | none =>
      dsimp only
      split
      · cases hnever : a.neverEmpty <;> simp [ih, hchoice]
      · simp [ih, hchoice]

end Node

/-- The program of a pattern comes to its end exactly at the places that the pattern leads to. -/
theorem Program.accepts_iff {a : Node} (horder : a.inOrder = true) (names : List (String × Nat)) {p q : Place} :
    (∃ pc, (ofNode a names).insts[pc]? = some .accept ∧
      ReflTransGen (Step (ofNode a names).insts) (0, p) (pc, q)) ↔ a.Leads p q := by
  have hcode : Placed (ofNode a names).insts 0 (a.code 0 ++ [.accept]) := by
    intro i _
    rw [Nat.zero_add, ofNode, List.getElem?_toArray]
  obtain ⟨hplaced, haccept⟩ := placed_append hcode
  rw [Node.length_code, Nat.zero_add] at haccept
  have hlast := (placed_cons haccept).1
  have hfragment := Node.fragment horder hplaced
  rw [Nat.zero_add] at hfragment
  constructor
  · rintro ⟨pc, hpc, h⟩
    obtain ⟨n, h⟩ := exists_steps_iff.2 h
    have hout : ¬ (0 ≤ pc ∧ pc < a.size) := by
      rintro ⟨-, hlt⟩
      have hinst := hplaced pc (by rwa [Node.length_code])
      rw [Nat.zero_add, hpc] at hinst
      exact a.accept_notMem_code 0 (List.mem_of_getElem? hinst.symm)
    obtain ⟨m, hR, j, -, hrest⟩ := hfragment.escapes n p pc q h hout
    -- Nothing leads on from the end.
    cases hrest with
    | refl => exact hR
    | head hstep _ =>
      rcases (step_iff hlast).1 hstep with ⟨_, h, -⟩ | ⟨_, _, _, h, -⟩
      · cases h
      · cases h
  · exact fun h => ⟨a.size, hlast, hfragment.through p q h⟩

end Conformance.Regex
