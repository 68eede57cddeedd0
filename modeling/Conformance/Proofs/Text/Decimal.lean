import Conformance.Text.Blank
import Conformance.Text.Decimal

/-!
# Reading whole numbers that are written in decimal

A whole number is read back from its decimal form, if it lies in the range that is read. It is read from decimal digits
and from nothing else (`natIn?_ten_eq_some_iff`), but for a plus sign in front of them (`readBelow?_eq_some_iff`).
-/
namespace Conformance.Text

theorem natFrom?_isSome (base acc : Nat) (cs : List Char) :
    (natFrom? base acc cs).isSome = cs.all fun c => (digitIn? base c).isSome := by
  induction cs generalizing acc with
  | nil => rfl
  | cons c cs ih =>
    rw [natFrom?, List.all_cons]
    cases digitIn? base c with
    | none => rfl
    | some d => exact ih _

theorem toNat_of_isDigit {c : Char} (h : c.isDigit = true) : 48 ≤ c.toNat ∧ c.toNat ≤ 57 := by
  simp only [Char.isDigit, Bool.and_eq_true, decide_eq_true_eq, UInt32.le_iff_toNat_le] at h
  exact h

theorem isWhite_of_isDigit {c : Char} (hc : c.isDigit = true) : isWhite c = false := by
  have hrange := toNat_of_isDigit hc
  refine Bool.eq_false_iff.2 fun h => ?_
  simp only [isWhite, Bool.or_eq_true, Bool.and_eq_true, decide_eq_true_eq] at h
  omega

theorem digitIn?_of_isDigit {c : Char} (h : c.isDigit = true) : digitIn? 10 c = some (c.toNat - '0'.toNat) := by
  have hrange : '0' ≤ c ∧ c ≤ '9' := by simpa [Char.isDigit, Char.le_def] using h
  have hbound : c.toNat ≤ '9'.toNat := hrange.2
  rw [digitIn?, if_pos hrange]
  have hlt : c.toNat - '0'.toNat < 10 := by
    rw [show '9'.toNat = 57 from rfl] at hbound
    rw [show '0'.toNat = 48 from rfl]
    omega
  simp only [Option.filter_some, hlt, decide_true, if_true]

theorem natFrom?_of_isDigit {cs : List Char} (h : ∀ c ∈ cs, c.isDigit = true) (acc : Nat) :
    natFrom? 10 acc cs = some (Nat.ofDigitChars 10 cs acc) := by
  induction cs generalizing acc with
  | nil => rfl
  | cons c cs ih =>
    obtain ⟨hc, hcs⟩ := List.forall_mem_cons.1 h
    rw [natFrom?, digitIn?_of_isDigit hc, Option.bind_some, ih hcs, Nat.ofDigitChars_cons, Nat.mul_comm]

/-- Only decimal digits have a value. -/
theorem isDigit_of_digitIn? {c : Char} {n : Nat} (h : digitIn? 10 c = some n) : c.isDigit = true := by
  simp only [digitIn?, Option.filter_eq_some_iff, decide_eq_true_eq] at h
  obtain ⟨h, hlt⟩ := h
  split at h
  · rename_i hrange
    simpa [Char.isDigit, Char.le_def] using hrange
  · -- the value of a letter is no digit's
    split at h
    · have hn := Option.some.inj h
      omega
    · rw [Option.ite_none_right_eq_some] at h
      have hn := Option.some.inj h.2
      omega

theorem natFrom?_ten_eq_some_iff {acc n : Nat} {cs : List Char} :
    natFrom? 10 acc cs = some n ↔ (∀ c ∈ cs, c.isDigit = true) ∧ Nat.ofDigitChars 10 cs acc = n := by
  constructor
  · intro h
    have hall : ∀ c ∈ cs, c.isDigit = true := by
      have hsome := natFrom?_isSome 10 acc cs
      rw [h, Option.isSome_some] at hsome
      intro c hc
      obtain ⟨d, hd⟩ := Option.isSome_iff_exists.1 (List.all_eq_true.1 hsome.symm c hc)
      exact isDigit_of_digitIn? hd
    rw [natFrom?_of_isDigit hall] at h
    exact ⟨hall, Option.some.inj h⟩
  · rintro ⟨hall, rfl⟩
    exact natFrom?_of_isDigit hall acc

theorem natIn?_ten_eq_some_iff {n : Nat} {cs : List Char} :
    natIn? 10 cs = some n ↔ cs ≠ [] ∧ (∀ c ∈ cs, c.isDigit = true) ∧ Nat.ofDigitChars 10 cs 0 = n := by
  cases cs with
  | nil => simp [natIn?]
  | cons c cs =>
    rw [natIn?, natFrom?_ten_eq_some_iff, and_iff_right (List.cons_ne_nil c cs)]
    intro h
    cases h

/-- Digits are read, and digits behind a plus sign, if their number lies below the bound, in any base. -/
theorem readBelow?_eq_some_iff {base bound n : Nat} {cs : List Char} :
    readBelow? base bound cs = some n ↔
      n < bound ∧ ∃ (plus : Bool) (ds : List Char), cs = (if plus then ['+'] else []) ++ ds ∧ natIn? base ds = some n := by
  -- a plus sign is a digit in no base
  have hsign : ∀ r, natIn? base ('+' :: r) = none := fun _ => rfl
  unfold readBelow?
  split
  · rename_i r
    rw [Option.filter_eq_some_iff, decide_eq_true_eq]
    constructor
    · rintro ⟨hn, hlt⟩
      exact ⟨hlt, true, r, rfl, hn⟩
    · rintro ⟨hlt, plus, ds, hcs, hn⟩
      cases plus with
      | true => exact ⟨(List.cons.inj hcs).2 ▸ hn, hlt⟩
      | false =>
        obtain rfl : '+' :: r = ds := hcs
        rw [hsign] at hn
        cases hn
  · rename_i hplus
    rw [Option.filter_eq_some_iff, decide_eq_true_eq]
    constructor
    · rintro ⟨hn, hlt⟩
      exact ⟨hlt, false, cs, rfl, hn⟩
    · rintro ⟨hlt, plus, ds, rfl, hn⟩
      cases plus with
      | true => exact absurd rfl (hplus _)
      | false => exact ⟨hn, hlt⟩

/-! ## Decimal forms -/

theorem isDigit_of_mem_toDigits {n : Nat} : ∀ c ∈ Nat.toDigits 10 n, c.isDigit = true :=
  fun _ hc => Nat.isDigit_of_mem_toDigits (by omega) (Nat.le_refl 10) hc

theorem natIn?_toDigits (n : Nat) : natIn? 10 (Nat.toDigits 10 n) = some n := by
  have hread := natFrom?_of_isDigit (isDigit_of_mem_toDigits (n := n)) 0
  rw [Nat.ofDigitChars_ten_toDigits] at hread
  cases h : Nat.toDigits 10 n with
  | nil => exact absurd h Nat.toDigits_ne_nil
  | cons c cs =>
    rw [h] at hread
    exact hread

theorem head_toDigits (n : Nat) : ∃ c r, Nat.toDigits 10 n = c :: r ∧ c.isDigit = true := by
  obtain ⟨c, r, h⟩ := List.exists_cons_of_ne_nil (Nat.toDigits_ne_nil (n := n) (b := 10))
  exact ⟨c, r, h, isDigit_of_mem_toDigits c (h ▸ List.mem_cons_self)⟩

/-- A digit and the digits behind it. -/
theorem toDigits_eq_cons (n : Nat) :
    ∃ c r, Nat.toDigits 10 n = c :: r ∧ c.isDigit = true ∧ ∀ d ∈ r, d.isDigit = true := by
  obtain ⟨c, r, hdigits, hc⟩ := head_toDigits n
  exact ⟨c, r, hdigits, hc, fun d hd => isDigit_of_mem_toDigits d (hdigits ▸ List.mem_cons_of_mem c hd)⟩

/-- Only the decimal form of zero begins with a zero. -/
theorem toDigits_eq_of_head {n : Nat} (h : (Nat.toDigits 10 n).head? = some '0') : Nat.toDigits 10 n = ['0'] := by
  obtain rfl : n = 0 := by
    induction n using Nat.base_induction 10 (by omega) with
    | single m hm =>
      rw [Nat.toDigits_of_lt_base hm] at h
      have hdigits : ∀ m : Fin 10, Nat.digitChar m.val = '0' → m.val = 0 := by decide
      exact hdigits ⟨m, hm⟩ (Option.some.inj h)
    | digit m k hk hm ih =>
      obtain ⟨c, r, hdigits, -⟩ := head_toDigits m
      rw [← Nat.toDigits_append_toDigits (by omega) hm hk, hdigits] at h
      exact absurd (ih (hdigits ▸ h)) (by omega)
  rfl

theorem readBelow?_toDigits {bound n : Nat} (h : n < bound) : readBelow? 10 bound (Nat.toDigits 10 n) = some n := by
  have hread : (natIn? 10 (Nat.toDigits 10 n)).filter (· < bound) = some n := by
    rw [natIn?_toDigits]
    simp only [Option.filter_some, h, decide_true, if_true]
  obtain ⟨c, r, hdigits, hc⟩ := head_toDigits n
  rw [hdigits] at hread ⊢
  unfold readBelow?
  split
  · rename_i heq
    obtain rfl : c = '+' := (List.cons.inj heq).1
    cases hc
  · exact hread

theorem intIn?_toDigits (n : Nat) : intIn? 10 (Nat.toDigits 10 n) = some (n : Int) := by
  have hread : (natIn? 10 (Nat.toDigits 10 n)).map (fun n => (n : Int)) = some (n : Int) := by
    rw [natIn?_toDigits]
    rfl
  obtain ⟨c, r, hdigits, hc⟩ := head_toDigits n
  rw [hdigits] at hread ⊢
  unfold intIn?
  split
  · rename_i heq
    obtain rfl : c = '-' := (List.cons.inj heq).1
    cases hc
  · rename_i heq
    obtain rfl : c = '+' := (List.cons.inj heq).1
    cases hc
  · exact hread

/-- The characters of the decimal form of an integer: digits, behind a minus sign if it is negative. -/
theorem toList_toString_int (n : Int) :
    (toString n).toList = if 0 ≤ n then Nat.toDigits 10 n.toNat else '-' :: Nat.toDigits 10 (-n).toNat := by
  rw [Int.toString_eq_repr, Int.repr_eq_if]
  split
  · exact Nat.toList_repr
  · rw [String.toList_append, Nat.toList_repr]
    rfl

theorem intIn?_toString (n : Int) : intIn? 10 (toString n).toList = some n := by
  rw [toList_toString_int]
  split
  · rename_i hn
    rw [intIn?_toDigits, Int.toNat_of_nonneg hn]
  · rename_i hn
    rw [intIn?, natIn?_toDigits]
    show some (-((-n).toNat : Int)) = some n
    rw [Int.toNat_of_nonneg (by omega), Int.neg_neg]

/-- A 64-bit integer is read from its decimal form. -/
theorem readInt64?_toString (n : Int64) : readInt64? (toString n.toInt).toList = some n := by
  have hrange : -(Int.pow 2 63) ≤ n.toInt ∧ n.toInt < Int.pow 2 63 := ⟨n.le_toInt, n.toInt_lt⟩
  rw [readInt64?, intIn?_toString, Option.bind_some, int64?, if_pos hrange, Int64.ofInt_toInt]

end Conformance.Text
