import Conformance.Proofs.Text.Decimal
import Mathlib.Data.Nat.Digits.Defs

/-!
# Reading numbers that are written in hexadecimal

A number below a bound is read from its hexadecimal digits, in either letter case and with any number of zeros in front,
and from nothing else but these digits behind a plus sign (`readBelow?_sixteen_eq_some_iff`).
-/
namespace Conformance.Text

/-- A hexadecimal digit, with its letter in one of the two cases. -/
structure HexDigit where
  value : Fin 16
  upper : Bool
  deriving DecidableEq, Repr

/-- The character of the digit. -/
def HexDigit.char (d : HexDigit) : Char :=
  if d.value.val < 10 then Char.ofNat ('0'.toNat + d.value.val)
  else Char.ofNat ((if d.upper then 'A' else 'a').toNat + (d.value.val - 10))

/-- The number of the digits, of which the last one counts once. -/
def hexNumber (ds : List HexDigit) : Nat := Nat.ofDigits 16 (ds.reverse.map (·.value.val))

theorem hexNumber_cons (d : HexDigit) (ds : List HexDigit) :
    hexNumber (d :: ds) = d.value.val * 16 ^ ds.length + hexNumber ds := by
  rw [hexNumber, List.reverse_cons, List.map_append, Nat.ofDigits_append, List.length_map, List.length_reverse,
    List.map_singleton, Nat.ofDigits_singleton, hexNumber, Nat.add_comm, Nat.mul_comm]

theorem digitIn?_char (d : HexDigit) : digitIn? 16 d.char = some d.value.val := by
  have hall : ∀ value : Fin 16, ∀ upper : Bool, digitIn? 16 (HexDigit.mk value upper).char = some value.val := by decide
  exact hall d.value d.upper

/-- Only hexadecimal digits have a value. -/
theorem exists_char_of_digitIn? {c : Char} {n : Nat} (h : digitIn? 16 c = some n) :
    ∃ d : HexDigit, c = d.char ∧ d.value.val = n := by
  have hback : ∀ value : Nat, (hvalue : value < 16) → ∀ upper : Bool,
      (HexDigit.mk ⟨value, hvalue⟩ upper).char = c → value = n → ∃ d : HexDigit, c = d.char ∧ d.value.val = n := by
    intro value hvalue upper hc hn
    exact ⟨⟨⟨value, hvalue⟩, upper⟩, hc.symm, hn⟩
  simp only [digitIn?, Option.filter_eq_some_iff, decide_eq_true_eq] at h
  obtain ⟨h, hlt⟩ := h
  -- The three runs of digits: in each the value and the letter case are those of the character.
  split at h
  · rename_i hrange
    have hlow : 48 ≤ c.toNat := hrange.1
    obtain rfl := Option.some.inj h
    have hdigit : c.toNat - '0'.toNat < 10 := by
      have hhigh : c.toNat ≤ 57 := hrange.2
      show c.toNat - 48 < 10
      omega
    apply hback _ hlt false _ rfl
    rw [HexDigit.char, if_pos hdigit]
    show Char.ofNat (48 + (c.toNat - 48)) = c
    rw [Nat.add_sub_cancel' hlow, Char.ofNat_toNat]
  split at h
  · rename_i hrange
    have hlow : 97 ≤ c.toNat := hrange.1
    obtain rfl := Option.some.inj h
    have hletter : ¬ c.toNat - 'a'.toNat + 10 < 10 := Nat.not_lt.2 (Nat.le_add_left _ _)
    apply hback _ hlt false _ rfl
    rw [HexDigit.char, if_neg hletter]
    show Char.ofNat (97 + (c.toNat - 97 + 10 - 10)) = c
    rw [Nat.add_sub_cancel, Nat.add_sub_cancel' hlow, Char.ofNat_toNat]
  split at h
  · rename_i hrange
    have hlow : 65 ≤ c.toNat := hrange.1
    obtain rfl := Option.some.inj h
    have hletter : ¬ c.toNat - 'A'.toNat + 10 < 10 := Nat.not_lt.2 (Nat.le_add_left _ _)
    apply hback _ hlt true _ rfl
    rw [HexDigit.char, if_neg hletter]
    show Char.ofNat (65 + (c.toNat - 65 + 10 - 10)) = c
    rw [Nat.add_sub_cancel, Nat.add_sub_cancel' hlow, Char.ofNat_toNat]
  · cases h

/-! ## Runs of digits -/

theorem natFrom?_digits (ds : List HexDigit) (acc : Nat) :
    natFrom? 16 acc (ds.map (·.char)) = some (acc * 16 ^ ds.length + hexNumber ds) := by
  induction ds generalizing acc with
  | nil => simp [natFrom?, hexNumber]
  | cons d ds ih =>
    rw [List.map_cons, natFrom?, digitIn?_char, Option.bind_some, ih, hexNumber_cons, List.length_cons, Nat.pow_succ]
    congr 1
    ring

theorem natFrom?_eq_some_iff {acc n : Nat} {cs : List Char} :
    natFrom? 16 acc cs = some n ↔
      ∃ ds : List HexDigit, cs = ds.map (·.char) ∧ acc * 16 ^ ds.length + hexNumber ds = n := by
  constructor
  · intro h
    induction cs generalizing acc with
    | nil =>
      obtain rfl := Option.some.inj h
      exact ⟨[], rfl, by simp [hexNumber]⟩
    | cons c cs ih =>
      rw [natFrom?, Option.bind_eq_some_iff] at h
      obtain ⟨value, hvalue, h⟩ := h
      obtain ⟨d, rfl, rfl⟩ := exists_char_of_digitIn? hvalue
      obtain ⟨ds, rfl, hn⟩ := ih h
      refine ⟨d :: ds, rfl, ?_⟩
      rw [← hn, hexNumber_cons, List.length_cons, Nat.pow_succ]
      ring
  · rintro ⟨ds, rfl, rfl⟩
    exact natFrom?_digits ds acc

theorem natIn?_eq_some_iff {n : Nat} {cs : List Char} :
    natIn? 16 cs = some n ↔ ∃ ds : List HexDigit, ds ≠ [] ∧ cs = ds.map (·.char) ∧ hexNumber ds = n := by
  cases cs with
  | nil => simp [natIn?]
  | cons c cs =>
    rw [natIn?, natFrom?_eq_some_iff]
    · constructor
      · rintro ⟨ds, hcs, hn⟩
        refine ⟨ds, ?_, hcs, by rwa [Nat.zero_mul, Nat.zero_add] at hn⟩
        rintro rfl
        cases hcs
      · rintro ⟨ds, -, hcs, hn⟩
        exact ⟨ds, hcs, by rwa [Nat.zero_mul, Nat.zero_add]⟩
    · intro h
      cases h

/-- What is read are digits, and digits behind a plus sign, if their number lies below the bound. -/
theorem readBelow?_sixteen_eq_some_iff {bound n : Nat} {cs : List Char} :
    readBelow? 16 bound cs = some n ↔
      n < bound ∧ ∃ (plus : Bool) (ds : List HexDigit),
        ds ≠ [] ∧ cs = (if plus then ['+'] else []) ++ ds.map (·.char) ∧ hexNumber ds = n := by
  simp only [readBelow?_eq_some_iff, natIn?_eq_some_iff]
  constructor
  · rintro ⟨hlt, plus, _, hcs, ds, hne, rfl, hn⟩
    exact ⟨hlt, plus, ds, hne, hcs, hn⟩
  · rintro ⟨hlt, plus, ds, hne, hcs, hn⟩
    exact ⟨hlt, plus, _, hcs, ds, hne, rfl, hn⟩

end Conformance.Text
