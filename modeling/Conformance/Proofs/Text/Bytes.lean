import Conformance.Text.Span

/-!
# Bytes of a text

Offsets in bytes, seen from the characters in front of them. `byteLength` is the size of a string in
UTF-8, `dropBytes` undoes it on the front of a text, and `isBoundary` holds at the offsets that some
front of the text reaches, which are the valid positions of the string.
-/
namespace Conformance.Text

theorem byteLength_ofList_eq (cs : List Char) : (String.ofList cs).utf8ByteSize = byteLength cs := by
  induction cs with
  | nil => rfl
  | cons c r ih =>
    have hsplit : String.ofList (c :: r) = String.singleton c ++ String.ofList r := by
      rw [String.singleton_eq_ofList, ← String.ofList_append, List.singleton_append]
    rw [hsplit, String.utf8ByteSize_append, String.utf8ByteSize_singleton, ih, byteLength]

/-- The bytes of the characters of a string are the bytes of the string. -/
theorem byteLength_toList (s : String) : byteLength s.toList = s.utf8ByteSize := by
  rw [← byteLength_ofList_eq, String.ofList_toList]

/-- A character takes at least one byte, so a text without bytes is empty. -/
theorem byteLength_eq_zero_iff {cs : List Char} : byteLength cs = 0 ↔ cs = [] := by
  cases cs with
  | nil => simp [byteLength]
  | cons c r =>
    have hpos := c.utf8Size_pos
    simp only [byteLength, reduceCtorEq, iff_false]
    omega

@[simp] theorem dropBytes_zero (cs : List Char) : dropBytes 0 cs = cs := by
  cases cs <;> rfl

@[simp] theorem isBoundary_zero (cs : List Char) : isBoundary 0 cs = true := by
  cases cs <;> rfl

/-- Past the bytes of its front, a text goes on with what is behind the front. -/
@[simp] theorem dropBytes_append (a b : List Char) : dropBytes (byteLength a) (a ++ b) = b := by
  induction a with
  | nil => simp [byteLength]
  | cons c r ih =>
    have hpos := c.utf8Size_pos
    obtain ⟨n, hn⟩ : ∃ n, byteLength (c :: r) = n + 1 :=
      Nat.exists_eq_succ_of_ne_zero (by simp only [byteLength]; omega)
    have hrest : n + 1 - c.utf8Size = byteLength r := by
      rw [← hn, byteLength, Nat.add_sub_cancel_left]
    rw [hn, List.cons_append, dropBytes, hrest, ih]

/-- An offset is a boundary exactly if it is the number of bytes of some front of the text. -/
theorem isBoundary_iff {n : Nat} {cs : List Char} :
    isBoundary n cs = true ↔ ∃ a b, cs = a ++ b ∧ byteLength a = n := by
  -- character by character, which takes its bytes off the offset
  induction cs generalizing n with
  | nil =>
    cases n with
    | zero => simp [byteLength]
    | succ n =>
      simp only [isBoundary, Bool.false_eq_true, false_iff]
      rintro ⟨a, b, hab, hn⟩
      obtain ⟨rfl, -⟩ := List.append_eq_nil_iff.1 hab.symm
      simp [byteLength] at hn
  | cons c r ih =>
    cases n with
    | zero => exact ⟨fun _ => ⟨[], c :: r, rfl, rfl⟩, fun _ => isBoundary_zero _⟩
    | succ n =>
      simp only [isBoundary, Bool.and_eq_true, decide_eq_true_eq, ih]
      constructor
      · rintro ⟨hle, a, b, rfl, ha⟩
        exact ⟨c :: a, b, rfl, by simp only [byteLength]; omega⟩
      · rintro ⟨a, b, hab, ha⟩
        cases a with
        | nil => simp [byteLength] at ha
        | cons d a =>
          obtain ⟨rfl, rfl⟩ : c = d ∧ r = a ++ b := by simpa using hab
          simp only [byteLength] at ha
          exact ⟨by omega, a, b, rfl, by omega⟩

/-- Behind a front of the text, the boundaries are those of what is behind the front. -/
theorem isBoundary_append {n : Nat} (a b : List Char) :
    isBoundary (byteLength a + n) (a ++ b) = isBoundary n b := by
  induction a with
  | nil => simp [byteLength]
  | cons c r ih =>
    have hpos := c.utf8Size_pos
    obtain ⟨m, hm⟩ : ∃ m, byteLength (c :: r) + n = m + 1 :=
      Nat.exists_eq_succ_of_ne_zero (by simp only [byteLength]; omega)
    have hsize : byteLength (c :: r) = c.utf8Size + byteLength r := rfl
    have hrest : m + 1 - c.utf8Size = byteLength r + n := by omega
    have hle : c.utf8Size ≤ m + 1 := by omega
    rw [hm, List.cons_append, isBoundary, hrest, ih, decide_eq_true hle, Bool.true_and]

/-- The boundaries of a string are its valid positions. -/
theorem isBoundary_iff_isValid {n : Nat} {s : String} :
    isBoundary n s.toList = true ↔ (⟨n⟩ : String.Pos.Raw).IsValid s := by
  rw [isBoundary_iff, String.Pos.Raw.isValid_iff_exists_append]
  constructor
  · rintro ⟨a, b, hab, rfl⟩
    refine ⟨String.ofList a, String.ofList b, ?_, ?_⟩
    · rw [← String.ofList_append, ← hab, String.ofList_toList]
    · rw [String.Pos.Raw.ext_iff, String.byteIdx_rawEndPos, byteLength_ofList_eq]
  · rintro ⟨a, b, rfl, hn⟩
    refine ⟨a.toList, b.toList, String.toList_append, ?_⟩
    rw [String.Pos.Raw.ext_iff, String.byteIdx_rawEndPos] at hn
    rw [byteLength_toList, ← hn]

end Conformance.Text
