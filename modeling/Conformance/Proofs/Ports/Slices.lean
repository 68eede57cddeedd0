import Conformance.Proofs.Ports.Turns
import Mathlib.Data.List.Nodup

/-!
# The parts of a range of ports

A range of ports is cut into parts of equal width (`slice_eq_ok`). Two parts have no port in common
(`not_holds_of_holds`), and an allocator stays in its part, however often it is asked (`Ready.holds_of_mem_answers`).
One that trusts its range answers with the ports of its turns (`Ready.answers_eq`).
-/
namespace Conformance.Ports.Allocator

variable {a b : Allocator} {r : PortRange} {count index : Nat}

/-- The port is one of the range. -/
def Holds (a : Allocator) (port : UInt16) : Prop := a.range.1 ≤ port ∧ port < a.range.2

/-- What requests that are made one after another are answered. Each of them sees the ports that are in use then. -/
def answers : List (Option (List UInt16)) → Allocator → List (Except Fault UInt16)
  | [], _ => []
  | busy :: later, a => (a.nextPort busy).1 :: answers later (a.nextPort busy).2

theorem Ready.holds_turn (h : a.Ready) (i : Nat) : a.Holds (a.turn i) := h.turn_mem i

theorem After.holds_iff {n : Nat} (h : After a n b) {port : UInt16} : b.Holds port ↔ a.Holds port := by
  simp only [Holds, range, h.min_eq, h.max_eq]

/-! ## Many requests -/

theorem Ready.exists_after_firstFree {a : Allocator} (h : a.Ready) (busy : List UInt16) (n : Nat) :
    ∃ k, After a k (firstFree busy n a).2 := by
  induction n generalizing a with
  | zero => exact ⟨0, h.after_zero⟩
  | succ n ih =>
    rw [firstFree]
    dsimp only
    split
    · obtain ⟨k, hk⟩ := ih h.after_advance.ready
      exact ⟨1 + k, h.after_advance.trans hk⟩
    · exact ⟨1, h.after_advance⟩

/-- Turns pass whether a port is handed out or not. -/
theorem Ready.exists_after_nextPort (h : a.Ready) (busy : Option (List UInt16)) :
    ∃ k, After a k (a.nextPort busy).2 := by
  cases busy with
  | none => exact ⟨1, h.after_advance⟩
  | some busy =>
    cases hprobe : a.probe with
    | false =>
      rw [nextPort_of_probe_eq_false hprobe]
      exact ⟨1, h.after_advance⟩
    | true =>
      rw [nextPort_of_probe hprobe]
      exact h.exists_after_firstFree busy _

/-- An allocator stays in its range, however often it is asked. -/
theorem Ready.holds_of_mem_answers {a : Allocator} (h : a.Ready) {busy : List (Option (List UInt16))} {port : UInt16}
    (hport : .ok port ∈ answers busy a) : a.Holds port := by
  induction busy generalizing a with
  | nil => cases hport
  | cons first later ih =>
    rw [answers, List.mem_cons] at hport
    rcases hport with hport | hport
    · obtain ⟨i, hi, -⟩ := h.exists_turn_of_nextPort (Prod.ext hport.symm rfl : a.nextPort first = (.ok port, _))
      rw [hi]
      exact h.holds_turn i
    · obtain ⟨k, hk⟩ := h.exists_after_nextPort first
      exact hk.holds_iff.1 (ih hk.ready hport)

/-- If no request passes over a port, the answers are the ports of the turns, one after another. -/
theorem Ready.answers_eq_turns {a : Allocator} (h : a.Ready) {busy : List (Option (List UInt16))}
    (hnext : ∀ seen ∈ busy, ∀ n b, After a n b → b.nextPort seen = (.ok b.advance.1, b.advance.2)) :
    answers busy a = (List.range busy.length).map fun k => .ok (a.turn k) := by
  induction busy generalizing a with
  | nil => rfl
  | cons first later ih =>
    have hlater : ∀ seen ∈ later, ∀ n b, After a.advance.2 n b →
        b.nextPort seen = (.ok b.advance.1, b.advance.2) := by
      intro seen hseen n b hb
      exact hnext seen (List.mem_cons_of_mem _ hseen) (1 + n) b (h.after_advance.trans hb)
    rw [answers, hnext first List.mem_cons_self 0 a h.after_zero, ih h.after_advance.ready hlater, List.length_cons,
      List.range_succ_eq_map, List.map_cons, List.map_map, h.advance_fst]
    simp only [h.after_advance.turn_eq, Function.comp_def, Nat.succ_eq_add_one, Nat.add_comm 1]

/-- An allocator that trusts its range answers with the port of the next turn each time. -/
theorem Ready.answers_eq {a : Allocator} (h : a.Ready) (hprobe : a.probe = false)
    (busy : List (Option (List UInt16))) :
    answers busy a = (List.range busy.length).map fun k => .ok (a.turn k) :=
  h.answers_eq_turns fun _ _ _ _ hb => nextPort_of_probe_eq_false (hb.probe_eq.trans hprobe) _

/-- Within a round no port comes twice, wherever the round begins. -/
theorem Ready.nodup_round (h : a.Ready) (hprobe : a.probe = false) (busy : List (Option (List UInt16))) (k : Nat) :
    (((answers busy a).drop k).take a.width).Nodup := by
  rw [h.answers_eq hprobe, ← List.map_drop, ← List.map_take]
  refine List.Nodup.map_on (fun i hi j hj heq => ?_) (List.nodup_range.drop.take)
  have hround : i % a.width = j % a.width := h.turn_eq_iff.1 (Except.ok.inj heq)
  -- both turns lie less than a round behind the turn `k`
  have bounds : ∀ x ∈ ((List.range busy.length).drop k).take a.width, k ≤ x ∧ x - k < a.width := by
    intro x hx
    obtain ⟨n, hn, rfl⟩ := List.mem_iff_getElem.1 hx
    rw [List.length_take] at hn
    rw [List.getElem_take, List.getElem_drop, List.getElem_range]
    omega
  obtain ⟨hki, hi⟩ := bounds i hi
  obtain ⟨hkj, hj⟩ := bounds j hj
  rw [← Nat.add_sub_cancel' hki, ← Nat.add_sub_cancel' hkj] at hround
  have hmod := Nat.ModEq.add_left_cancel' k hround
  rw [Nat.ModEq, Nat.mod_eq_of_lt hi, Nat.mod_eq_of_lt hj] at hmod
  omega

/-! ## The parts -/

/-- The allocator of a range that is not empty has all of it in front of it. -/
theorem ofRange_of_lt (h : r.min < r.max) : ofRange r = ⟨r.min, r.max, r.min, r.probe⟩ := by
  have hleast : ¬ r.max < clampPort (r.min.toNat + 1) := by
    have hlast := r.max.toNat_lt
    rw [UInt16.lt_iff_toNat_lt] at h ⊢
    have hclamp : Nat.min (r.min.toNat + 1) 65535 = r.min.toNat + 1 := Nat.min_eq_left (by omega)
    rw [clampPort, UInt16.toNat_ofNat', hclamp, Nat.mod_eq_of_lt (by omega)]
    omega
  have hnew : new r.min r.max = ⟨r.min, r.max, r.min, false⟩ := by
    simp only [new, if_neg hleast]
  rw [ofRange, probing, hnew]
  cases r.probe <;> rfl

/-- How many ports each of `count` parts of a range holds. -/
def partWidth (r : PortRange) (count : Nat) : Nat := (r.max.toNat - r.min.toNat) / count

/-- A range that holds enough ports can be cut into so many parts. -/
structure Divisible (r : PortRange) (count : Nat) : Prop where
  min_lt_max : r.min < r.max
  pos : 0 < count
  le_span : count ≤ r.max.toNat - r.min.toNat

/-- A range that has an allocator for some part can be cut into so many parts. -/
theorem divisible_of_slice (h : slice r index count = .ok a) (hpos : 0 < count) : Divisible r count := by
  have hcount : Nat.max count 1 = count := Nat.max_eq_left hpos
  rw [slice] at h
  split at h
  · cases h
  · rename_i hrange
    dsimp only at h
    rw [hcount] at h
    split at h
    · cases h
    · rename_i hspan
      exact ⟨UInt16.not_le.1 hrange, hpos, Nat.le_of_not_lt hspan⟩

theorem Divisible.partWidth_pos (h : Divisible r count) : 0 < partWidth r count := Nat.div_pos h.le_span h.pos

/-- A part ends where the range ends or before. -/
theorem Divisible.finish_le (h : Divisible r count) (hindex : index < count) :
    r.min.toNat + index * partWidth r count + partWidth r count ≤ r.max.toNat := by
  have hrange := UInt16.lt_iff_toNat_lt.1 h.min_lt_max
  have hlast : (index + 1) * partWidth r count ≤ r.max.toNat - r.min.toNat :=
    (Nat.mul_le_mul_right _ hindex).trans (Nat.mul_div_le _ _)
  rw [Nat.succ_mul] at hlast
  omega

/-- The part `index` of a range: what lies behind the parts before it. -/
def part (r : PortRange) (index count : Nat) : PortRange :=
  { r with
    min := UInt16.ofNat (r.min.toNat + index * partWidth r count)
    max := UInt16.ofNat (r.min.toNat + index * partWidth r count + partWidth r count) }

theorem Divisible.part_min (h : Divisible r count) (hindex : index < count) :
    (part r index count).min.toNat = r.min.toNat + index * partWidth r count := by
  have hfinish := h.finish_le hindex
  have hlast := r.max.toNat_lt
  rw [part, UInt16.toNat_ofNat', Nat.mod_eq_of_lt (by omega)]

theorem Divisible.part_max (h : Divisible r count) (hindex : index < count) :
    (part r index count).max.toNat = r.min.toNat + index * partWidth r count + partWidth r count := by
  have hfinish := h.finish_le hindex
  have hlast := r.max.toNat_lt
  rw [part, UInt16.toNat_ofNat', Nat.mod_eq_of_lt (by omega)]

theorem Divisible.part_lt (h : Divisible r count) (hindex : index < count) :
    (part r index count).min < (part r index count).max := by
  have hpos := h.partWidth_pos
  rw [UInt16.lt_iff_toNat_lt, h.part_min hindex, h.part_max hindex]
  omega

/-- The parts of a range have the allocators of these parts. -/
theorem Divisible.slice_eq_ok (h : Divisible r count) (hindex : index < count) :
    slice r index count = .ok (ofRange (part r index count)) := by
  have hcount : Nat.max count 1 = count := Nat.max_eq_left h.pos
  have hfinish : r.min.toNat + index * partWidth r count + partWidth r count < 65536 :=
    Nat.lt_of_le_of_lt (h.finish_le hindex) r.max.toNat_lt
  rw [slice, if_neg (UInt16.not_le.2 h.min_lt_max)]
  dsimp only
  rw [hcount, if_neg (Nat.not_lt.2 h.le_span), Nat.mod_eq_of_lt hindex]
  exact if_pos hfinish

theorem Divisible.range_slice (h : Divisible r count) (hindex : index < count) (ha : slice r index count = .ok a) :
    a.range = ((part r index count).min, (part r index count).max) := by
  rw [h.slice_eq_ok hindex, ofRange_of_lt (h.part_lt hindex)] at ha
  obtain rfl := Except.ok.inj ha
  rfl

/-- Two parts of a range have no port in common. -/
theorem Divisible.not_holds_of_holds (h : Divisible r count) {i j : Nat} (hi : i < count) (hj : j < count)
    (hne : i ≠ j) (ha : slice r i count = .ok a) (hb : slice r j count = .ok b) {port : UInt16} (hport : a.Holds port) :
    ¬ b.Holds port := by
  -- what lies behind the part `i` is not before the part `j` if `i < j`
  have behind : ∀ {i j : Nat}, i < j →
      r.min.toNat + i * partWidth r count + partWidth r count ≤ r.min.toNat + j * partWidth r count := by
    intro i j hij
    have hle : (i + 1) * partWidth r count ≤ j * partWidth r count := Nat.mul_le_mul_right _ hij
    rw [Nat.succ_mul] at hle
    omega
  intro hport'
  rw [Holds, h.range_slice hi ha] at hport
  rw [Holds, h.range_slice hj hb] at hport'
  simp only [UInt16.le_iff_toNat_le, UInt16.lt_iff_toNat_lt, h.part_min hi, h.part_min hj, h.part_max hi,
    h.part_max hj] at hport hport'
  rcases Nat.lt_or_gt_of_ne hne with hij | hij
  · have hle := behind hij
    omega
  · have hle := behind hij
    omega

/-- A range that holds at least one port for each of `count` parts is cut into parts that hold ports of the range, and
no two of them the same. An allocator of a part never leaves it. If it trusts its range, its answers are the ports of
the part in turn, beginning with the first one: no port comes twice within a round. -/
theorem slices_partition {r : PortRange} {count : Nat} (hrange : r.min < r.max) (hpos : 1 ≤ count)
    (hspan : count ≤ r.max.toNat - r.min.toNat) :
    (∀ index < count, ∃ a, slice r index count = .ok a ∧
      r.min ≤ a.range.1 ∧ a.range.1 < a.range.2 ∧ a.range.2 ≤ r.max ∧
      (∀ busy port, .ok port ∈ answers busy a → a.Holds port) ∧
      (r.probe = false → ∀ busy,
        (answers busy a = (List.range busy.length).map fun k => .ok (UInt16.ofNat (a.range.1.toNat + k % a.width))) ∧
        ∀ k, (((answers busy a).drop k).take a.width).Nodup)) ∧
    ∀ i < count, ∀ j < count, i ≠ j → ∀ a b, slice r i count = .ok a → slice r j count = .ok b →
      ∀ port, a.Holds port → ¬ b.Holds port := by
  have h : Divisible r count := ⟨hrange, hpos, hspan⟩
  refine ⟨fun index hindex => ?_, fun i hi j hj hne a b ha hb port hport => h.not_holds_of_holds hi hj hne ha hb hport⟩
  have hslice := h.slice_eq_ok hindex
  have hready := ready_slice hslice
  have heq := ofRange_of_lt (h.part_lt hindex)
  rw [heq] at hslice hready
  refine ⟨_, hslice, ?_, h.part_lt hindex, ?_, fun busy port => hready.holds_of_mem_answers,
    fun hprobe busy => ⟨?_, hready.nodup_round hprobe busy⟩⟩
  · rw [range, UInt16.le_iff_toNat_le, h.part_min hindex]
    exact Nat.le_add_right _ _
  · rw [range, UInt16.le_iff_toNat_le, h.part_max hindex]
    exact h.finish_le hindex
  · rw [hready.answers_eq hprobe busy]
    simp only [turn, range, Nat.sub_self, Nat.zero_add]

/-- The last ports there are, in three parts of two ports each. -/
theorem slices_partition_last_ports :
    let r : PortRange := ⟨65529, 65535, false⟩
    (r.min < r.max ∧ 1 ≤ 3 ∧ 3 ≤ r.max.toNat - r.min.toNat) ∧
      (∀ index < 3, ∃ a, slice r index 3 = .ok a ∧
        r.min ≤ a.range.1 ∧ a.range.1 < a.range.2 ∧ a.range.2 ≤ r.max ∧
        (∀ busy port, .ok port ∈ answers busy a → a.Holds port) ∧
        (r.probe = false → ∀ busy,
          (answers busy a =
            (List.range busy.length).map fun k => .ok (UInt16.ofNat (a.range.1.toNat + k % a.width))) ∧
          ∀ k, (((answers busy a).drop k).take a.width).Nodup)) ∧
      ∀ i < 3, ∀ j < 3, i ≠ j → ∀ a b, slice r i 3 = .ok a → slice r j 3 = .ok b →
        ∀ port, a.Holds port → ¬ b.Holds port :=
  ⟨by decide, slices_partition (by decide) (by decide) (by decide)⟩

end Conformance.Ports.Allocator
