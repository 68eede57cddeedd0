import Conformance.Ports.Allocator
import Mathlib.Data.Nat.ModEq

/-!
# The turns of an allocator

An allocator hands out the ports of its range in turn, and begins again behind the last one: the ports of two turns are
equal exactly if whole rounds lie between them (`turn_eq_iff`). A port that is handed out is that of a later turn than
the ones before it (`exists_turn_of_nextPort`), and an allocator has nothing to hand out only if somebody listens on
every port of its range (`nextPort_eq_error_iff`). Which ports are in use for other reasons it does not know.
-/
namespace Conformance.Ports.Allocator

/-- The next port lies in the range, which is therefore not empty. -/
structure Ready (a : Allocator) : Prop where
  min_le : a.min.toNat ≤ a.next.toNat
  lt_max : a.next.toNat < a.max.toNat

/-- How many ports the range holds. -/
def width (a : Allocator) : Nat := a.max.toNat - a.min.toNat

/-- The port of the turn `i`, counted from the next one. -/
def turn (a : Allocator) (i : Nat) : UInt16 :=
  UInt16.ofNat (a.min.toNat + (a.next.toNat - a.min.toNat + i) % a.width)

variable {a : Allocator}

theorem Ready.width_pos (h : a.Ready) : 0 < a.width := by
  have hmin := h.min_le
  have hmax := h.lt_max
  rw [width]
  omega

theorem Ready.toNat_turn (h : a.Ready) (i : Nat) :
    (a.turn i).toNat = a.min.toNat + (a.next.toNat - a.min.toNat + i) % a.width := by
  have hmod : (a.next.toNat - a.min.toNat + i) % a.width < a.width := Nat.mod_lt _ h.width_pos
  have hmax := a.max.toNat_lt
  rw [turn, UInt16.toNat_ofNat', Nat.mod_eq_of_lt]
  rw [width] at hmod ⊢
  omega

theorem Ready.turn_zero (h : a.Ready) : a.turn 0 = a.next := by
  have hmin := h.min_le
  have hmax := h.lt_max
  refine UInt16.toNat_inj.1 ?_
  rw [h.toNat_turn, Nat.add_zero, Nat.mod_eq_of_lt]
  · omega
  · rw [width]
    omega

/-- The ports of two turns are equal exactly if whole rounds lie between them. -/
theorem Ready.turn_eq_iff (h : a.Ready) {i j : Nat} : a.turn i = a.turn j ↔ i % a.width = j % a.width := by
  rw [← UInt16.toNat_inj, h.toNat_turn, h.toNat_turn, Nat.add_left_cancel_iff]
  exact ⟨Nat.ModEq.add_left_cancel' _, Nat.ModEq.add_left _⟩

theorem Ready.turn_mem (h : a.Ready) (i : Nat) : a.min ≤ a.turn i ∧ a.turn i < a.max := by
  have hmod : (a.next.toNat - a.min.toNat + i) % a.width < a.width := Nat.mod_lt _ h.width_pos
  have hwidth := h.width_pos
  rw [width] at hmod hwidth
  rw [UInt16.le_iff_toNat_le, UInt16.lt_iff_toNat_lt, h.toNat_turn, width]
  omega

/-- Each port of the range has its turn within a round. -/
theorem Ready.exists_turn (h : a.Ready) {port : UInt16} (hmin : a.min ≤ port) (hmax : port < a.max) :
    ∃ i < a.width, a.turn i = port := by
  have hnext := h.lt_max
  have hle := h.min_le
  rw [UInt16.le_iff_toNat_le] at hmin
  rw [UInt16.lt_iff_toNat_lt] at hmax
  refine ⟨(port.toNat - a.min.toNat + a.width - (a.next.toNat - a.min.toNat)) % a.width,
    Nat.mod_lt _ h.width_pos, UInt16.toNat_inj.1 ?_⟩
  have hround : a.next.toNat - a.min.toNat + (port.toNat - a.min.toNat + a.width - (a.next.toNat - a.min.toNat)) =
      port.toNat - a.min.toNat + a.width := by
    rw [width]
    omega
  have hlt : port.toNat - a.min.toNat < a.width := by
    rw [width]
    omega
  rw [h.toNat_turn, Nat.add_mod_mod, hround, Nat.add_mod_right, Nat.mod_eq_of_lt hlt]
  omega

/-! ## What an allocator does -/

/-- The allocator `b` is what becomes of `a` when `n` turns have passed. -/
structure After (a : Allocator) (n : Nat) (b : Allocator) : Prop where
  min_eq : b.min = a.min
  max_eq : b.max = a.max
  probe_eq : b.probe = a.probe
  ready : b.Ready
  turn_eq : ∀ i, b.turn i = a.turn (n + i)

theorem Ready.after_zero (h : a.Ready) : After a 0 a := ⟨rfl, rfl, rfl, h, fun i => by rw [Nat.zero_add]⟩

theorem After.trans {b c : Allocator} {m n : Nat} (h : After a m b) (h' : After b n c) : After a (m + n) c where
  min_eq := h'.min_eq.trans h.min_eq
  max_eq := h'.max_eq.trans h.max_eq
  probe_eq := h'.probe_eq.trans h.probe_eq
  ready := h'.ready
  turn_eq i := by rw [h'.turn_eq, h.turn_eq, Nat.add_assoc]

theorem Ready.after_advance (h : a.Ready) : After a 1 a.advance.2 := by
  have hmin := h.min_le
  have hnext := h.lt_max
  have hmax := a.max.toNat_lt
  have hstep : a.advance.2.next.toNat = if a.next.toNat + 1 < a.max.toNat then a.next.toNat + 1 else a.min.toNat := by
    simp only [advance]
    split
    · rw [UInt16.toNat_ofNat', Nat.mod_eq_of_lt (by omega)]
    · rfl
  have hready : a.advance.2.Ready := by
    refine ⟨?_, ?_⟩
    · rw [hstep]
      split
      · exact Nat.le_succ_of_le hmin
      · exact Nat.le_refl _
    · rw [hstep]
      split
      · assumption
      · exact Nat.lt_of_le_of_lt hmin hnext
  refine ⟨rfl, rfl, rfl, hready, fun i => UInt16.toNat_inj.1 ?_⟩
  rw [hready.toNat_turn, h.toNat_turn, hstep]
  show a.min.toNat + (_ - a.min.toNat + i) % a.width = _
  split
  · congr 2
    omega
  · -- the turn behind the last port is that of the first one
    have hround : a.next.toNat - a.min.toNat + (1 + i) = i + a.width := by
      rw [width]
      omega
    rw [hround, Nat.add_mod_right, Nat.sub_self, Nat.zero_add]

theorem Ready.advance_fst (h : a.Ready) : a.advance.1 = a.turn 0 := h.turn_zero.symm

theorem nextPort_of_probe_eq_false (h : a.probe = false) (busy : Option (List UInt16)) :
    a.nextPort busy = (.ok a.advance.1, a.advance.2) := by
  cases busy with
  | none => rfl
  | some busy =>
    rw [nextPort, h]
    rfl

theorem nextPort_of_probe (h : a.probe = true) (busy : List UInt16) :
    a.nextPort (some busy) = firstFree busy a.width a := by
  rw [nextPort, h]
  rfl

/-- The first free port is that of the first turn whose port is not busy. -/
theorem Ready.exists_turn_of_firstFree {a : Allocator} (h : a.Ready) {busy : List UInt16} {n : Nat} {port : UInt16}
    {b : Allocator} (hfree : firstFree busy n a = (.ok port, b)) :
    ∃ i < n, port = a.turn i ∧ After a (i + 1) b ∧ (∀ j < i, a.turn j ∈ busy) ∧ port ∉ busy := by
  induction n generalizing a with
  | zero => cases hfree
  | succ n ih =>
    rw [firstFree] at hfree
    dsimp only at hfree
    split at hfree
    · rename_i hfirst
      rw [List.contains_iff_mem, h.advance_fst] at hfirst
      obtain ⟨i, hi, hport, hafter, hbefore, hbusy⟩ := ih h.after_advance.ready hfree
      refine ⟨i + 1, Nat.succ_lt_succ hi, ?_, ?_, Nat.forall_lt_succ_left.2 ⟨hfirst, fun j hj => ?_⟩, hbusy⟩
      · rw [hport, h.after_advance.turn_eq, Nat.add_comm]
      · rw [Nat.add_comm i 1, Nat.add_assoc]
        exact h.after_advance.trans hafter
      · rw [Nat.add_comm j 1, ← h.after_advance.turn_eq]
        exact hbefore j hj
    · rename_i hbusy
      obtain ⟨hport, rfl⟩ := Prod.mk.inj hfree
      obtain rfl := Except.ok.inj hport
      exact ⟨0, Nat.zero_lt_succ n, h.advance_fst, h.after_advance, fun j hj => absurd hj (Nat.not_lt_zero j),
        by simpa using hbusy⟩

theorem Ready.firstFree_eq_error_iff {a : Allocator} (h : a.Ready) {busy : List UInt16} {n : Nat} {f : Fault} :
    (firstFree busy n a).1 = .error f ↔ f = .portsExhausted a.min a.max ∧ ∀ i < n, a.turn i ∈ busy := by
  induction n generalizing a with
  | zero =>
    rw [firstFree]
    simp [eq_comm]
  | succ n ih =>
    rw [firstFree]
    dsimp only
    split
    · rename_i hbusy
      rw [ih h.after_advance.ready, Nat.forall_lt_succ_left, ← h.advance_fst]
      simp only [h.after_advance.turn_eq, Nat.add_comm 1]
      constructor
      · rintro ⟨hf, hall⟩
        exact ⟨hf, by simpa using hbusy, hall⟩
      · rintro ⟨hf, -, hall⟩
        exact ⟨hf, hall⟩
    · rename_i hbusy
      constructor
      · intro herror
        cases herror
      · rintro ⟨-, hall⟩
        have hfirst := hall 0 (Nat.zero_lt_succ n)
        rw [← h.advance_fst] at hfirst
        exact absurd (by simpa using hfirst) hbusy

/-- A port is handed out in its turn. Only an allocator that passes over busy ports lets turns pass. -/
theorem Ready.exists_turn_of_nextPort (h : a.Ready) {busy : Option (List UInt16)} {port : UInt16} {b : Allocator}
    (hnext : a.nextPort busy = (.ok port, b)) :
    ∃ i, port = a.turn i ∧ After a (i + 1) b ∧ (a.probe = false → i = 0) := by
  have hadvance : a.nextPort busy = (.ok a.advance.1, a.advance.2) →
      ∃ i, port = a.turn i ∧ After a (i + 1) b ∧ (a.probe = false → i = 0) := by
    intro hfirst
    obtain ⟨hport, rfl⟩ := Prod.mk.inj (hnext.symm.trans hfirst)
    exact ⟨0, (Except.ok.inj hport).trans h.advance_fst, h.after_advance, fun _ => rfl⟩
  cases busy with
  | none => exact hadvance rfl
  | some busy =>
    cases hprobe : a.probe with
    | false =>
      rw [hprobe] at hadvance
      exact hadvance (nextPort_of_probe_eq_false hprobe _)
    | true =>
      have hfree := (nextPort_of_probe hprobe busy).symm.trans hnext
      obtain ⟨i, -, hport, hafter, -, -⟩ := h.exists_turn_of_firstFree hfree
      exact ⟨i, hport, hafter, fun hfalse => by cases hfalse⟩

/-- Nothing can be handed out only if somebody listens on every port of the range. -/
theorem Ready.nextPort_eq_error_iff (h : a.Ready) {busy : Option (List UInt16)} {f : Fault} :
    (a.nextPort busy).1 = .error f ↔ f = .portsExhausted a.min a.max ∧ a.probe = true ∧
      ∃ listening, busy = some listening ∧ ∀ port, a.min ≤ port → port < a.max → port ∈ listening := by
  cases busy with
  | none =>
    rw [nextPort]
    simp
  | some busy =>
    cases hprobe : a.probe with
    | false =>
      rw [nextPort, hprobe]
      simp
    | true =>
      rw [nextPort_of_probe hprobe, h.firstFree_eq_error_iff]
      constructor
      · rintro ⟨hf, hall⟩
        refine ⟨hf, rfl, busy, rfl, fun port hmin hmax => ?_⟩
        obtain ⟨i, hi, rfl⟩ := h.exists_turn hmin hmax
        exact hall i hi
      · rintro ⟨hf, -, listening, hlistening, hall⟩
        obtain rfl := Option.some.inj hlistening
        exact ⟨hf, fun i _ => hall _ (h.turn_mem i).1 (h.turn_mem i).2⟩

/-! ## The allocator of a range -/

theorem ready_new {min max : UInt16} (h : min < max) : (new min max).Ready := by
  rw [UInt16.lt_iff_toNat_lt] at h
  have hlast := max.toNat_lt
  refine ⟨Nat.le_refl _, ?_⟩
  simp only [new]
  split
  · rename_i hleast
    rw [UInt16.lt_iff_toNat_lt, clampPort, UInt16.toNat_ofNat'] at hleast
    have hclamp : Nat.min (min.toNat + 1) 65535 = min.toNat + 1 := Nat.min_eq_left (by omega)
    rw [hclamp] at hleast
    omega
  · exact h

theorem ready_ofRange {r : PortRange} (h : r.min < r.max) : (ofRange r).Ready := by
  rw [ofRange]
  split
  · exact ⟨(ready_new h).min_le, (ready_new h).lt_max⟩
  · exact ready_new h

/-- The allocator of a part of a range has ports to hand out. -/
theorem ready_slice {r : PortRange} {index count : Nat} (h : slice r index count = .ok a) : a.Ready := by
  rw [slice] at h
  split at h
  · cases h
  · dsimp only at h
    split at h
    · cases h
    · split at h
      · rename_i hspan hfinish
        obtain rfl := Except.ok.inj h
        have hcount : 0 < Nat.max count 1 := Nat.lt_of_lt_of_le Nat.zero_lt_one (Nat.le_max_right _ _)
        have hwidth : 0 < (r.max.toNat - r.min.toNat) / Nat.max count 1 :=
          Nat.div_pos (Nat.le_of_not_lt hspan) hcount
        refine ready_ofRange ?_
        rw [UInt16.lt_iff_toNat_lt, UInt16.toNat_ofNat', UInt16.toNat_ofNat', Nat.mod_eq_of_lt hfinish,
          Nat.mod_eq_of_lt (by omega)]
        omega
      · cases h

end Conformance.Ports.Allocator
