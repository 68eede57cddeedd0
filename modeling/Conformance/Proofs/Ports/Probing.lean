import Conformance.Ports.Listening
import Conformance.Proofs.Ports.Slices

/-!
# The first free port in cyclic order

From the next port on, the ports of a range come in a cyclic order, its `round`: each of them once (`Ready.round_eq`).
A probing allocator hands out the first port of this order that nobody listens on, and goes on behind it. If somebody
listens on every port, it hands out nothing and stays where it is. Without a table of sockets it takes the next port,
as an allocator does that trusts its range.
-/
namespace Conformance.Ports.Allocator

variable {a b : Allocator} {busy : List UInt16} {port : UInt16}

/-! ## Which allocators there are -/

/-- The allocators that are made, and what requests make of them. -/
inductive Reachable : Allocator → Prop
  | new (min max : UInt16) : Reachable (new min max)
  | probing (min max : UInt16) : Reachable (probing min max)
  | ofRange (r : PortRange) : Reachable (ofRange r)
  | slice {r : PortRange} {index count : Nat} {a : Allocator} (h : slice r index count = .ok a) : Reachable a
  | nextPort {a : Allocator} (h : Reachable a) (busy : Option (List UInt16)) : Reachable (a.nextPort busy).2

theorem range_firstFree (busy : List UInt16) (n : Nat) (a : Allocator) : (firstFree busy n a).2.range = a.range := by
  induction n generalizing a with
  | zero => rfl
  | succ n ih =>
    rw [firstFree]
    dsimp only
    split
    · exact ih a.advance.2
    · rfl

theorem range_nextPort (a : Allocator) (busy : Option (List UInt16)) : (a.nextPort busy).2.range = a.range := by
  cases busy with
  | none => rfl
  | some busy =>
    cases hprobe : a.probe with
    | false =>
      rw [nextPort_of_probe_eq_false hprobe]
      rfl
    | true =>
      rw [nextPort_of_probe hprobe]
      exact range_firstFree busy _ a

theorem ready_of_next_eq_min (h : a.min < a.max) (hnext : a.next = a.min) : a.Ready :=
  ⟨Nat.le_of_eq (congrArg UInt16.toNat hnext.symm), hnext ▸ UInt16.lt_iff_toNat_lt.1 h⟩

/-- Unless its range is empty, the next port of an allocator lies in the range at all times. -/
theorem Reachable.ready (h : a.Reachable) (hrange : a.min < a.max) : a.Ready := by
  induction h with
  | new min max => exact ready_of_next_eq_min hrange rfl
  | probing min max => exact ready_of_next_eq_min hrange rfl
  | ofRange r =>
    refine ready_of_next_eq_min hrange ?_
    rw [Allocator.ofRange]
    split <;> rfl
  | slice h => exact ready_slice h
  | @nextPort a h busy ih =>
    obtain ⟨hmin, hmax⟩ := Prod.mk.inj (range_nextPort a busy)
    rw [hmin, hmax] at hrange
    obtain ⟨k, hafter⟩ := (ih hrange).exists_after_nextPort busy
    exact hafter.ready

/-! ## The cyclic order -/

/-- The ports from `first` up to but without `last`. -/
def ports (first last : UInt16) : List UInt16 :=
  (List.range' first.toNat (last.toNat - first.toNat)).map UInt16.ofNat

/-- The ports of the range in cyclic order, beginning with the next one. -/
def round (a : Allocator) : List UInt16 := ports a.next a.max ++ ports a.min a.next

/-- What becomes of an allocator that hands out `port`: the port behind it comes next. -/
def behind (a : Allocator) (port : UInt16) : Allocator :=
  { a with next := if port.toNat + 1 < a.max.toNat then UInt16.ofNat (port.toNat + 1) else a.min }

theorem length_ports (first last : UInt16) : (ports first last).length = last.toNat - first.toNat := by
  rw [ports, List.length_map, List.length_range']

/-- The round of an allocator goes through the ports of its turns. -/
theorem Ready.round_eq (h : a.Ready) : a.round = (List.range a.width).map a.turn := by
  have hmin := h.min_le
  have hmax := h.lt_max
  have hlength : a.round.length = ((List.range a.width).map a.turn).length := by
    rw [round, List.length_append, length_ports, length_ports, List.length_map, List.length_range, width]
    omega
  refine List.ext_getElem hlength fun i hi hi' => ?_
  rw [List.length_map, List.length_range] at hi'
  rw [List.getElem_map, List.getElem_range, turn]
  -- a turn is in the first part of the round up to the last port, and in the second part behind it
  by_cases hwrap : i < a.max.toNat - a.next.toNat
  · have hplace : a.next.toNat - a.min.toNat + i < a.width := by
      rw [width]
      omega
    simp only [round]
    rw [List.getElem_append_left (by rwa [length_ports]), Nat.mod_eq_of_lt hplace]
    simp only [ports, List.getElem_map, List.getElem_range', Nat.one_mul]
    congr 1
    omega
  · have hplace : a.next.toNat - a.min.toNat + i = i - (a.max.toNat - a.next.toNat) + a.width := by
      rw [width]
      omega
    have hlt : i - (a.max.toNat - a.next.toNat) < a.width := Nat.lt_of_le_of_lt (Nat.sub_le _ _) hi'
    simp only [round]
    rw [List.getElem_append_right (by rw [length_ports]; omega), hplace, Nat.add_mod_right, Nat.mod_eq_of_lt hlt]
    simp only [ports, List.getElem_map, List.getElem_range', Nat.one_mul, List.length_map, List.length_range']

theorem Ready.mem_round_iff (h : a.Ready) : port ∈ a.round ↔ a.Holds port := by
  rw [h.round_eq]
  constructor
  · intro hport
    obtain ⟨i, -, rfl⟩ := List.mem_map.1 hport
    exact h.holds_turn i
  · rintro ⟨hmin, hmax⟩
    obtain ⟨i, hi, rfl⟩ := h.exists_turn hmin hmax
    exact List.mem_map.2 ⟨i, List.mem_range.2 hi, rfl⟩

theorem Ready.round_nodup (h : a.Ready) : a.round.Nodup := by
  rw [h.round_eq]
  refine List.Nodup.map_on (fun i hi j hj heq => ?_) List.nodup_range
  have hround := h.turn_eq_iff.1 heq
  rwa [Nat.mod_eq_of_lt (List.mem_range.1 hi), Nat.mod_eq_of_lt (List.mem_range.1 hj)] at hround

/-- What stands in front of a port of the round are the turns before it. -/
theorem Ready.round_eq_append_iff (h : a.Ready) {front : List UInt16} :
    (∃ back, a.round = front ++ port :: back) ↔
      ∃ i < a.width, port = a.turn i ∧ front = (List.range i).map a.turn := by
  rw [h.round_eq]
  constructor
  · rintro ⟨back, hround⟩
    have hlength := congrArg List.length hround
    simp only [List.length_map, List.length_range, List.length_append, List.length_cons] at hlength
    refine ⟨front.length, by omega, ?_, ?_⟩
    · have hport := congrArg (·[front.length]?) hround
      simpa [show front.length < a.width by omega, eq_comm] using hport
    · have hfront := congrArg (List.take front.length) hround
      rw [List.take_left, ← List.map_take, List.take_range, Nat.min_eq_left (by omega)] at hfront
      exact hfront.symm
  · rintro ⟨i, hi, rfl, rfl⟩
    refine ⟨((List.range a.width).drop (i + 1)).map a.turn, ?_⟩
    rw [← List.map_cons, ← List.map_append]
    congr 1
    refine (List.take_append_drop i _).symm.trans ?_
    rw [List.take_range, Nat.min_eq_left hi.le, List.drop_eq_getElem_cons (by simpa using hi), List.getElem_range]

/-! ## What a request does to the position -/

theorem After.eq {n : Nat} (h : After a n b) : b = { a with next := a.turn n } := by
  have hnext : b.next = a.turn n := by rw [← h.ready.turn_zero, h.turn_eq, Nat.add_zero]
  cases b
  cases h.min_eq
  cases h.max_eq
  cases h.probe_eq
  cases hnext
  rfl

theorem Ready.after (h : a.Ready) (n : Nat) : After a n { a with next := a.turn n } where
  min_eq := rfl
  max_eq := rfl
  probe_eq := rfl
  ready := ⟨UInt16.le_iff_toNat_le.1 (h.turn_mem n).1, UInt16.lt_iff_toNat_lt.1 (h.turn_mem n).2⟩
  turn_eq i := by
    rw [turn, h.toNat_turn, turn, Nat.add_sub_cancel_left]
    show UInt16.ofNat (a.min.toNat + ((a.next.toNat - a.min.toNat + n) % a.width + i) % a.width) = _
    rw [Nat.mod_add_mod, Nat.add_assoc]
    rfl

theorem Ready.after_behind (h : a.Ready) (n : Nat) : After a (n + 1) (a.behind (a.turn n)) :=
  (h.after n).trans (h.after n).ready.after_advance

/-- A whole round leads back to where it began. -/
theorem Ready.after_width (h : a.Ready) (hafter : After a a.width b) : b = a := by
  have hround : a.turn a.width = a.next := by
    rw [← h.turn_zero, h.turn_eq_iff, Nat.mod_self, Nat.zero_mod]
  rw [hafter.eq, hround]

theorem After.round_eq {n : Nat} (h : After a n b) : b.round = (List.range' n a.width).map a.turn := by
  have hwidth : b.width = a.width := by rw [width, width, h.min_eq, h.max_eq]
  rw [h.ready.round_eq, hwidth, List.range'_eq_map_range, List.map_map]
  exact List.map_congr_left fun i _ => h.turn_eq i

/-- An allocator that goes on behind a port has the ports in front of it last, and then the port itself. -/
theorem Ready.round_behind (h : a.Ready) {front back : List UInt16} (hround : a.round = front ++ port :: back) :
    (a.behind port).round = back ++ (front ++ [port]) := by
  obtain ⟨i, hi, rfl, rfl⟩ := h.round_eq_append_iff.1 ⟨back, hround⟩
  have hwidth : a.width = i + 1 + (a.width - (i + 1)) := (Nat.add_sub_of_le hi).symm
  have hfront : (List.range i).map a.turn ++ [a.turn i] = (List.range' 0 (i + 1)).map a.turn := by
    rw [← List.range_eq_range', List.range_succ, List.map_append, List.map_singleton]
  have hback : back = (List.range' (i + 1) (a.width - (i + 1))).map a.turn := by
    rw [h.round_eq, hwidth, List.range_eq_range', ← List.range'_append_1, List.map_append, Nat.zero_add, ← hfront,
      List.append_assoc] at hround
    exact (List.cons.inj (List.append_cancel_left hround)).2.symm
  -- the turns behind the end of this round are those of its beginning
  have hnext : (List.range' a.width (i + 1)).map a.turn = (List.range' 0 (i + 1)).map a.turn := by
    rw [List.range'_eq_map_range, ← List.range_eq_range', List.map_map]
    exact List.map_congr_left fun j _ => h.turn_eq_iff.2 (Nat.add_mod_left _ _)
  have hsplit : List.range' (i + 1) a.width =
      List.range' (i + 1) (a.width - (i + 1)) ++ List.range' a.width (i + 1) := by
    have happend := List.range'_append_1 (s := i + 1) (m := a.width - (i + 1)) (n := i + 1)
    rw [Nat.add_sub_of_le hi, Nat.sub_add_cancel hi] at happend
    exact happend.symm
  rw [(h.after_behind i).round_eq, hsplit, List.map_append, hnext, hback, hfront]

/-! ## What a request is answered -/

theorem Ready.after_of_firstFree_error {a : Allocator} (h : a.Ready) {n : Nat} {f : Fault}
    (hfree : firstFree busy n a = (.error f, b)) : After a n b := by
  induction n generalizing a with
  | zero =>
    obtain rfl := (Prod.mk.inj hfree).2
    exact h.after_zero
  | succ n ih =>
    rw [firstFree] at hfree
    dsimp only at hfree
    split at hfree
    · rw [Nat.add_comm]
      exact h.after_advance.trans (ih h.after_advance.ready hfree)
    · cases hfree

/-- The first free port is that of the first turn whose port nobody listens on. -/
theorem Ready.firstFree_eq_ok_iff (h : a.Ready) {n : Nat} :
    firstFree busy n a = (.ok port, b) ↔
      ∃ i < n, port = a.turn i ∧ b = a.behind port ∧ (∀ j < i, a.turn j ∈ busy) ∧ port ∉ busy := by
  constructor
  · intro hfree
    obtain ⟨i, hi, rfl, hafter, hbefore, hport⟩ := h.exists_turn_of_firstFree hfree
    exact ⟨i, hi, rfl, hafter.eq.trans (h.after_behind i).eq.symm, hbefore, hport⟩
  · rintro ⟨i, hi, rfl, rfl, hbefore, hport⟩
    cases hfree : firstFree busy n a with
    | mk answer c =>
      cases answer with
      | error f =>
        have hall := (h.firstFree_eq_error_iff.1 (congrArg Prod.fst hfree)).2
        exact absurd (hall i hi) hport
      | ok other =>
        obtain ⟨k, -, rfl, hafter, hbefore', hother⟩ := h.exists_turn_of_firstFree hfree
        -- of two turns with a free port and busy ones before it none is earlier
        have hki : k = i := by
          rcases Nat.lt_trichotomy k i with hlt | heq | hlt
          · exact absurd (hbefore k hlt) hother
          · exact heq
          · exact absurd (hbefore' i hlt) hport
        rw [hki] at hafter ⊢
        rw [hafter.eq, (h.after_behind i).eq]

/-- What is handed out is the first port of the round that nobody listens on. -/
theorem Ready.nextPort_eq_ok_iff (h : a.Ready) (hprobe : a.probe = true) :
    a.nextPort (some busy) = (.ok port, b) ↔
      (∃ front back, a.round = front ++ port :: back ∧ ∀ p ∈ front, p ∈ busy) ∧ port ∉ busy ∧ b = a.behind port := by
  rw [nextPort_of_probe hprobe busy, h.firstFree_eq_ok_iff]
  constructor
  · rintro ⟨i, hi, rfl, rfl, hbefore, hport⟩
    obtain ⟨back, hround⟩ := h.round_eq_append_iff.2 ⟨i, hi, rfl, rfl⟩
    refine ⟨⟨_, back, hround, fun p hp => ?_⟩, hport, rfl⟩
    obtain ⟨j, hj, rfl⟩ := List.mem_map.1 hp
    exact hbefore j (List.mem_range.1 hj)
  · rintro ⟨⟨front, back, hround, hfront⟩, hport, rfl⟩
    obtain ⟨i, hi, rfl, rfl⟩ := h.round_eq_append_iff.1 ⟨back, hround⟩
    exact ⟨i, hi, rfl, rfl, fun j hj => hfront _ (List.mem_map.2 ⟨j, List.mem_range.2 hj, rfl⟩), hport⟩

/-- Nothing is handed out only if somebody listens on every port, and then nothing changes. -/
theorem Ready.nextPort_exhausted_iff (h : a.Ready) (hprobe : a.probe = true) {f : Fault} :
    a.nextPort (some busy) = (.error f, b) ↔
      (∀ port, a.Holds port → port ∈ busy) ∧ f = .portsExhausted a.min a.max ∧ b = a := by
  constructor
  · intro hnext
    obtain ⟨hf, -, listening, hlistening, hall⟩ := h.nextPort_eq_error_iff.1 (congrArg Prod.fst hnext)
    obtain rfl := Option.some.inj hlistening
    rw [nextPort_of_probe hprobe busy] at hnext
    exact ⟨fun port hport => hall port hport.1 hport.2, hf, h.after_width (h.after_of_firstFree_error hnext)⟩
  · rintro ⟨hall, hf, hb⟩
    rw [hf, hb]
    have hfails := h.nextPort_eq_error_iff.2 ⟨rfl, hprobe, busy, rfl, fun port hmin hmax => hall port ⟨hmin, hmax⟩⟩
    rw [nextPort_of_probe hprobe busy] at hfails ⊢
    have hfree : firstFree busy a.width a = (.error _, _) := Prod.ext hfails rfl
    rw [h.after_width (h.after_of_firstFree_error hfree)] at hfree
    exact hfree

theorem listeningOn_eq_none_iff {tables : List (Option String)} :
    listeningOn tables = none ↔ ∀ table ∈ tables, table = none := by
  rw [listeningOn]
  cases hreadable : tables.filterMap id with
  | nil => simpa using hreadable
  | cons first later =>
    simp only [reduceCtorEq, false_iff, not_forall]
    have hfirst : first ∈ tables.filterMap id := hreadable ▸ List.mem_cons_self
    obtain ⟨table, htable, hsome⟩ := List.mem_filterMap.1 hfirst
    exact ⟨table, htable, fun hnone => by cases hnone.symm.trans hsome⟩

/-- An allocator whose range is not empty has each port of it once in its round, whatever was asked of it before. If it
passes over busy ports, it hands out the first port of the round that nobody listens on, and the round begins behind
this port from then on. It fails exactly if somebody listens on every port of the range, and is left as it was. If no
table of sockets can be read, it does what the allocator does that trusts the same range. -/
theorem probing_exact (h : a.Reachable) (hrange : a.min < a.max) :
    (a.round.Nodup ∧ ∀ port, port ∈ a.round ↔ a.min ≤ port ∧ port < a.max) ∧
    (a.probe = true → ∀ busy b,
      (∀ port, a.nextPort (some busy) = (.ok port, b) ↔
        ∃ front back, a.round = front ++ port :: back ∧ (∀ p ∈ front, p ∈ busy) ∧ port ∉ busy ∧
          b = a.behind port ∧ b.round = back ++ (front ++ [port])) ∧
      ∀ f, a.nextPort (some busy) = (.error f, b) ↔
        (∀ port, a.min ≤ port → port < a.max → port ∈ busy) ∧ f = .portsExhausted a.min a.max ∧ b = a) ∧
    ∀ tables, (∀ table ∈ tables, table = none) → ∀ busy,
      (a.nextPort (listeningOn tables)).1 = (nextPort { a with probe := false } busy).1 ∧
        (a.nextPort (listeningOn tables)).2 = { (nextPort { a with probe := false } busy).2 with probe := a.probe } := by
  have hready := h.ready hrange
  refine ⟨⟨hready.round_nodup, fun port => hready.mem_round_iff⟩, fun hprobe busy b => ⟨fun port => ?_, fun f => ?_⟩,
    fun tables hnone busy => ?_⟩
  · rw [hready.nextPort_eq_ok_iff hprobe]
    constructor
    · rintro ⟨⟨front, back, hround, hfront⟩, hport, rfl⟩
      exact ⟨front, back, hround, hfront, hport, rfl, hready.round_behind hround⟩
    · rintro ⟨front, back, hround, hfront, hport, hb, -⟩
      exact ⟨⟨front, back, hround, hfront⟩, hport, hb⟩
  · rw [hready.nextPort_exhausted_iff hprobe]
    simp only [Holds, range, and_imp]
  · have hplain : nextPort { a with probe := false } busy = _ := nextPort_of_probe_eq_false rfl busy
    rw [listeningOn_eq_none_iff.2 hnone, hplain]
    exact ⟨rfl, rfl⟩

/-- The last ports there are, of which one was passed over and one was handed out. -/
theorem probing_exact_last_ports :
    let a : Allocator := ⟨65532, 65535, 65534, true⟩
    (a.Reachable ∧ a.min < a.max ∧ a.probe = true) ∧
      a.nextPort (some [65534]) = (.ok 65532, ⟨65532, 65535, 65533, true⟩) ∧
      a.nextPort (some [65532, 65533, 65534]) = (.error (.portsExhausted 65532 65535), a) ∧
      (a.nextPort (listeningOn [none, none])).1 = .ok 65534 := by
  have hreachable : Reachable ⟨65532, 65535, 65534, true⟩ := (Reachable.probing 65532 65535).nextPort (some [65532])
  have hexact := probing_exact hreachable (by decide)
  have hround : round ⟨65532, 65535, 65534, true⟩ = [65534, 65532, 65533] := by decide
  refine ⟨⟨hreachable, by decide, rfl⟩, ?_, ?_, ?_⟩
  · have hfront : ∀ p ∈ [(65534 : UInt16)], p ∈ [(65534 : UInt16)] := fun _ hp => hp
    exact ((hexact.2.1 rfl _ _).1 _).2 ⟨[65534], [65533], hround, hfront, by decide, by decide, by decide⟩
  · have hlistening : ∀ port ∈ round ⟨65532, 65535, 65534, true⟩, port ∈ [(65532 : UInt16), 65533, 65534] := by
      rw [hround]
      simp
    exact ((hexact.2.1 rfl _ _).2 _).2
      ⟨fun port hmin hmax => hlistening port ((hexact.1.2 port).2 ⟨hmin, hmax⟩), rfl, rfl⟩
  · exact (hexact.2.2 [none, none] (by decide) none).1

end Conformance.Ports.Allocator
