import Conformance.Proofs.Ports.Probing

/-!
# The ranges that allocators are made for

An allocator is made for any two numbers. Where the second one is not behind the first, the range is widened to the
first port, which takes a port behind it: there is one for every port but the last (`ready_new_iff`). So an allocator
keeps to the range that it reports, and passes over no port while nobody listens, exactly if its range does not begin
with the last port.
-/
namespace Conformance.Ports.Allocator

variable {a : Allocator} {min max : UInt16}

/-! ## Requests while nobody listens -/

/-- Nobody is seen to listen on a port of the range. -/
def Idle (a : Allocator) (seen : Option (List UInt16)) : Prop :=
  ∀ listening ∈ seen, ∀ port ∈ listening, ¬ a.Holds port

/-- The request hands out the next port, whether the allocator looks for busy ports or not. -/
theorem Ready.nextPort_of_idle (h : a.Ready) {seen : Option (List UInt16)} (hidle : a.Idle seen) :
    a.nextPort seen = (.ok a.advance.1, a.advance.2) := by
  cases seen with
  | none => rfl
  | some listening =>
    cases hprobe : a.probe with
    | false => exact nextPort_of_probe_eq_false hprobe _
    | true =>
      have hfree : a.advance.1 ∉ listening := by
        intro hmem
        apply hidle listening rfl _ hmem
        rw [h.advance_fst]
        exact h.holds_turn 0
      obtain ⟨n, hn⟩ : ∃ n, a.width = n + 1 := Nat.exists_eq_succ_of_ne_zero (Nat.ne_of_gt h.width_pos)
      rw [nextPort_of_probe hprobe, hn, firstFree]
      simp [hfree]

/-- While nobody listens, the answers are the ports of the turns. -/
theorem Ready.answers_of_idle (h : a.Ready) {busy : List (Option (List UInt16))} (hidle : ∀ seen ∈ busy, a.Idle seen) :
    answers busy a = (List.range busy.length).map fun k => .ok (a.turn k) := by
  apply h.answers_eq_turns
  intro seen hseen n b hb
  apply hb.ready.nextPort_of_idle
  intro listening hlistening port hport hholds
  exact hidle seen hseen listening hlistening port hport (hb.holds_iff.1 hholds)

/-! ## The range of a new allocator -/

theorem toNat_clampPort (n : Nat) : (clampPort n).toNat = Min.min n 65535 := by
  have hle : Nat.min n 65535 ≤ 65535 := Nat.min_le_right n 65535
  rw [clampPort, UInt16.toNat_ofNat', Nat.mod_eq_of_lt (by omega)]

/-- The range ends behind its first port, as far as there are ports, or where it is meant to if that is later. -/
theorem toNat_max_new (min max : UInt16) :
    (new min max).max.toNat = Max.max (Min.min (min.toNat + 1) 65535) max.toNat := by
  simp only [new]
  split
  · rename_i hless
    rw [UInt16.lt_iff_toNat_lt, toNat_clampPort] at hless
    rw [toNat_clampPort]
    omega
  · rename_i hless
    rw [UInt16.lt_iff_toNat_lt, toNat_clampPort] at hless
    omega

/-- Only behind the last port there is no room for the end of a range. -/
theorem min_lt_max_new_iff : (new min max).min < (new min max).max ↔ min ≠ 65535 := by
  have hmin := min.toNat_lt
  have hmax := max.toNat_lt
  have hlast : min = 65535 ↔ min.toNat = 65535 := UInt16.toNat_inj.symm
  rw [UInt16.lt_iff_toNat_lt, toNat_max_new, ne_eq, hlast]
  show min.toNat < _ ↔ _
  omega

theorem ready_new_of_ne (h : min ≠ 65535) : (new min max).Ready :=
  ready_of_next_eq_min (min_lt_max_new_iff.2 h) rfl

theorem ready_probing_of_ne (h : min ≠ 65535) : (probing min max).Ready :=
  ready_of_next_eq_min (a := probing min max) (min_lt_max_new_iff.2 h) rfl

/-- Of the range that begins with the last port only its end is left. -/
theorem new_last (max : UInt16) : new 65535 max = ⟨65535, 65535, 65535, false⟩ := by
  have hmax := max.toNat_lt
  have hend : (new 65535 max).max = 65535 := by
    apply UInt16.toNat_inj.1
    rw [toNat_max_new]
    show Max.max (Min.min (65535 + 1) 65535) max.toNat = 65535
    omega
  calc new 65535 max = ⟨65535, (new 65535 max).max, 65535, false⟩ := rfl
    _ = ⟨65535, 65535, 65535, false⟩ := by rw [hend]

/-! ## The promise of a half-open range -/

/-- However often the allocator is asked, each port that it hands out lies in the range that it reports. -/
def KeepsToRange (a : Allocator) : Prop := ∀ busy port, .ok port ∈ answers busy a → a.Holds port

theorem Ready.keepsToRange (h : a.Ready) : a.KeepsToRange := fun _ _ => h.holds_of_mem_answers

/-- An allocator that reports an empty range and has a port to hand out does not keep to the range. -/
theorem not_keepsToRange_of_empty (hempty : ¬ a.min < a.max) {busy : List (Option (List UInt16))} {port : UInt16}
    (hport : .ok port ∈ answers busy a) : ¬ a.KeepsToRange := by
  intro hkeeps
  obtain ⟨hmin, hmax⟩ := hkeeps busy port hport
  exact hempty (UInt16.lt_of_le_of_lt hmin hmax)

/-- Two allocators are made for any two numbers, one that trusts its range and one that passes over busy ports. Each
of them keeps to the range that it reports, however often it is asked, exactly if the range does not begin with the
last port; and exactly then both hand out the same ports while nobody listens. -/
theorem keepsToRange_iff (min max : UInt16) :
    ((new min max).KeepsToRange ↔ min ≠ 65535) ∧
    ((probing min max).KeepsToRange ↔ min ≠ 65535) ∧
    ((∀ idle, (∀ seen ∈ idle, (new min max).Idle seen) → answers idle (probing min max) = answers idle (new min max)) ↔
      min ≠ 65535) := by
  refine ⟨⟨?_, fun h => (ready_new_of_ne h).keepsToRange⟩, ⟨?_, fun h => (ready_probing_of_ne h).keepsToRange⟩, ?_, ?_⟩
  · rintro hkeeps rfl
    rw [new_last] at hkeeps
    have hport : .ok 65535 ∈ answers [none] ⟨65535, 65535, 65535, false⟩ := by decide
    exact not_keepsToRange_of_empty (by decide) hport hkeeps
  · rintro hkeeps rfl
    rw [probing, new_last] at hkeeps
    have hport : .ok 65535 ∈ answers [none] ⟨65535, 65535, 65535, true⟩ := by decide
    exact not_keepsToRange_of_empty (by decide) hport hkeeps
  · rintro hsame rfl
    rw [probing, new_last] at hsame
    -- nobody listens on a port of an empty range
    have hdiffer := hsame [some []] (by simp [Idle])
    revert hdiffer
    decide
  · intro h idle hidle
    rw [(ready_probing_of_ne h).answers_of_idle hidle, (ready_new_of_ne h).answers_of_idle hidle]
    rfl

/-- The allocator that is made for the last port hands it out again and again, and reports a range without it; the one
that passes over busy ports hands out nothing. -/
theorem last_port_outside_range :
    (new 65535 65535).range = (65535, 65535) ∧
      answers [some [], some []] (new 65535 65535) = [.ok 65535, .ok 65535] ∧
      ¬ (new 65535 65535).Holds 65535 ∧
      answers [some [], some []] (probing 65535 65535) =
        [.error (.portsExhausted 65535 65535), .error (.portsExhausted 65535 65535)] := by
  refine ⟨by decide, by decide, ?_, by decide⟩
  rintro ⟨-, hmax⟩
  revert hmax
  decide

end Conformance.Ports.Allocator
