import Conformance.Output.Diff

/-!
# Where the searches from both ends meet

The furthest points that a search has led to stay inside the box, or are left on their diagonal for good (`Explored`).
Where the points of both searches do not reach one another yet they are clear of the far sides of the box (`Clear`), so
that the first place where they do is a point of the box (`Explored.step_inside`). If the box begins and ends with lines
that differ, that place is none of the two ends (`middle?_inside`).
-/
namespace Conformance.Output

/-! ## Lines that are the same -/

namespace Sides

variable {s : Sides} {i j t limit : Nat}

theorem commonPrefix_le (s : Sides) (i j limit : Nat) : s.commonPrefix i j limit ≤ limit := by
  induction limit generalizing i j with
  | zero => exact Nat.le_refl 0
  | succ limit ih =>
    have hrest := ih (i + 1) (j + 1)
    rw [commonPrefix]
    split <;> omega

theorem same_of_lt_commonPrefix (h : t < s.commonPrefix i j limit) : s.same (i + t) (j + t) = true := by
  induction limit generalizing i j t with
  | zero => exact absurd h (Nat.not_lt_zero t)
  | succ limit ih =>
    rw [commonPrefix] at h
    split at h
    · rename_i hsame
      cases t with
      | zero => exact hsame
      | succ t =>
        have hrest := ih (Nat.lt_of_succ_lt_succ h)
        rwa [Nat.succ_add_eq_add_succ, Nat.succ_add_eq_add_succ] at hrest
    · exact absurd h (Nat.not_lt_zero t)

/-- The lines behind the common ones differ. -/
theorem not_same_commonPrefix (s : Sides) (i j limit : Nat) (h : s.commonPrefix i j limit < limit) :
    s.same (i + s.commonPrefix i j limit) (j + s.commonPrefix i j limit) = false := by
  induction limit generalizing i j with
  | zero => exact absurd h (Nat.not_lt_zero _)
  | succ limit ih =>
    rw [commonPrefix] at h ⊢
    split
    · rename_i hsame
      rw [if_pos hsame] at h
      have hrest := ih (i + 1) (j + 1) (Nat.lt_of_succ_lt_succ h)
      rwa [Nat.succ_add_eq_add_succ, Nat.succ_add_eq_add_succ] at hrest
    · rename_i hsame
      exact Bool.not_eq_true _ ▸ hsame

theorem commonSuffix_le (s : Sides) (i j limit : Nat) : s.commonSuffix i j limit ≤ limit := by
  induction limit generalizing i j with
  | zero => exact Nat.le_refl 0
  | succ limit ih =>
    have hrest := ih (i - 1) (j - 1)
    rw [commonSuffix]
    split <;> omega

theorem same_of_lt_commonSuffix (h : t < s.commonSuffix i j limit) :
    t < i ∧ t < j ∧ s.same (i - (t + 1)) (j - (t + 1)) = true := by
  induction limit generalizing i j t with
  | zero => exact absurd h (Nat.not_lt_zero t)
  | succ limit ih =>
    rw [commonSuffix] at h
    split at h
    · rename_i hhead
      simp only [Bool.and_eq_true, decide_eq_true_eq] at hhead
      obtain ⟨⟨hi, hj⟩, hsame⟩ := hhead
      cases t with
      | zero => exact ⟨hi, hj, hsame⟩
      | succ t =>
        obtain ⟨hti, htj, hrest⟩ := ih (Nat.lt_of_succ_lt_succ h)
        rw [Nat.sub_sub, Nat.sub_sub, Nat.add_comm 1] at hrest
        exact ⟨by omega, by omega, hrest⟩
    · exact absurd h (Nat.not_lt_zero t)

/-- The lines in front of the common ones differ. -/
theorem not_same_commonSuffix (s : Sides) (i j limit : Nat) (h : s.commonSuffix i j limit < limit)
    (hi : s.commonSuffix i j limit < i) (hj : s.commonSuffix i j limit < j) :
    s.same (i - (s.commonSuffix i j limit + 1)) (j - (s.commonSuffix i j limit + 1)) = false := by
  induction limit generalizing i j with
  | zero => exact absurd h (Nat.not_lt_zero _)
  | succ limit ih =>
    rw [commonSuffix] at h hi hj ⊢
    split
    · rename_i hhead
      rw [if_pos hhead] at h hi hj
      have hrest := ih (i - 1) (j - 1) (by omega) (by omega) (by omega)
      rwa [Nat.sub_sub, Nat.sub_sub, Nat.add_comm 1] at hrest
    · rename_i hhead
      rw [if_neg hhead] at hi hj
      simpa [hi, hj] using hhead

end Sides

/-! ## The furthest points -/

/-- The diagonals that have been led to in the last of `d` rounds. -/
def Led (d : Nat) (k : Int) : Prop := k.natAbs < d ∧ (k + d) % 2 = 1

theorem mem_diagonals {d : Nat} {k : Int} : k ∈ diagonals d ↔ Led (d + 1) k := by
  rw [diagonals, List.mem_map, Led]
  constructor
  · intro h
    obtain ⟨i, hi, rfl⟩ := h
    have hlt := List.mem_range.1 hi
    omega
  · intro h
    refine ⟨((d - k) / 2).toNat, List.mem_range.2 ?_, ?_⟩ <;> omega

theorem nodup_diagonals (d : Nat) : (diagonals d).Nodup := by
  refine List.pairwise_map.2 (List.nodup_range.imp fun {i j} hne heq => hne ?_)
  omega

namespace Reach

variable {r r' : Reach} {d x : Nat} {j k : Int}

theorem get_set_self (h : (k + r.centre).toNat < r.points.size) : (r.set k x).get k = x := by
  simp [get, set, h]

theorem get_set_of_ne (hk : 0 < k + r.centre) (hne : j ≠ k) : (r.set k x).get j = r.get j := by
  have hplace : (k + r.centre).toNat ≠ (j + r.centre).toNat := by omega
  simp [get, set, hplace]

theorem step_congr (hbelow : r'.get (k - 1) = r.get (k - 1)) (habove : r'.get (k + 1) = r.get (k + 1)) :
    r'.step d k = r.step d k := by
  rw [step, step, hbelow, habove]

/-- A point is reached from the diagonal above or from the one below, whichever leads further. -/
theorem step_cases (r : Reach) (hd : 0 < d) (hk : Led (d + 1) k) :
    (Led d (k + 1) ∧ r.step d k = r.get (k + 1) ∧ (Led d (k - 1) → r.get (k - 1) < r.get (k + 1))) ∨
    (Led d (k - 1) ∧ r.step d k = r.get (k - 1) + 1 ∧ (Led d (k + 1) → r.get (k + 1) ≤ r.get (k - 1))) := by
  simp only [Led] at *
  rw [step]
  split
  · rename_i h
    simp only [Bool.or_eq_true, Bool.and_eq_true, decide_eq_true_eq] at h
    exact .inl ⟨by omega, rfl, by omega⟩
  · rename_i h
    simp only [Bool.or_eq_true, Bool.and_eq_true, decide_eq_true_eq, not_or] at h
    exact .inr ⟨by omega, rfl, by omega⟩

/-- A step leads at least as far as the points on the diagonals beside it. -/
theorem le_step (r : Reach) (hd : 0 < d) (hk : Led (d + 1) k) :
    (Led d (k + 1) → r.get (k + 1) ≤ r.step d k) ∧ (Led d (k - 1) → r.get (k - 1) < r.step d k) := by
  rcases r.step_cases hd hk with ⟨-, hstep, hless⟩ | ⟨-, hstep, hless⟩
  · refine ⟨fun _ => by omega, fun hled => ?_⟩
    have hlt := hless hled
    omega
  · refine ⟨fun hled => ?_, fun _ => by omega⟩
    have hle := hless hled
    omega

end Reach

/-! ## One round of a search -/

section Sweep

variable {d n : Nat} {advance : Int → Nat → Nat} {met : Int → Nat → Bool} {place : Int → Nat → Nat × Nat}

/-- One round of a search: on each diagonal the point that edits lead to is advanced over lines that are the same. -/
def sweep (d : Nat) (advance : Int → Nat → Nat) (met : Int → Nat → Bool) (place : Int → Nat → Nat × Nat) :
    List Int → Reach → Except (Nat × Nat) Reach
  | [], r => .ok r
  | k :: ks, r =>
    if met k (advance k (r.step d k)) then .error (place k (r.step d k))
    else sweep d advance met place ks (r.set k (advance k (r.step d k)))

/-- The diagonals of `n` rounds and those beside them have their places. -/
structure Reach.Fits (r : Reach) (n : Nat) : Prop where
  size : r.points.size = 2 * r.centre + 1
  lt : n < r.centre

theorem Reach.Fits.set {r : Reach} (h : r.Fits n) (k : Int) (x : Nat) : (r.set k x).Fits n :=
  ⟨by rw [Reach.set, Array.size_setIfInBounds]; exact h.size, h.lt⟩

/-- A point that is set in a round is not looked at again in that round. -/
theorem Reach.Fits.step_set {r : Reach} {j k : Int} (h : r.Fits n) (hd : d ≤ n) (hj : Led (d + 1) j) (hk : Led (d + 1) k) (x : Nat) :
    (r.set j x).step d k = r.step d k := by
  have hlt := h.lt
  simp only [Led] at hj hk
  exact Reach.step_congr (Reach.get_set_of_ne (by omega) (by omega)) (Reach.get_set_of_ne (by omega) (by omega))

theorem sweep_error {ks : List Int} {r : Reach} {p : Nat × Nat} (hfits : r.Fits n) (hd : d ≤ n) (hks : ∀ k ∈ ks, Led (d + 1) k)
    (h : sweep d advance met place ks r = .error p) :
    ∃ k ∈ ks, met k (advance k (r.step d k)) = true ∧ p = place k (r.step d k) := by
  induction ks generalizing r with
  | nil => cases h
  | cons k ks ih =>
    obtain ⟨hk, hrest⟩ := List.forall_mem_cons.1 hks
    rw [sweep] at h
    split at h
    · rename_i hmet
      exact ⟨k, List.mem_cons_self, hmet, (Except.error.inj h).symm⟩
    · -- the point that has just been set is not looked at on the diagonals that are left
      obtain ⟨k', hk', hmet, hp⟩ := ih (hfits.set k _) hrest h
      rw [hfits.step_set hd hk (hrest k' hk')] at hmet hp
      exact ⟨k', List.mem_cons_of_mem k hk', hmet, hp⟩

theorem sweep_ok {ks : List Int} {r r' : Reach} (hfits : r.Fits n) (hd : d ≤ n) (hks : ∀ k ∈ ks, Led (d + 1) k)
    (hnodup : ks.Nodup) (h : sweep d advance met place ks r = .ok r') :
    r'.Fits n ∧ (∀ k ∈ ks, r'.get k = advance k (r.step d k) ∧ met k (r'.get k) = false) ∧
      ∀ k, Led (d + 1) k → k ∉ ks → r'.get k = r.get k := by
  induction ks generalizing r with
  | nil =>
    obtain rfl := Except.ok.inj h
    exact ⟨hfits, fun k hk => absurd hk List.not_mem_nil, fun k _ _ => rfl⟩
  | cons k ks ih =>
    obtain ⟨hk, hrest⟩ := List.forall_mem_cons.1 hks
    obtain ⟨hnot, hnodup⟩ := List.nodup_cons.1 hnodup
    have hlt := hfits.lt
    have hsize := hfits.size
    rw [sweep] at h
    split at h
    · cases h
    · rename_i hmet
      obtain ⟨hfits', hdone, hleft⟩ := ih (hfits.set k _) hrest hnodup h
      refine ⟨hfits', List.forall_mem_cons.2 ⟨?_, fun k' hk' => ?_⟩, fun k' hled hk' => ?_⟩
      · have hself : r'.get k = advance k (r.step d k) := by
          rw [hleft k hk hnot]
          simp only [Led] at hk
          exact Reach.get_set_self (by omega)
        rw [hself]
        exact ⟨rfl, Bool.not_eq_true _ ▸ hmet⟩
      · rw [← hfits.step_set hd hk (hrest k' hk')]
        exact hdone k' hk'
      · obtain ⟨hne, hnot'⟩ := not_or.1 (mt List.mem_cons.2 hk')
        simp only [Led] at hk
        rw [hleft k' hled hnot', Reach.get_set_of_ne (by omega) hne]

end Sweep

/-! ## How far a search has come -/

section Explored

variable {N M d e : Nat} {delta k : Int} {r r' : Reach} {advance : Int → Nat → Nat}

/-- What has been reached after `d` rounds in a box of width `N` and height `M`. A point is beyond the right side of the
box only if the one two diagonals below it has come to that side, and below the lower side only if the one two diagonals
above it has come to that. -/
structure Explored (N M d : Nat) (r : Reach) : Prop where
  start : d = 0 → r.get 1 = 0
  le : ∀ k, Led d k → k ≤ r.get k
  long : ∀ k, Led d k → (d : Int) ≤ 2 * r.get k - k + 1
  right : ∀ j k, Led d k → j + 2 = k → (Led d j → r.get j < N) → r.get k ≤ N
  lower : ∀ j k, Led d k → k + 2 = j → (Led d j → (r.get j : Int) < M + j) → (r.get k : Int) ≤ M + k

/-- Points are advanced inside the box. -/
def Stays (N M : Nat) (advance : Int → Nat → Nat) : Prop := ∀ (k : Int) (x : Nat), k ≤ x →
  x ≤ advance k x ∧ (advance k x = x ∨ advance k x ≤ N ∧ (advance k x : Int) ≤ M + k)

/-- The points on the diagonals around `delta` are clear of the right and of the lower side. -/
def Clear (N M d e : Nat) (delta : Int) (r : Reach) : Prop :=
  ∀ k, Led d k → (k - delta).natAbs ≤ e → r.get k < N ∧ (r.get k : Int) < M + k

/-- A further edit leads to a point that is not above the box, and on from the start. -/
theorem Explored.le_step (h : Explored N M d r) (hd : 0 < d) (hk : Led (d + 1) k) :
    k ≤ r.step d k ∧ (d : Int) ≤ 2 * r.step d k - k := by
  rcases r.step_cases hd hk with ⟨hled, hstep, -⟩ | ⟨hled, hstep, -⟩
  · have hle := h.le _ hled
    have hlong := h.long _ hled
    omega
  · have hle := h.le _ hled
    have hlong := h.long _ hled
    omega

/-- A further edit leads no further than the right side, if the diagonal below has not come to it. -/
theorem Explored.step_le_right (h : Explored N M d r) (hd : 0 < d) (hk : Led (d + 1) k)
    (hbelow : Led d (k - 1) → r.get (k - 1) < N) : r.step d k ≤ N := by
  rcases r.step_cases hd hk with ⟨hled, hstep, -⟩ | ⟨hled, hstep, -⟩
  · rw [hstep]
    exact h.right (k - 1) (k + 1) hled (by omega) hbelow
  · have hlt := hbelow hled
    omega

/-- A further edit leads no further than the lower side, if the diagonal above has not come to it. -/
theorem Explored.step_le_lower (h : Explored N M d r) (hd : 0 < d) (hk : Led (d + 1) k)
    (habove : Led d (k + 1) → (r.get (k + 1) : Int) < M + (k + 1)) : (r.step d k : Int) ≤ M + k := by
  rcases r.step_cases hd hk with ⟨hled, hstep, -⟩ | ⟨hled, hstep, -⟩
  · have hlt := habove hled
    omega
  · have hle := h.lower (k + 1) (k - 1) hled (by omega) habove
    omega

/-- The first round leads to the start of the box only, and from there on over lines that are the same. -/
theorem explored_one (hadvance : Stays N M advance) (hget : r.get 0 = advance 0 0) : Explored N M 1 r := by
  have honly : ∀ k, Led 1 k → k = 0 := by
    intro k hk
    simp only [Led] at hk
    omega
  have hstays := hadvance 0 0 (Int.le_refl 0)
  refine ⟨by omega, fun k hk => ?_, fun k hk => ?_, fun j k hk _ _ => ?_, fun j k hk _ _ => ?_⟩
  all_goals
    obtain rfl := honly k hk
    omega

theorem Explored.next (h : Explored N M d r) (hadvance : Stays N M advance)
    (hnext : ∀ k, Led (d + 1) k → r'.get k = advance k (r.step d k)) : Explored N M (d + 1) r' := by
  rcases Nat.eq_zero_or_pos d with rfl | hd
  · -- only the diagonal in the middle is led by then
    apply explored_one hadvance
    rw [hnext 0 (by simp only [Led]; omega), Reach.step, if_pos (by rfl)]
    exact congrArg (advance 0) (h.start rfl)
  · have hfrom : ∀ k, Led (d + 1) k → (r.step d k ≤ r'.get k) ∧
        (r'.get k = r.step d k ∨ r'.get k ≤ N ∧ (r'.get k : Int) ≤ M + k) := by
      intro k hk
      rw [hnext k hk]
      exact hadvance k _ (h.le_step hd hk).1
    refine ⟨by omega, fun k hk => ?_, fun k hk => ?_, fun j k hk hj hright => ?_, fun j k hk hj hlower => ?_⟩
    · have hle := (h.le_step hd hk).1
      have hget := (hfrom k hk).1
      omega
    · have hlong := (h.le_step hd hk).2
      have hget := (hfrom k hk).1
      omega
    · -- the diagonal between `j` and `k` has not come to the right side, or `j` would have
      have hstep : r.step d k ≤ N := by
        apply h.step_le_right hd hk
        intro hled
        have hledj : Led (d + 1) j := by
          simp only [Led] at *
          omega
        have hbetween : k - 1 = j + 1 := by omega
        have hfar := (r.le_step hd hledj).1 (hbetween ▸ hled)
        have hget := (hfrom j hledj).1
        have hbound := hright hledj
        rw [hbetween]
        omega
      have hget := (hfrom k hk).2
      omega
    · -- the same at the lower side, with the diagonals the other way round
      have hstep : (r.step d k : Int) ≤ M + k := by
        apply h.step_le_lower hd hk
        intro hled
        have hledj : Led (d + 1) j := by
          simp only [Led] at *
          omega
        have hbetween : k + 1 = j - 1 := by omega
        have hfar := (r.le_step hd hledj).2 (hbetween ▸ hled)
        have hget := (hfrom j hledj).1
        have hbound := hlower hledj
        rw [hbetween]
        omega
      have hget := (hfrom k hk).2
      omega

/-- The point that a further edit leads to lies in the box, and not at its end, if the points beside it are clear of the
sides. -/
theorem Explored.step_inside (h : Explored N M d r) (hd : 0 < d) (hclear : Clear N M d e (N - M) r)
    (hk : Led (d + 1) k) (hnear : (k - (N - M)).natAbs ≤ e + 1) (hparity : (k - (N - M) + e) % 2 = 1) :
    r.step d k ≤ N ∧ (r.step d k : Int) ≤ M + k ∧ ¬ (r.step d k = N ∧ (r.step d k : Int) = M + k) := by
  rcases r.step_cases hd hk with ⟨hled, hstep, -⟩ | ⟨hled, hstep, -⟩
  · by_cases hclose : (k + 1 - (N - M)).natAbs ≤ e
    · have hin := hclear (k + 1) hled hclose
      omega
    · -- the diagonal above is too far up, but the one below is clear of the right side
      have hle := h.right (k - 1) (k + 1) hled (by omega) fun hled' => (hclear (k - 1) hled' (by omega)).1
      omega
  · by_cases hclose : (k - 1 - (N - M)).natAbs ≤ e
    · have hin := hclear (k - 1) hled hclose
      omega
    · have hle := h.lower (k + 1) (k - 1) hled (by omega) fun hled' => (hclear (k + 1) hled' (by omega)).2
      omega

end Explored

/-! ## Both searches -/

section Meeting

variable {s : Sides} {b : Box} {front front' back back' : Reach} {d n : Nat} {k : Int} {p : Nat × Nat}

/-- The point of the search from the front, advanced over lines that are the same. -/
def Sides.ahead (s : Sides) (b : Box) (k : Int) (x : Nat) : Nat :=
  let y := ((x : Int) - k).toNat
  if x < b.width && y < b.height then
    x + s.commonPrefix (b.old + x) (b.new + y) (Nat.min (b.width - x) (b.height - y))
  else x

/-- How far the point of the search from the back is advanced over lines that are the same. -/
def Sides.backLength (s : Sides) (b : Box) (k : Int) (x : Nat) : Nat :=
  let y := ((x : Int) - k).toNat
  if x < b.width && y < b.height then
    s.commonSuffix (b.old + b.width - x) (b.new + b.height - y) (Nat.min (b.width - x) (b.height - y))
  else 0

/-- Whether the search from the front meets the one from the back. -/
def forwardMet (b : Box) (back : Reach) (d : Nat) (k : Int) (x : Nat) : Bool :=
  b.delta % 2 ≠ 0 && (k - b.delta).natAbs + 1 ≤ d && b.width ≤ x + back.get (b.delta - k)

/-- Whether the search from the back meets the one from the front. -/
def backwardMet (b : Box) (front : Reach) (d : Nat) (k : Int) (x : Nat) : Bool :=
  b.delta % 2 = 0 && (k - b.delta).natAbs ≤ d && b.width ≤ x + front.get (b.delta - k)

/-- The place of a point that the search from the back has come to. -/
def backPlace (s : Sides) (b : Box) (k : Int) (x : Nat) : Nat × Nat :=
  (b.old + b.width - (x + s.backLength b k x), b.new + b.height - (((x : Int) - k).toNat + s.backLength b k x))

theorem forward_eq_sweep (s : Sides) (b : Box) (back : Reach) (d : Nat) (ks : List Int) (front : Reach) :
    forward s b back d ks front = sweep d (s.ahead b) (forwardMet b back d)
      (fun k x => (b.old + x, b.new + ((x : Int) - k).toNat)) ks front := by
  induction ks generalizing front with
  | nil => rfl
  | cons k ks ih =>
    rw [forward, sweep, ← ih]
    rfl

theorem backward_eq_sweep (s : Sides) (b : Box) (front : Reach) (d : Nat) (ks : List Int) (back : Reach) :
    backward s b front d ks back = sweep d (fun k x => x + s.backLength b k x) (backwardMet b front d) (backPlace s b)
      ks back := by
  induction ks generalizing back with
  | nil => rfl
  | cons k ks ih =>
    rw [backward, sweep, ← ih]
    rfl

theorem stays_ahead (s : Sides) (b : Box) : Stays b.width b.height (s.ahead b) := by
  intro k x hk
  have hle := s.commonPrefix_le (b.old + x) (b.new + ((x : Int) - k).toNat)
    (Nat.min (b.width - x) (b.height - ((x : Int) - k).toNat))
  rw [Nat.le_min] at hle
  simp only [Sides.ahead, Bool.and_eq_true, decide_eq_true_eq]
  split <;> omega

theorem stays_back (s : Sides) (b : Box) : Stays b.width b.height fun k x => x + s.backLength b k x := by
  intro k x hk
  have hle := s.commonSuffix_le (b.old + b.width - x) (b.new + b.height - ((x : Int) - k).toNat)
    (Nat.min (b.width - x) (b.height - ((x : Int) - k).toNat))
  rw [Nat.le_min] at hle
  simp only [Sides.backLength, Bool.and_eq_true, decide_eq_true_eq]
  split <;> omega

/-- The lines that a point of the search from the back has come to are the same if it has been advanced. -/
theorem same_backLength {x : Nat} (h : 0 < s.backLength b k x) :
    s.same (b.old + b.width - x - s.backLength b k x)
      (b.new + b.height - ((x : Int) - k).toNat - s.backLength b k x) = true := by
  unfold Sides.backLength at *
  simp only at *
  split
  · rename_i hin
    rw [if_pos hin] at h
    have hlast := Sides.same_of_lt_commonSuffix (Nat.sub_one_lt_of_lt h)
    rw [Nat.sub_one_add_one_eq_of_pos h] at hlast
    exact hlast.2.2
  · rename_i hin
    rw [if_neg hin] at h
    exact absurd h (Nat.lt_irrefl 0)

/-- The point lies in the box, and at none of its ends. -/
structure Box.Inside (b : Box) (x y : Nat) : Prop where
  old_le : b.old ≤ x
  le_oldEnd : x ≤ b.oldEnd
  new_le : b.new ≤ y
  le_newEnd : y ≤ b.newEnd
  ne_start : ¬ (x = b.old ∧ y = b.new)
  ne_end : ¬ (x = b.oldEnd ∧ y = b.newEnd)

/-- The box is not empty, and begins and ends with lines that differ. -/
structure Box.Trimmed (s : Sides) (b : Box) : Prop where
  old_lt : b.old < b.oldEnd
  new_lt : b.new < b.newEnd
  first : s.same b.old b.new = false
  last : s.same (b.oldEnd - 1) (b.newEnd - 1) = false

/-- What both searches have come to after `d` rounds without meeting. -/
structure Searched (b : Box) (n d : Nat) (front back : Reach) : Prop where
  fitsFront : front.Fits n
  fitsBack : back.Fits n
  exploredFront : Explored b.width b.height d front
  exploredBack : Explored b.width b.height d back
  clearFront : b.delta % 2 = 1 → ∀ e, e + 2 ≤ d ∨ d ≤ 1 → Clear b.width b.height d e b.delta front
  clearBack : b.delta % 2 = 0 → ∀ e, e + 1 ≤ d → Clear b.width b.height d e b.delta back

theorem Box.Trimmed.ahead_zero (h : b.Trimmed s) : s.ahead b 0 0 = 0 := by
  have hno : s.commonPrefix b.old b.new (Nat.min b.width b.height) = 0 := by
    cases hlength : Nat.min b.width b.height with
    | zero => rfl
    | succ limit => rw [Sides.commonPrefix, h.first, if_neg Bool.false_ne_true]
  have hzero : s.ahead b 0 0 = if (0 < b.width && 0 < b.height) = true then
      0 + s.commonPrefix b.old b.new (Nat.min b.width b.height) else 0 := rfl
  rw [hzero, hno, ite_self]

theorem Box.Trimmed.backLength_zero (h : b.Trimmed s) : s.backLength b 0 0 = 0 := by
  have hold := h.old_lt
  have hnew := h.new_lt
  have hzero : s.backLength b 0 0 = if (0 < b.width && 0 < b.height) = true then
      s.commonSuffix (b.old + b.width) (b.new + b.height) (Nat.min b.width b.height) else 0 := rfl
  have hends : b.old + b.width = b.oldEnd ∧ b.new + b.height = b.newEnd := by
    rw [Box.width, Box.height]
    omega
  rw [hzero, hends.1, hends.2]
  cases hlength : Nat.min b.width b.height with
  | zero => rw [Sides.commonSuffix, ite_self]
  | succ limit => rw [Sides.commonSuffix, h.last, Bool.and_false, if_neg Bool.false_ne_true, ite_self]

/-- A round of the search from the front that does not meet the other one. -/
theorem Searched.forward_ok (h : Searched b n d front back) (htrimmed : b.Trimmed s) (hd : d ≤ n)
    (hok : forward s b back d (diagonals d) front = .ok front') :
    front'.Fits n ∧ Explored b.width b.height (d + 1) front' ∧ (d = 0 → front'.get 0 = 0) ∧
      (b.delta % 2 = 1 → ∀ e, e + 2 ≤ d + 1 ∨ d + 1 ≤ 1 → Clear b.width b.height (d + 1) e b.delta front') := by
  rw [forward_eq_sweep] at hok
  obtain ⟨hfits, hdone, -⟩ := sweep_ok h.fitsFront hd (fun k => mem_diagonals.1) (nodup_diagonals d) hok
  have hnext : ∀ k, Led (d + 1) k → front'.get k = s.ahead b k (front.step d k) :=
    fun k hk => (hdone k (mem_diagonals.2 hk)).1
  have hzero : d = 0 → front'.get 0 = 0 := by
    intro hfirst
    subst hfirst
    have hstart : front.step 0 0 = 0 := h.exploredFront.start rfl
    rw [hnext 0 (by simp only [Led]; omega), hstart, htrimmed.ahead_zero]
  refine ⟨hfits, h.exploredFront.next (stays_ahead s b) hnext, hzero, fun hodd e he k hk hnear => ?_⟩
  have hwidth : b.delta = (b.width : Int) - (b.height : Int) := rfl
  have hold := htrimmed.old_lt
  have hnew := htrimmed.new_lt
  rcases Nat.eq_zero_or_pos d with rfl | hpos
  · obtain rfl : k = 0 := by
      simp only [Led] at hk
      omega
    rw [hzero rfl, Box.width, Box.height]
    omega
  · -- the search from the back has come to this diagonal too, and the points do not reach one another
    have hmet := (hdone k (mem_diagonals.2 hk)).2
    have hled : Led d (b.delta - k) := by
      simp only [Led] at *
      omega
    have hle := h.exploredBack.le _ hled
    simp only [forwardMet, Bool.and_eq_false_iff, decide_eq_false_iff_not] at hmet
    omega

/-- Where the search from the front meets the other one is inside the box. -/
theorem Searched.forward_error (h : Searched b n d front back) (htrimmed : b.Trimmed s) (hd : d ≤ n)
    (herror : forward s b back d (diagonals d) front = .error p) : b.Inside p.1 p.2 := by
  rw [forward_eq_sweep] at herror
  obtain ⟨k, hk, hmet, rfl⟩ := sweep_error h.fitsFront hd (fun k => mem_diagonals.1) herror
  have hled := mem_diagonals.1 hk
  simp only [forwardMet, Bool.and_eq_true, decide_eq_true_eq] at hmet
  have hwidth : b.delta = (b.width : Int) - (b.height : Int) := rfl
  have hold := htrimmed.old_lt
  have hnew := htrimmed.new_lt
  have hpos : 0 < d := by omega
  have hodd : b.delta % 2 = 1 := by omega
  have hfar := h.exploredFront.le_step hpos hled
  have hinside : front.step d k ≤ b.width ∧ (front.step d k : Int) ≤ b.height + k ∧
      ¬ (front.step d k = b.width ∧ (front.step d k : Int) = b.height + k) := by
    simp only [Led] at hled
    -- in the second round there is one point from the start, which is clear as it is
    rcases Nat.lt_or_ge 1 d with hd | hd
    · refine h.exploredFront.step_inside hpos (h.clearFront hodd (d - 2) (by omega)) hled ?_ ?_ <;> omega
    · refine h.exploredFront.step_inside hpos (h.clearFront hodd 1 (by omega)) hled ?_ ?_ <;> omega
  simp only [Box.width, Box.height] at hinside
  constructor <;> dsimp only <;> omega

/-- A round of the search from the back that does not meet the other one. -/
theorem Searched.backward_ok (h : Searched b n d front back) (hd : d ≤ n)
    (hfront : Explored b.width b.height (d + 1) front')
    (hok : backward s b front' d (diagonals d) back = .ok back') :
    back'.Fits n ∧ Explored b.width b.height (d + 1) back' ∧
      (b.delta % 2 = 0 → ∀ e, e + 1 ≤ d + 1 → Clear b.width b.height (d + 1) e b.delta back') := by
  rw [backward_eq_sweep] at hok
  obtain ⟨hfits, hdone, -⟩ := sweep_ok h.fitsBack hd (fun k => mem_diagonals.1) (nodup_diagonals d) hok
  have hnext : ∀ k, Led (d + 1) k → back'.get k = back.step d k + s.backLength b k (back.step d k) :=
    fun k hk => (hdone k (mem_diagonals.2 hk)).1
  refine ⟨hfits, h.exploredBack.next (stays_back s b) hnext, fun heven e he k hk hnear => ?_⟩
  have hwidth : b.delta = (b.width : Int) - (b.height : Int) := rfl
  have hmet := (hdone k (mem_diagonals.2 hk)).2
  have hled : Led (d + 1) (b.delta - k) := by
    simp only [Led] at *
    omega
  have hle := hfront.le _ hled
  simp only [backwardMet, Bool.and_eq_false_iff, decide_eq_false_iff_not] at hmet
  omega

/-- Where the search from the back meets the other one is inside the box. -/
theorem Searched.backward_error (h : Searched b n d front back) (htrimmed : b.Trimmed s) (hd : d ≤ n)
    (hzero : d = 0 → front'.get 0 = 0) (herror : backward s b front' d (diagonals d) back = .error p) :
    b.Inside p.1 p.2 := by
  rw [backward_eq_sweep] at herror
  obtain ⟨k, hk, hmet, rfl⟩ := sweep_error h.fitsBack hd (fun k => mem_diagonals.1) herror
  have hled := mem_diagonals.1 hk
  simp only [backwardMet, Bool.and_eq_true, decide_eq_true_eq] at hmet
  have hwidth : b.delta = (b.width : Int) - (b.height : Int) := rfl
  have hold := htrimmed.old_lt
  have hnew := htrimmed.new_lt
  have hpos : 0 < d := by
    -- in the first round both searches stay at their ends
    refine Nat.pos_of_ne_zero fun hfirst => ?_
    subst hfirst
    obtain rfl : k = 0 := by
      simp only [Led] at hled
      omega
    have hstart : back.step 0 0 = 0 := h.exploredBack.start rfl
    have hdelta : b.delta - 0 = 0 := by omega
    rw [hstart, htrimmed.backLength_zero, hdelta, hzero rfl, Box.width] at hmet
    omega
  have hfar := h.exploredBack.le_step hpos hled
  have hstays := stays_back s b k (back.step d k) hfar.1
  have hinside : back.step d k ≤ b.width ∧ (back.step d k : Int) ≤ b.height + k ∧
      ¬ (back.step d k = b.width ∧ (back.step d k : Int) = b.height + k) := by
    simp only [Led] at hled
    refine h.exploredBack.step_inside hpos (h.clearBack (by omega) (d - 1) (by omega)) hled ?_ ?_ <;> omega
  -- lines that are the same do not lead to the start of the box, where the lines differ
  have hstart : ¬ (back.step d k + s.backLength b k (back.step d k) = b.width ∧
      (back.step d k + s.backLength b k (back.step d k) : Int) = b.height + k) := by
    intro hcorner
    have hsame := same_backLength (s := s) (b := b) (k := k) (x := back.step d k) (by omega)
    have hold : b.old + b.width - back.step d k - s.backLength b k (back.step d k) = b.old := by omega
    have hnew : b.new + b.height - ((back.step d k : Int) - k).toNat - s.backLength b k (back.step d k) = b.new := by
      omega
    rw [hold, hnew, htrimmed.first] at hsame
    cases hsame
  simp only [Box.width, Box.height] at hinside hstays hstart
  constructor <;> dsimp only [backPlace, Box.width, Box.height] <;> omega

theorem Searched.meeting?_inside {fuel : Nat} (h : Searched b n d front back) (htrimmed : b.Trimmed s)
    (hfuel : d + fuel ≤ n + 1) (hmeet : meeting? s b front back d fuel = some p) : b.Inside p.1 p.2 := by
  induction fuel generalizing d front back with
  | zero => cases hmeet
  | succ fuel ih =>
    have hd : d ≤ n := by omega
    rw [meeting?] at hmeet
    split at hmeet
    · rename_i herror
      obtain rfl := Option.some.inj hmeet
      exact h.forward_error htrimmed hd herror
    · rename_i front' hforward
      obtain ⟨hfits, hexplored, hzero, hclear⟩ := h.forward_ok htrimmed hd hforward
      split at hmeet
      · rename_i herror
        obtain rfl := Option.some.inj hmeet
        exact h.backward_error htrimmed hd hzero herror
      · rename_i back' hbackward
        obtain ⟨hfits', hexplored', hclear'⟩ := h.backward_ok hd hexplored hbackward
        exact ih ⟨hfits, hfits', hexplored, hexplored', hclear, hclear'⟩ (by omega) hmeet

theorem get_start (n : Nat) (k : Int) : (Reach.start n).get k = 0 := by
  simp only [Reach.get, Reach.start, Array.getElem?_replicate]
  split <;> rfl

/-- In a box that begins and ends with lines that differ, the place in the middle is inside. -/
theorem middle?_inside (htrimmed : b.Trimmed s) (hmiddle : middle? s b = some p) : b.Inside p.1 p.2 := by
  have hnone : ∀ k, ¬ Led 0 k := fun k hk => absurd hk.1 (Nat.not_lt_zero _)
  have hfits : ∀ n, (Reach.start n).Fits n := by
    intro n
    refine ⟨?_, Nat.lt_succ_self n⟩
    rw [Reach.start, Array.size_replicate]
    show 2 * n + 3 = 2 * (n + 1) + 1
    omega
  have hexplored : ∀ n, Explored b.width b.height 0 (Reach.start n) := fun n =>
    ⟨fun _ => get_start n 1, fun k hk => absurd hk (hnone k), fun k hk => absurd hk (hnone k),
      fun _ k hk => absurd hk (hnone k), fun _ k hk => absurd hk (hnone k)⟩
  have hstart : Searched b (maxEdits b.width b.height) 0 (.start _) (.start _) :=
    ⟨hfits _, hfits _, hexplored _, hexplored _, fun _ _ _ k hk => absurd hk (hnone k),
      fun _ _ he => absurd he (Nat.not_succ_le_zero _)⟩
  exact hstart.meeting?_inside htrimmed (by omega) hmiddle

end Meeting

end Conformance.Output
