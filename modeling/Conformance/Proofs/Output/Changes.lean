import Conformance.Proofs.Output.Meeting

/-!
# Changes that lead from the old lines to the new ones

A list of changes leads from a place in both texts to another if each change begins where the one before has come to and
what it takes for equal lines are the same lines (`Leads`). The way through a box leads from its start to its end
(`leads_way`). What is done to it then keeps where it leads (`Keeps`): changes are moved up and down, and runs of
deletions and insertions are made one change. So the changes lead from the first lines to the ends of both texts
(`leads_changes`).
-/
namespace Conformance.Output

/-! ## Stretches of lines that are the same -/

namespace Sides

/-- The old lines from `x` on and the new ones from `y` on are the same, as many as are counted. -/
def Agree (s : Sides) (x y count : Nat) : Prop := ∀ t < count, s.same (x + t) (y + t) = true

variable {s : Sides} {x y count more : Nat}

theorem agree_zero (s : Sides) (x y : Nat) : s.Agree x y 0 := fun t ht => absurd ht (Nat.not_lt_zero t)

theorem agree_add : s.Agree x y (count + more) ↔ s.Agree x y count ∧ s.Agree (x + count) (y + count) more := by
  constructor
  · intro h
    refine ⟨fun t ht => h t (by omega), fun t ht => ?_⟩
    rw [Nat.add_assoc, Nat.add_assoc]
    exact h (count + t) (by omega)
  · intro h t ht
    by_cases hlt : t < count
    · exact h.1 t hlt
    · have hrest := h.2 (t - count) (by omega)
      rwa [Nat.add_assoc, Nat.add_assoc, Nat.add_sub_of_le (by omega)] at hrest

theorem agree_commonPrefix (s : Sides) (i j limit : Nat) : s.Agree i j (s.commonPrefix i j limit) :=
  fun _ ht => same_of_lt_commonPrefix ht

theorem agree_commonSuffix (s : Sides) (i j limit : Nat) :
    s.Agree (i - s.commonSuffix i j limit) (j - s.commonSuffix i j limit) (s.commonSuffix i j limit) := by
  intro t ht
  have hlt : s.commonSuffix i j limit - (t + 1) < s.commonSuffix i j limit := by omega
  have hback := same_of_lt_commonSuffix hlt
  have hfirst : s.commonSuffix i j limit - 1 < s.commonSuffix i j limit := by omega
  have hin := same_of_lt_commonSuffix hfirst
  have hx : i - (s.commonSuffix i j limit - (t + 1) + 1) = i - s.commonSuffix i j limit + t := by omega
  have hy : j - (s.commonSuffix i j limit - (t + 1) + 1) = j - s.commonSuffix i j limit + t := by omega
  rw [hx, hy] at hback
  exact hback.2.2

end Sides

/-! ## Where changes lead -/

namespace Change

/-- Whether the change is none but a stretch of lines that are the same. -/
def isEqual : Change → Bool
  | equal .. => true
  | _ => false

/-- How many old lines the change covers. -/
def oldCount : Change → Nat
  | equal _ _ count => count
  | delete _ count _ => count
  | insert .. => 0
  | replace _ oldCount _ _ => oldCount

/-- How many new lines the change covers. -/
def newCount : Change → Nat
  | equal _ _ count => count
  | delete .. => 0
  | insert _ _ count => count
  | replace _ _ _ newCount => newCount

/-- The change begins at the old line `x` and the new line `y`. What a deletion says of the new lines and an insertion of
the old ones does not count. -/
def From (s : Sides) (mixed : Prop) (x y : Nat) : Change → Prop
  | equal old new count => old = x ∧ new = y ∧ s.Agree x y count
  | delete old _ _ => old = x
  | insert _ new _ => new = y
  | replace old _ new _ => mixed ∧ old = x ∧ new = y

end Change

/-- The changes lead from the old line `x` and the new line `y` to `x'` and `y'`, with replacements among them only if
these are allowed. -/
def Leads (s : Sides) (mixed : Prop) (x y : Nat) : List Change → Nat → Nat → Prop
  | [], x', y' => x' = x ∧ y' = y
  | c :: r, x', y' => c.From s mixed x y ∧ Leads s mixed (x + c.oldCount) (y + c.newCount) r x' y'

section Leads

variable {s : Sides} {mixed : Prop} {x y x' y' u v : Nat} {c : Change} {l l' : List Change}

theorem leads_append : Leads s mixed x y (l ++ l') x' y' ↔ ∃ u v, Leads s mixed x y l u v ∧ Leads s mixed u v l' x' y' := by
  induction l generalizing x y with
  | nil =>
    constructor
    · intro h
      exact ⟨x, y, ⟨rfl, rfl⟩, h⟩
    · intro h
      obtain ⟨u, v, ⟨rfl, rfl⟩, h⟩ := h
      exact h
  | cons c r ih =>
    rw [List.cons_append, Leads, ih]
    constructor
    · intro h
      obtain ⟨hfrom, u, v, hr, hl'⟩ := h
      exact ⟨u, v, ⟨hfrom, hr⟩, hl'⟩
    · intro h
      obtain ⟨u, v, ⟨hfrom, hr⟩, hl'⟩ := h
      exact ⟨hfrom, u, v, hr, hl'⟩

theorem Leads.le (h : Leads s mixed x y l x' y') : x ≤ x' ∧ y ≤ y' := by
  induction l generalizing x y with
  | nil => exact ⟨Nat.le_of_eq h.1.symm, Nat.le_of_eq h.2.symm⟩
  | cons c r ih =>
    have hrest := ih h.2
    omega

/-- A change lies between the ends of the list. -/
theorem Leads.of_mem (h : Leads s mixed x y l x' y') (hc : c ∈ l) :
    ∃ u v, c.From s mixed u v ∧ u + c.oldCount ≤ x' ∧ v + c.newCount ≤ y' := by
  induction l generalizing x y with
  | nil => exact absurd hc List.not_mem_nil
  | cons c' r ih =>
    rcases List.mem_cons.1 hc with rfl | hc
    · exact ⟨x, y, h.1, h.2.le⟩
    · exact ih h.2 hc

/-- Where nothing is changed the lines are the same. -/
theorem Leads.same (h : Leads s mixed x y l x' y')
    (hl : ∀ c ∈ l, c.isEqual = true ∨ c.oldCount = 0 ∧ c.newCount = 0) :
    ∃ count, x' = x + count ∧ y' = y + count ∧ s.Agree x y count := by
  induction l generalizing x y with
  | nil => exact ⟨0, h.1, h.2, s.agree_zero x y⟩
  | cons c r ih =>
    obtain ⟨hc, hr⟩ := List.forall_mem_cons.1 hl
    obtain ⟨count, hx, hy, hsame⟩ := ih h.2 hr
    rcases hc with hequal | ⟨hold, hnew⟩
    · cases c with
      | equal old new first =>
        obtain ⟨-, -, hfirst⟩ := h.1
        exact ⟨first + count, hx.trans (Nat.add_assoc ..), hy.trans (Nat.add_assoc ..),
          Sides.agree_add.2 ⟨hfirst, hsame⟩⟩
      | _ => cases hequal
    · simp only [hold, hnew, Nat.add_zero] at hx hy hsame
      exact ⟨count, hx, hy, hsame⟩

theorem Leads.mono {mixed' : Prop} (h : Leads s mixed x y l x' y') (himp : mixed → mixed') :
    Leads s mixed' x y l x' y' := by
  induction l generalizing x y with
  | nil => exact h
  | cons c r ih =>
    refine ⟨?_, ih h.2⟩
    cases c with
    | replace old oldCount new newCount => exact ⟨himp h.1.1, h.1.2⟩
    | _ => exact h.1

end Leads

/-! ## The way through a box -/

/-- Lines that are the same as one stretch. -/
theorem leads_equal {s : Sides} {x y count : Nat} (h : s.Agree x y count) :
    Leads s False x y (if 0 < count then [Change.equal x y count] else []) (x + count) (y + count) := by
  split
  · exact ⟨⟨rfl, rfl, h⟩, rfl, rfl⟩
  · rename_i hzero
    obtain rfl := Nat.eq_zero_of_not_pos hzero
    exact ⟨rfl, rfl⟩

namespace Box

variable {s : Sides} {b : Box}

/-- The end of the box is not in front of its start. -/
structure Proper (b : Box) : Prop where
  old_le : b.old ≤ b.oldEnd
  new_le : b.new ≤ b.newEnd

/-- How many lines are the same at the start of the box. -/
def sameAtStart (s : Sides) (b : Box) : Nat := s.commonPrefix b.old b.new (Nat.min b.width b.height)

/-- How many lines are the same at the end of the box. -/
def sameAtEnd (s : Sides) (b : Box) : Nat := s.commonSuffix b.oldEnd b.newEnd (Nat.min b.width b.height)

/-- The box without the lines that are the same at its start. -/
def withoutStart (s : Sides) (b : Box) : Box :=
  { b with old := b.old + b.sameAtStart s, new := b.new + b.sameAtStart s }

/-- The box without the lines that are the same at its end. -/
def withoutEnd (s : Sides) (b : Box) : Box :=
  { b with oldEnd := b.oldEnd - b.sameAtEnd s, newEnd := b.newEnd - b.sameAtEnd s }

theorem sameAtStart_le (s : Sides) (b : Box) : b.sameAtStart s ≤ b.oldEnd - b.old ∧ b.sameAtStart s ≤ b.newEnd - b.new :=
  Nat.le_min.1 (s.commonPrefix_le ..)

theorem sameAtEnd_le (s : Sides) (b : Box) : b.sameAtEnd s ≤ b.oldEnd - b.old ∧ b.sameAtEnd s ≤ b.newEnd - b.new :=
  Nat.le_min.1 (s.commonSuffix_le ..)

theorem Proper.withoutStart (h : b.Proper) (s : Sides) : (b.withoutStart s).Proper := by
  have hold := h.old_le
  have hnew := h.new_le
  have hle := b.sameAtStart_le s
  constructor <;> dsimp only [Box.withoutStart] <;> omega

theorem Proper.withoutEnd (h : b.Proper) (s : Sides) : (b.withoutEnd s).Proper := by
  have hold := h.old_le
  have hnew := h.new_le
  have hle := b.sameAtEnd_le s
  constructor <;> dsimp only [Box.withoutEnd] <;> omega

/-- A box that is left without the same lines at both ends is trimmed, if there are lines on both sides. -/
theorem trimmed_withoutEnd (hwidth : 0 < ((b.withoutStart s).withoutEnd s).width)
    (hheight : 0 < ((b.withoutStart s).withoutEnd s).height) : ((b.withoutStart s).withoutEnd s).Trimmed s := by
  have hstart := b.sameAtStart_le s
  have hend := (b.withoutStart s).sameAtEnd_le s
  have hfirst := s.not_same_commonPrefix b.old b.new (Nat.min b.width b.height)
  have hlast := s.not_same_commonSuffix (b.withoutStart s).oldEnd (b.withoutStart s).newEnd
    (Nat.min (b.withoutStart s).width (b.withoutStart s).height)
  rw [Nat.lt_min] at hfirst hlast
  change b.sameAtStart s < b.oldEnd - b.old ∧ b.sameAtStart s < b.newEnd - b.new → _ at hfirst
  change (b.withoutStart s).sameAtEnd s < b.oldEnd - (b.old + b.sameAtStart s) ∧
    (b.withoutStart s).sameAtEnd s < b.newEnd - (b.new + b.sameAtStart s) → (b.withoutStart s).sameAtEnd s < b.oldEnd →
    (b.withoutStart s).sameAtEnd s < b.newEnd → _ at hlast
  change 0 < b.oldEnd - (b.withoutStart s).sameAtEnd s - (b.old + b.sameAtStart s) at hwidth
  change 0 < b.newEnd - (b.withoutStart s).sameAtEnd s - (b.new + b.sameAtStart s) at hheight
  refine ⟨Nat.lt_of_sub_pos hwidth, Nat.lt_of_sub_pos hheight, hfirst (by omega), ?_⟩
  show s.same (b.oldEnd - (b.withoutStart s).sameAtEnd s - 1) (b.newEnd - (b.withoutStart s).sameAtEnd s - 1) = false
  rw [Nat.sub_sub, Nat.sub_sub]
  exact hlast (by omega) (by omega) (by omega)

theorem size_trimmed_le (s : Sides) (b : Box) :
    ((b.withoutStart s).withoutEnd s).width + ((b.withoutStart s).withoutEnd s).height ≤ b.width + b.height := by
  show b.oldEnd - _ - (b.old + _) + (b.newEnd - _ - (b.new + _)) ≤ b.oldEnd - b.old + (b.newEnd - b.new)
  omega

end Box

/-- The way through a box without the same lines at both of its ends. -/
def between (s : Sides) (fuel : Nat) (b : Box) : List Change :=
  if b.width = 0 && b.height = 0 then []
  else if b.height = 0 then [.delete b.old b.width b.new]
  else if b.width = 0 then [.insert b.old b.new b.height]
  else
    match middle? s b with
    | some (x, y) => way s fuel { b with oldEnd := x, newEnd := y } ++ way s fuel { b with old := x, new := y }
    | none => [.delete b.old b.width b.new, .insert b.old b.new b.height]

theorem way_succ (s : Sides) (fuel : Nat) (b : Box) :
    way s (fuel + 1) b =
      (if 0 < b.sameAtStart s then [.equal b.old b.new (b.sameAtStart s)] else []) ++
        between s fuel ((b.withoutStart s).withoutEnd s) ++
        if 0 < (b.withoutStart s).sameAtEnd s then
          [.equal ((b.withoutStart s).withoutEnd s).oldEnd ((b.withoutStart s).withoutEnd s).newEnd
            ((b.withoutStart s).sameAtEnd s)]
        else [] :=
  rfl

section Way

variable {s : Sides} {b : Box}

/-- If the ways through smaller boxes lead from their starts to their ends, so does the way through a trimmed one. -/
theorem leads_between {fuel : Nat} (h : b.Proper) (htrimmed : 0 < b.width → 0 < b.height → b.Trimmed s)
    (hways : ∀ b' : Box, b'.Proper → b'.width + b'.height < b.width + b.height →
      Leads s False b'.old b'.new (way s fuel b') b'.oldEnd b'.newEnd) :
    Leads s False b.old b.new (between s fuel b) b.oldEnd b.newEnd := by
  have hold : b.old + b.width = b.oldEnd := Nat.add_sub_of_le h.old_le
  have hnew : b.new + b.height = b.newEnd := Nat.add_sub_of_le h.new_le
  rw [between]
  split
  · rename_i hempty
    simp only [Bool.and_eq_true, decide_eq_true_eq] at hempty
    exact ⟨by omega, by omega⟩
  · split
    · rename_i hheight
      exact ⟨rfl, hold.symm, by rw [← hnew, hheight]; rfl⟩
    · rename_i hheight
      split
      · rename_i hwidth
        exact ⟨rfl, by rw [← hold, hwidth]; rfl, hnew.symm⟩
      · rename_i hwidth
        split
        · rename_i x y hmiddle
          -- the point is none of the ends, so that the boxes in front of it and behind it are smaller
          have hinside := middle?_inside (htrimmed (Nat.pos_of_ne_zero hwidth) (Nat.pos_of_ne_zero hheight)) hmiddle
          obtain ⟨hx, hx', hy, hy', hne, hne'⟩ := hinside
          dsimp only at hx hx' hy hy' hne hne'
          refine leads_append.2 ⟨x, y, hways ⟨b.old, x, b.new, y⟩ ⟨hx, hy⟩ ?_, hways ⟨x, b.oldEnd, y, b.newEnd⟩ ⟨hx', hy'⟩ ?_⟩
          · show x - b.old + (y - b.new) < _
            omega
          · show b.oldEnd - x + (b.newEnd - y) < _
            omega
        · exact ⟨rfl, rfl, hold.symm, hnew.symm⟩

/-- The way through a box leads from its start to its end. -/
theorem leads_way (s : Sides) (fuel : Nat) (b : Box) (h : b.Proper) (hfuel : b.width + b.height < fuel) :
    Leads s False b.old b.new (way s fuel b) b.oldEnd b.newEnd := by
  induction fuel generalizing b with
  | zero => exact absurd hfuel (Nat.not_lt_zero _)
  | succ fuel ih =>
    have hstart := b.sameAtStart_le s
    have hend := (b.withoutStart s).sameAtEnd_le s
    have hbetween : Leads s False (b.withoutStart s).old (b.withoutStart s).new
        (between s fuel ((b.withoutStart s).withoutEnd s)) ((b.withoutStart s).withoutEnd s).oldEnd
        ((b.withoutStart s).withoutEnd s).newEnd := by
      apply leads_between ((h.withoutStart s).withoutEnd s) Box.trimmed_withoutEnd
      intro b' hproper hless
      have hsize := b.size_trimmed_le s
      exact ih b' hproper (by omega)
    have hlast := leads_equal (s.agree_commonSuffix (b.withoutStart s).oldEnd (b.withoutStart s).newEnd
      (Nat.min (b.withoutStart s).width (b.withoutStart s).height))
    have hold : (b.withoutStart s).oldEnd - (b.withoutStart s).sameAtEnd s + (b.withoutStart s).sameAtEnd s = b.oldEnd :=
      Nat.sub_add_cancel (Nat.le_trans hend.1 (Nat.sub_le ..))
    have hnew : (b.withoutStart s).newEnd - (b.withoutStart s).sameAtEnd s + (b.withoutStart s).sameAtEnd s = b.newEnd :=
      Nat.sub_add_cancel (Nat.le_trans hend.2 (Nat.sub_le ..))
    rw [way_succ]
    refine leads_append.2 ⟨_, _, leads_append.2 ⟨_, _, leads_equal (s.agree_commonPrefix b.old b.new _), hbetween⟩, ?_⟩
    rw [← hold, ← hnew]
    exact hlast

end Way

/-! ## Changes that are moved -/

/-- Wherever the first changes lead, the second do. -/
def Keeps (s : Sides) (l l' : List Change) : Prop :=
  ∀ x y x' y', Leads s False x y l x' y' → Leads s False x y l' x' y'

section Keeps

variable {s : Sides} {l l' l'' : List Change}

theorem Keeps.refl (s : Sides) (l : List Change) : Keeps s l l := fun _ _ _ _ => id

theorem Keeps.trans (h : Keeps s l l') (h' : Keeps s l' l'') : Keeps s l l'' :=
  fun x y x' y' hl => h' x y x' y' (h x y x' y' hl)

theorem Keeps.within (h : Keeps s l l') (front back : List Change) :
    Keeps s (front ++ (l ++ back)) (front ++ (l' ++ back)) := by
  intro x y x' y' hl
  obtain ⟨u, v, hfront, hrest⟩ := leads_append.1 hl
  obtain ⟨u', v', hmid, hback⟩ := leads_append.1 hrest
  exact leads_append.2 ⟨u, v, hfront, leads_append.2 ⟨u', v', h u v u' v' hmid, hback⟩⟩

theorem keeps_delete_insert {o c n io i ic : Nat} :
    Keeps s [.delete o c n, .insert io i ic] [.insert io i ic, .delete o c n] := by
  intro x y x' y' h
  exact ⟨h.2.1, h.1, h.2.2⟩

theorem keeps_insert_delete {o c n io i ic : Nat} :
    Keeps s [.insert io i ic, .delete o c n] [.delete o c n, .insert io i ic] := by
  intro x y x' y' h
  exact ⟨h.2.1, h.1, h.2.2⟩

theorem keeps_inserts {o n c o' n' c' : Nat} :
    Keeps s [.insert o n c, .insert o' n' c'] [.insert o n (c + c')] := by
  intro x y x' y' h
  obtain ⟨hfrom, -, hx, hy⟩ := h
  refine ⟨hfrom, hx, ?_⟩
  rw [hy]
  exact Nat.add_assoc y c c'

theorem keeps_deletes {o c n o' c' n' : Nat} :
    Keeps s [.delete o c n, .delete o' c' n'] [.delete o (c + c') n] := by
  intro x y x' y' h
  obtain ⟨hfrom, -, hx, hy⟩ := h
  refine ⟨hfrom, ?_, hy⟩
  rw [hx]
  exact Nat.add_assoc x c c'

theorem keeps_empty {o n : Nat} : Keeps s [.equal o n 0] [] := by
  intro x y x' y' h
  exact h.2

theorem keeps_equals (s : Sides) (o n c o' n' c' : Nat) :
    Keeps s [.equal o n c, .equal o' n' c'] [.equal o n (c + c')] := by
  intro x y x' y' h
  obtain ⟨⟨ho, hn, hfirst⟩, ⟨-, -, hsecond⟩, hx, hy⟩ := h
  refine ⟨⟨ho, hn, Sides.agree_add.2 ⟨hfirst, hsecond⟩⟩, ?_, ?_⟩
  · rw [hx]
    exact Nat.add_assoc x c c'
  · rw [hy]
    exact Nat.add_assoc y c c'

theorem keeps_equals_back (s : Sides) (o n c o' n' c' : Nat) :
    Keeps s [.equal o n c, .equal o' n' c'] [.equal (o' - c) (n' - c) (c' + c)] := by
  intro x y x' y' h
  obtain ⟨hfrom, ⟨ho', hn', -⟩, -⟩ := id h
  have hboth := keeps_equals s o n c o' n' c' x y x' y' h
  dsimp only [Change.oldCount, Change.newCount] at ho' hn'
  rw [ho', hn', Nat.add_sub_cancel, Nat.add_sub_cancel, Nat.add_comm c' c]
  rwa [hfrom.1, hfrom.2.1] at hboth

/-- An insertion is moved up over lines that are the same as its last ones. -/
theorem keeps_up (s : Sides) (o n c io i ic k : Nat) (hk : k = s.commonSuffix (o + c) (i + ic) (Nat.min c ic)) :
    Keeps s [.equal o n c, .insert io i ic] ((if c = k then [] else [.equal o n (c - k)]) ++
      [.insert (io - k) (i - k) ic, .equal (o + c - k) (i + ic - k) k]) := by
  have hle := s.commonSuffix_le (o + c) (i + ic) (Nat.min c ic)
  have hagree := s.agree_commonSuffix (o + c) (i + ic) (Nat.min c ic)
  rw [Nat.le_min, ← hk] at hle
  rw [← hk] at hagree
  intro x y x' y' h
  obtain ⟨⟨rfl, rfl, hsame⟩, hi, hx, hy⟩ := h
  dsimp only [Change.From, Change.oldCount, Change.newCount] at hi hx hy
  refine leads_append.2 ⟨o + (c - k), n + (c - k), ?_, ?_⟩
  · split
    · exact ⟨by omega, by omega⟩
    · exact ⟨⟨rfl, rfl, fun t ht => hsame t (by omega)⟩, rfl, rfl⟩
  · have hold : o + c - k = o + (c - k) + 0 := by omega
    have hnew : i + ic - k = n + (c - k) + ic := by omega
    rw [hold, hnew] at hagree ⊢
    refine ⟨?_, ⟨rfl, rfl, hagree⟩, ?_, ?_⟩ <;> dsimp only [Change.From, Change.oldCount, Change.newCount] <;> omega

/-- An insertion is moved down over lines that are the same as its first ones. -/
theorem keeps_down (s : Sides) (o n c io i ic k : Nat) (hk : k = s.commonPrefix o i (Nat.min c ic)) :
    Keeps s [.insert io i ic, .equal o n c] ([.equal o i k, .insert (io + k) (i + k) ic] ++
      if c = k then [] else [.equal (o + k) (n + k) (c - k)]) := by
  have hle := s.commonPrefix_le o i (Nat.min c ic)
  have hagree := s.agree_commonPrefix o i (Nat.min c ic)
  rw [Nat.le_min, ← hk] at hle
  rw [← hk] at hagree
  intro x y x' y' h
  obtain ⟨hi, ⟨ho, hn, hsame⟩, hx, hy⟩ := h
  dsimp only [Change.From, Change.oldCount, Change.newCount] at hi ho hn hsame hx hy
  rw [Nat.add_zero] at ho hsame hx
  subst hi ho
  refine leads_append.2 ⟨o + k, i + k + ic, ⟨⟨rfl, rfl, hagree⟩, rfl, rfl, rfl⟩, ?_⟩
  split
  · exact ⟨by omega, by omega⟩
  · rename_i hne
    have hsplit : c = k + (c - k) := by omega
    rw [hsplit] at hsame
    have hrest := (Sides.agree_add.1 hsame).2
    have hnew : n + k = i + k + ic := by omega
    rw [hnew]
    have hplace : i + ic + k = i + k + ic := by omega
    rw [hplace] at hrest
    refine ⟨⟨rfl, rfl, hrest⟩, ?_, ?_⟩ <;> dsimp only [Change.oldCount, Change.newCount] <;> omega

/-- All changes in their order. -/
def Focus.list (f : Focus) : List Change := f.before.reverse ++ f.this :: f.after

theorem Focus.list_cons (c this : Change) (before after : List Change) :
    Focus.list ⟨c :: before, this, after⟩ = before.reverse ++ ([c, this] ++ after) := by
  rw [Focus.list, List.reverse_cons, List.append_assoc]
  rfl

theorem keeps_above {c this : Change} (h : Keeps s [c, this] l) (before after : List Change) :
    Keeps s (Focus.list ⟨c :: before, this, after⟩) (before.reverse ++ (l ++ after)) := by
  rw [Focus.list_cons]
  exact h.within before.reverse after

theorem keeps_below {c this : Change} (h : Keeps s [this, c] l) (before after : List Change) :
    Keeps s (Focus.list ⟨before, this, c :: after⟩) (before.reverse ++ (l ++ after)) :=
  h.within before.reverse after

theorem keeps_focus_up (s : Sides) (fuel : Nat) (f : Focus) : Keeps s f.list (Focus.up s fuel f).list := by
  induction fuel generalizing f with
  | zero => exact .refl s _
  | succ fuel ih =>
    obtain ⟨before, this, after⟩ := f
    rw [Focus.up]
    dsimp only
    split
    · rename_i o n c before io i ic
      generalize hk : s.commonSuffix (o + c) (i + ic) (Nat.min c ic) = k
      have hmove := keeps_above (keeps_up s o n c io i ic k hk.symm) before after
      split
      · refine hmove.trans (Keeps.trans ?_ (ih _))
        have hlist : ∀ rest, Focus.list ⟨if c = k then before else .equal o n (c - k) :: before,
            .insert (io - k) (i - k) ic, rest⟩ =
            before.reverse ++ (if c = k then [] else [.equal o n (c - k)]) ++ [.insert (io - k) (i - k) ic] ++ rest := by
          intro rest
          split <;> simp [Focus.list]
        have hmoved : before.reverse ++ ((if c = k then [] else [.equal o n (c - k)]) ++
            [.insert (io - k) (i - k) ic, .equal (o + c - k) (i + ic - k) k] ++ after) =
            before.reverse ++ (if c = k then [] else [.equal o n (c - k)]) ++ [.insert (io - k) (i - k) ic] ++
              ([.equal (o + c - k) (i + ic - k) k] ++ after) := by simp
        rw [hlist, hmoved]
        -- the lines that it was moved over join those behind them
        cases after with
        | nil => exact .refl s _
        | cons a rest =>
          cases a with
          | equal o' n' c' => exact (keeps_equals_back s (o + c - k) (i + ic - k) k o' n' c').within _ rest
          | _ => exact .refl s _
      · split
        · rename_i hzero
          subst hzero
          exact (keeps_above (keeps_empty.within [] [.insert io i ic]) before after).trans (ih ⟨before, .insert io i ic, after⟩)
        · exact .refl s _
    · rename_i before o c n
      exact (keeps_above (keeps_empty.within [] [.delete o c n]) before after).trans (ih ⟨before, .delete o c n, after⟩)
    · exact (keeps_above keeps_delete_insert _ after).trans (ih ⟨_, _, _ :: after⟩)
    · exact (keeps_above keeps_insert_delete _ after).trans (ih ⟨_, _, _ :: after⟩)
    · exact (keeps_above keeps_inserts _ after).trans (ih ⟨_, _, after⟩)
    · exact (keeps_above keeps_deletes _ after).trans (ih ⟨_, _, after⟩)
    · exact .refl s _

theorem keeps_focus_down (s : Sides) (fuel : Nat) (f : Focus) : Keeps s f.list (Focus.down s fuel f).list := by
  induction fuel generalizing f with
  | zero => exact .refl s _
  | succ fuel ih =>
    obtain ⟨before, this, after⟩ := f
    rw [Focus.down]
    dsimp only
    split
    · rename_i o n c after io i ic
      generalize hk : s.commonPrefix o i (Nat.min c ic) = k
      have hmove := keeps_below (keeps_down s o n c io i ic k hk.symm) before after
      split
      · refine hmove.trans (Keeps.trans ?_ (ih _))
        have hlist : ∀ front, Focus.list ⟨front, .insert (io + k) (i + k) ic,
            if c = k then after else .equal (o + k) (n + k) (c - k) :: after⟩ =
            front.reverse ++ (.insert (io + k) (i + k) ic ::
              ((if c = k then [] else [.equal (o + k) (n + k) (c - k)]) ++ after)) := by
          intro front
          split <;> simp [Focus.list]
        rw [hlist]
        -- the lines that it was moved over join those in front of them
        cases before with
        | nil => exact .refl s _
        | cons a rest =>
          have hjoin : ∀ (a : Change) l l', (a :: l).reverse ++ l' = l.reverse ++ ([a] ++ l') := by simp
          cases a with
          | equal o' n' c' =>
            rw [hjoin, hjoin]
            exact (keeps_equals s o' n' c' o i k).within rest.reverse _
          | _ =>
            dsimp only
            rw [hjoin (.equal o i k)]
            exact .refl s _
      · split
        · rename_i hzero
          subst hzero
          exact (keeps_below (keeps_empty.within [.insert io i ic] []) before after).trans (ih ⟨before, .insert io i ic, after⟩)
        · exact .refl s _
    · rename_i after o c n
      exact (keeps_below (keeps_empty.within [.delete o c n] []) before after).trans (ih ⟨before, .delete o c n, after⟩)
    · refine (keeps_below keeps_insert_delete before _).trans (Keeps.trans ?_ (ih _))
      rw [Focus.list_cons]
      exact .refl s _
    · refine (keeps_below keeps_delete_insert before _).trans (Keeps.trans ?_ (ih _))
      rw [Focus.list_cons]
      exact .refl s _
    · exact (keeps_below keeps_inserts before _).trans (ih ⟨before, _, _⟩)
    · exact (keeps_below keeps_deletes before _).trans (ih ⟨before, _, _⟩)
    · exact .refl s _

/-- Changes that are settled lead where they did. -/
theorem keeps_settle (s : Sides) (kind : Change → Bool) (fuel : Nat) (before after : List Change) :
    Keeps s (before.reverse ++ after) (settle s kind fuel before after) := by
  induction fuel generalizing before after with
  | zero => exact .refl s _
  | succ fuel ih =>
    cases after with
    | nil =>
      rw [settle, List.append_nil]
      · exact .refl s _
      · exact fun h => by cases h
    | cons c after =>
      rw [settle]
      split
      · dsimp only
        generalize 4 * (s.old.size + s.new.size) + 16 = steps
        have hup := keeps_focus_up s steps ⟨before, c, after⟩
        have hdown := keeps_focus_down s steps (Focus.up s steps ⟨before, c, after⟩)
        refine (hup.trans hdown).trans ?_
        generalize Focus.down s steps (Focus.up s steps ⟨before, c, after⟩) = f
        have hrest := ih (f.this :: f.before) f.after
        rw [List.reverse_cons, List.append_assoc] at hrest
        exact hrest
      · have hrest := ih (c :: before) after
        rw [List.reverse_cons, List.append_assoc] at hrest
        exact hrest

end Keeps

/-! ## Runs of changes as one -/

section Merged

variable {s : Sides} {run : Run} {equal : Option (Nat × Nat × Nat)} {x y x' y' : Nat}

/-- The deletion and the insertion of a run. -/
def Run.parts (run : Run) : List Change :=
  run.deleted.toList.map (fun d => Change.delete d.1 d.2.1 d.2.2) ++
    run.inserted.toList.map fun i => Change.insert i.1 i.2.1 i.2.2

theorem leads_run (h : Leads s False x y run.parts x' y') : Leads s True x y run.changes x' y' := by
  obtain ⟨deleted, inserted⟩ := run
  cases deleted with
  | none =>
    cases inserted with
    | none => exact h
    | some i => exact h
  | some d =>
    cases inserted with
    | none => exact h
    | some i => exact ⟨⟨trivial, h.1, h.2.1⟩, h.2.2⟩

theorem keeps_run_delete (s : Sides) (run : Run) (o c n : Nat) : ∃ deleted,
    (∀ equal r, merged run equal (.delete o c n :: r) =
      merged.stretch equal ++ merged { run with deleted := some deleted } none r) ∧
    Keeps s (run.parts ++ [.delete o c n]) (Run.parts { run with deleted := some deleted }) := by
  obtain ⟨deleted, inserted⟩ := run
  cases deleted with
  | none =>
    refine ⟨(o, c, n), fun equal r => by rw [merged], ?_⟩
    cases inserted with
    | none => exact .refl s _
    | some i => exact keeps_insert_delete
  | some d =>
    refine ⟨(d.1, d.2.1 + c, d.2.2), fun equal r => by rw [merged], ?_⟩
    cases inserted with
    | none => exact keeps_deletes
    | some i =>
      -- the deletion passes the insertion of the run and joins the deletion in front of it
      exact (keeps_insert_delete.within [.delete d.1 d.2.1 d.2.2] []).trans (keeps_deletes.within [] [.insert i.1 i.2.1 i.2.2])

theorem keeps_run_insert (s : Sides) (run : Run) (o n c : Nat) : ∃ inserted,
    (∀ equal r, merged run equal (.insert o n c :: r) =
      merged.stretch equal ++ merged { run with inserted := some inserted } none r) ∧
    Keeps s (run.parts ++ [.insert o n c]) (Run.parts { run with inserted := some inserted }) := by
  obtain ⟨deleted, inserted⟩ := run
  cases inserted with
  | none =>
    refine ⟨(o, n, c), fun equal r => by rw [merged], ?_⟩
    simpa [Run.parts] using Keeps.refl s _
  | some i =>
    refine ⟨(i.1, i.2.1, i.2.2 + c), fun equal r => by rw [merged], ?_⟩
    have hinserts : Keeps s [.insert i.1 i.2.1 i.2.2, .insert o n c] [.insert i.1 i.2.1 (i.2.2 + c)] := keeps_inserts
    simpa [Run.parts] using hinserts.within (deleted.toList.map fun d => Change.delete d.1 d.2.1 d.2.2) []

/-- Changes lead where they did when runs of them are made one. -/
theorem leads_merged {l : List Change} (hrun : equal ≠ none → run.parts = [])
    (h : Leads s False x y (merged.stretch equal ++ (run.parts ++ l)) x' y') :
    Leads s True x y (merged run equal l) x' y' := by
  -- the run and the stretch that are being read stand in front of what is left of the list
  induction l generalizing run equal x y with
  | nil =>
    rw [List.append_nil] at h
    obtain ⟨u, v, hstretch, hparts⟩ := leads_append.1 h
    rw [merged]
    exact leads_append.2 ⟨u, v, hstretch.mono False.elim, leads_run hparts⟩
  | cons c r ih =>
    -- a deletion or an insertion becomes part of the run
    have htaken {taken : Run} (hmerged : merged run equal (c :: r) = merged.stretch equal ++ merged taken none r)
        (hkeeps : Keeps s (run.parts ++ [c]) taken.parts) : Leads s True x y (merged run equal (c :: r)) x' y' := by
      obtain ⟨u, v, hstretch, hrest⟩ := leads_append.1 h
      rw [hmerged]
      refine leads_append.2 ⟨u, v, hstretch.mono False.elim, ih (fun hnone => absurd rfl hnone) ?_⟩
      refine hkeeps.within [] r u v x' y' ?_
      rw [List.nil_append, List.append_assoc]
      exact hrest
    cases c with
    | equal old new count =>
      cases equal with
      | none =>
        obtain ⟨u, v, hparts, hrest⟩ := leads_append.1 (show Leads s False x y (run.parts ++ _) x' y' from h)
        rw [merged]
        exact leads_append.2 ⟨u, v, leads_run hparts, ih (fun _ => rfl) hrest⟩
      | some e =>
        have hempty := hrun (Option.some_ne_none e)
        rw [hempty] at h
        rw [merged]
        refine ih (fun _ => hempty) ?_
        rw [hempty]
        exact (keeps_equals s e.1 e.2.1 e.2.2 old new count).within [] r x y x' y' h
    | delete old count new =>
      obtain ⟨deleted, hmerged, hkeeps⟩ := keeps_run_delete s run old count new
      exact htaken (hmerged equal r) hkeeps
    | insert old new count =>
      obtain ⟨inserted, hmerged, hkeeps⟩ := keeps_run_insert s run old new count
      exact htaken (hmerged equal r) hkeeps
    | replace old oldCount new newCount =>
      obtain ⟨u, v, -, hrest⟩ := leads_append.1 h
      obtain ⟨u', v', -, hreplace⟩ := leads_append.1 hrest
      exact hreplace.1.1.elim

end Merged

/-- The changes lead from the first lines to the ends of both texts. -/
theorem leads_changes (s : Sides) : Leads s True 0 0 (changes s) s.old.size s.new.size := by
  rw [changes]
  have hway := leads_way s (2 * (s.old.size + s.new.size) + 2) ⟨0, s.old.size, 0, s.new.size⟩
    ⟨Nat.zero_le _, Nat.zero_le _⟩ (by dsimp only [Box.width, Box.height]; omega)
  have hdeletes := keeps_settle s Change.isDelete (4 * (s.old.size + s.new.size) + 16) [] _ _ _ _ _ hway
  have hinserts := keeps_settle s Change.isInsert (4 * (s.old.size + s.new.size) + 16) [] _ _ _ _ _ hdeletes
  exact leads_merged (fun _ => rfl) hinserts

end Conformance.Output
