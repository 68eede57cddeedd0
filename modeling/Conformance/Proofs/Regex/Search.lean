import Conformance.Proofs.Regex.Language

/-!
# What the machine finds

The machine finds a match in a text exactly if the pattern leads from one of its places to another, and what it finds
is such a match (`Program.find?_sound`, `Program.find?_complete`). Of its threads some are dropped: those at an
instruction that a preferred thread has passed, and those behind one that accepts. For completeness it is enough that
every instruction that is reached has been passed by some thread (`Front.Closed`).
-/
namespace Conformance.Regex

open Relation

variable {insts : Array Inst} {p : Place} {f f' f'' : Front}

/-! ## Fronts -/

/-- The instruction has been passed, or there is none. -/
def Front.Seen (f : Front) (pc : Nat) : Prop := f.seen[pc]?.getD true = true

/-- The instruction waits for a character or for the end. -/
def Waits (insts : Array Inst) (pc : Nat) : Prop :=
  (∃ s, insts[pc]? = some (.take s)) ∨ insts[pc]? = some .accept

/-- Where an instruction leads has been passed too, and where one waits there is a thread. -/
def Front.Served (insts : Array Inst) (p : Place) (f : Front) (pc : Nat) : Prop :=
  (∀ pc', Slips insts p pc pc' → f.Seen pc') ∧ (Waits insts pc → ∃ t ∈ f.threads, t.pc = pc)

/-- All that has been passed is served. -/
def Front.Closed (insts : Array Inst) (p : Place) (f : Front) : Prop := ∀ pc, f.Seen pc → f.Served insts p pc

/-- The front `f'` comes from `f` by passing more instructions. -/
structure Extends (insts : Array Inst) (p : Place) (f f' : Front) : Prop where
  size_eq : f'.seen.size = f.seen.size
  unseen_le : f'.seen.count false ≤ f.seen.count false
  seen : ∀ pc, f.Seen pc → f'.Seen pc
  threads : ∀ t ∈ f.threads, t ∈ f'.threads
  served : ∀ pc, f'.Seen pc → f.Seen pc ∨ f'.Served insts p pc

theorem Front.Served.mono {pc : Nat} (h : f.Served insts p pc) (hseen : ∀ pc, f.Seen pc → f'.Seen pc)
    (hthreads : ∀ t ∈ f.threads, t ∈ f'.threads) : f'.Served insts p pc := by
  refine ⟨fun pc' hslip => hseen pc' (h.1 pc' hslip), fun hwaits => ?_⟩
  obtain ⟨t, ht, hpc⟩ := h.2 hwaits
  exact ⟨t, hthreads t ht, hpc⟩

theorem Extends.refl (f : Front) : Extends insts p f f :=
  ⟨rfl, Nat.le_refl _, fun _ h => h, fun _ h => h, fun _ h => .inl h⟩

theorem Extends.trans (h : Extends insts p f f') (h' : Extends insts p f' f'') : Extends insts p f f'' where
  size_eq := h'.size_eq.trans h.size_eq
  unseen_le := Nat.le_trans h'.unseen_le h.unseen_le
  seen pc hpc := h'.seen pc (h.seen pc hpc)
  threads t ht := h'.threads t (h.threads t ht)
  served pc hpc := by
    rcases h'.served pc hpc with hpc | hserved
    · exact (h.served pc hpc).imp_right fun hserved => hserved.mono h'.seen h'.threads
    · exact .inr hserved

theorem Extends.closed (h : Extends insts p f f') (hf : f.Closed insts p) : f'.Closed insts p := by
  intro pc hpc
  rcases h.served pc hpc with hpc | hserved
  · exact (hf pc hpc).mono h.seen h.threads
  · exact hserved

/-- What slips lead to from an instruction that has been passed has been passed. -/
theorem Front.Closed.seen_of_slips (hf : f.Closed insts p) {pc pc' : Nat} (hpc : f.Seen pc)
    (h : ReflTransGen (Slips insts p) pc pc') : f.Seen pc' := by
  induction h with
  | refl => exact hpc
  | tail _ hslip ih => exact (hf _ ih).1 _ hslip

theorem Front.closed_empty (insts : Array Inst) (p : Place) : (Front.empty insts.size).Closed insts p := by
  intro pc hpc
  have hnone : insts[pc]? = none := by
    rw [Front.Seen, Front.empty, Array.getElem?_replicate] at hpc
    split at hpc
    · cases hpc
    · exact Array.getElem?_eq_none (Nat.le_of_not_lt ‹_›)
  constructor
  · rintro pc' ⟨i, hi, -⟩
    rw [hnone] at hi
    cases hi
  · rintro (⟨s, hs⟩ | hs) <;> rw [hnone] at hs <;> cases hs

/-! ## Following a thread -/

/-- The front with one more instruction passed. -/
def Front.pass (f : Front) (pc : Nat) : Front := { f with seen := f.seen.setIfInBounds pc true }

theorem Front.seen_pass_iff {pc x : Nat} : (f.pass pc).Seen x ↔ x = pc ∨ f.Seen x := by
  rw [Front.Seen, Front.pass, Front.Seen, Array.getElem?_setIfInBounds]
  split
  · rename_i h
    subst h
    split <;> simp
  · rename_i h
    simp [Ne.symm h]

theorem Front.count_pass {pc : Nat} (h : ¬ f.Seen pc) : (f.pass pc).seen.count false + 1 = f.seen.count false := by
  have hpc : f.seen[pc]? = some false := by
    rw [Front.Seen] at h
    cases hseen : f.seen[pc]? with
    | none => rw [hseen] at h; exact absurd rfl h
    | some b => rw [hseen] at h; simpa using h
  obtain ⟨hlt, hfalse⟩ := Array.getElem?_eq_some_iff.1 hpc
  have hpos : 0 < f.seen.count false := Array.count_pos_iff.2 (Array.mem_of_getElem? hpc)
  rw [Front.pass, Array.setIfInBounds_def, dif_pos hlt, Array.count_set, hfalse]
  simp
  omega

/-- The instruction that has been passed first is served in the end. -/
theorem Extends.of_pass {pc : Nat} (hpc : ¬ f.Seen pc) (h : Extends insts p (f.pass pc) f')
    (hserved : f'.Served insts p pc) : Extends insts p f f' ∧ f'.Seen pc := by
  refine ⟨⟨?_, ?_, fun x hx => h.seen x (Front.seen_pass_iff.2 (.inr hx)), h.threads, fun x hx => ?_⟩,
    h.seen pc (Front.seen_pass_iff.2 (.inl rfl))⟩
  · rw [h.size_eq, Front.pass, Array.size_setIfInBounds]
  · have hcount := Front.count_pass hpc
    have hle := h.unseen_le
    omega
  · rcases h.served x hx with hx | hx
    · rcases Front.seen_pass_iff.1 hx with rfl | hx
      · exact .inr hserved
      · exact .inl hx
    · exact .inr hx

theorem served_of_inst {i : Inst} {pc : Nat} (hinst : insts[pc]? = some i) (hslips : ∀ pc' ∈ i.slips pc p, f.Seen pc')
    (hwaits : Waits insts pc → ∃ t ∈ f.threads, t.pc = pc) : f.Served insts p pc := by
  refine ⟨?_, hwaits⟩
  rintro pc' ⟨j, hj, h⟩
  obtain rfl := Option.some.inj (hinst.symm.trans hj)
  exact hslips pc' h

/-- A thread that waits is kept. -/
theorem Extends.keep (t : Thread) : Extends insts p f { f with threads := t :: f.threads } :=
  ⟨rfl, Nat.le_refl _, fun _ h => h, fun _ h => List.mem_cons_of_mem t h, fun _ h => .inl h⟩

/-- Following a thread passes its instruction and all that this leads to, if there is fuel for all instructions. -/
theorem follow_extends {fuel : Nat} {t : Thread} (hfuel : f.seen.count false < fuel) :
    Extends insts p f (follow insts p fuel t f) ∧ (follow insts p fuel t f).Seen t.pc := by
  induction fuel generalizing t f with
  | zero => exact absurd hfuel (Nat.not_lt_zero _)
  | succ fuel ih =>
    rw [follow]
    split
    · rename_i hseen
      exact ⟨.refl f, hseen⟩
    · rename_i hseen
      -- the instruction is passed now, so one fewer is left for the threads it leads to
      have hcount := Front.count_pass hseen
      have hless : (f.pass t.pc).seen.count false < fuel := by omega
      have hkept : Waits insts t.pc → ∃ u ∈ t :: f.threads, u.pc = t.pc := fun _ => ⟨t, List.mem_cons_self, rfl⟩
      dsimp only
      split
      · rename_i hinst
        exact Extends.of_pass hseen (.refl (f.pass t.pc)) ⟨by simp [Slips, hinst], by simp [Waits, hinst]⟩
      · rename_i s hinst
        exact Extends.of_pass hseen (.keep (f := f.pass t.pc) t) (served_of_inst hinst (by simp [Inst.slips]) hkept)
      · rename_i hinst
        exact Extends.of_pass hseen (.keep (f := f.pass t.pc) t) (served_of_inst hinst (by simp [Inst.slips]) hkept)
      · rename_i l hinst
        split
        · rename_i hl
          obtain ⟨hnext, hpassed⟩ := ih (t := { t with pc := t.pc + 1 }) hless
          refine Extends.of_pass hseen hnext (served_of_inst hinst ?_ (by simp [Waits, hinst]))
          rw [Inst.slips, if_pos hl]
          exact List.forall_mem_singleton.2 hpassed
        · rename_i hl
          exact Extends.of_pass hseen (.refl (f.pass t.pc))
            (served_of_inst hinst (by simp [Inst.slips, hl]) (by simp [Waits, hinst]))
      · rename_i slot hinst
        obtain ⟨hnext, hpassed⟩ := ih (t := { t with pc := t.pc + 1, marks := (slot, p.index) :: t.marks }) hless
        exact Extends.of_pass hseen hnext
          (served_of_inst hinst (List.forall_mem_singleton.2 hpassed) (by simp [Waits, hinst]))
      · rename_i first second hinst
        obtain ⟨hfirst, hpassed⟩ := ih (t := { t with pc := first }) hless
        -- the second thread is followed behind the first, which leaves no more unseen than before
        have hle := hfirst.unseen_le
        obtain ⟨hsecond, hpassed'⟩ := ih (t := { t with pc := second }) (Nat.lt_of_le_of_lt hle hless)
        exact Extends.of_pass hseen (hfirst.trans hsecond) (served_of_inst hinst
          (List.forall_mem_cons.2 ⟨hsecond.seen _ hpassed, List.forall_mem_singleton.2 hpassed'⟩)
          (by simp [Waits, hinst]))
      · rename_i target hinst
        obtain ⟨hnext, hpassed⟩ := ih (t := { t with pc := target }) hless
        exact Extends.of_pass hseen hnext
          (served_of_inst hinst (List.forall_mem_singleton.2 hpassed) (by simp [Waits, hinst]))

/-- What holds of a thread and of all that its instruction leads to holds of the threads that come from it. -/
theorem follow_forall {P : Nat → Nat → Prop} (hslips : ∀ start pc pc', P start pc → Slips insts p pc pc' → P start pc')
    {fuel : Nat} {t : Thread} (ht : P t.start t.pc) (hf : ∀ u ∈ f.threads, P u.start u.pc) :
    ∀ u ∈ (follow insts p fuel t f).threads, P u.start u.pc := by
  induction fuel generalizing t f with
  | zero => exact hf
  | succ fuel ih =>
    have hnext : ∀ {i : Inst} {pc' : Nat}, insts[t.pc]? = some i → pc' ∈ i.slips t.pc p → P t.start pc' :=
      fun hinst h => hslips _ _ _ ht ⟨_, hinst, h⟩
    rw [follow]
    split
    · exact hf
    · dsimp only
      split
      · exact hf
      · exact List.forall_mem_cons.2 ⟨ht, hf⟩
      · exact List.forall_mem_cons.2 ⟨ht, hf⟩
      · rename_i hinst
        split
        · rename_i hl
          exact ih (hnext hinst (by simp [Inst.slips, hl])) hf
        · exact hf
      · rename_i hinst
        exact ih (hnext hinst (by simp [Inst.slips])) hf
      · rename_i hinst
        exact ih (hnext hinst (by simp [Inst.slips])) (ih (hnext hinst (by simp [Inst.slips])) hf)
      · rename_i hinst
        exact ih (hnext hinst (by simp [Inst.slips])) hf

/-! ## Places of a text -/

/-- The place in front of the character at the index. -/
def placeIn (cs : List Char) (i : Nat) : Place := ⟨(cs.take i).getLast?, cs.drop i, i⟩

/-- From the start, a thread can come to the instruction in front of the character at the index. -/
def Reaches (insts : Array Inst) (cs : List Char) (start i pc : Nat) : Prop :=
  ReflTransGen (Step insts) (0, placeIn cs start) (pc, placeIn cs i)

section Reaches

variable {cs : List Char} {start i pc : Nat}

theorem placeIn_succ {c : Char} {r : List Char} (h : cs.drop i = c :: r) :
    placeIn cs (i + 1) = (placeIn cs i).past [c] r := by
  have hget : cs[i]? = some c := by
    rw [← Nat.add_zero i, ← List.getElem?_drop, h]
    rfl
  have hdrop : cs.drop (i + 1) = r := by
    rw [← List.tail_drop, h]
    rfl
  rw [placeIn, Place.past, List.take_add_one, hget, hdrop]
  simp [placeIn]

/-- The last character that a thread took, or that it has taken none. -/
inductive Comes (insts : Array Inst) (cs : List Char) (start i pc : Nat) : Prop
  | fresh (hstart : start = i) (h : ReflTransGen (Slips insts (placeIn cs i)) 0 pc)
  | taken {j v : Nat} {s : CharSet} {c : Char} {r : List Char} (hi : i = j + 1) (hj : start ≤ j)
      (hreaches : Reaches insts cs start j v) (hinst : insts[v]? = some (.take s)) (hrest : cs.drop j = c :: r)
      (hc : s.contains c.toNat = true) (h : ReflTransGen (Slips insts (placeIn cs i)) (v + 1) pc)

theorem Comes.le (h : Comes insts cs start i pc) : start ≤ i := by
  cases h with
  | fresh hstart => exact Nat.le_of_eq hstart
  | taken hi hj => exact hi ▸ Nat.le_succ_of_le hj

theorem comes_of_steps {b : Nat × Place} (h : ReflTransGen (Step insts) (0, placeIn cs start) b) :
    ∃ i, b.2 = placeIn cs i ∧ Comes insts cs start i b.1 := by
  induction h with
  | refl => exact ⟨start, rfl, .fresh rfl .refl⟩
  | @tail b d hb hstep ih =>
    obtain ⟨i, hplace, hcomes⟩ := ih
    obtain ⟨pc, q⟩ := b
    obtain rfl : q = placeIn cs i := hplace
    cases hstep with
    | slip hslip =>
      refine ⟨i, rfl, ?_⟩
      cases hcomes with
      | fresh hstart h => exact .fresh hstart (h.tail hslip)
      | taken hi hj hreaches hinst hrest hc h => exact .taken hi hj hreaches hinst hrest hc (h.tail hslip)
    | take hinst hrest hc => exact ⟨i + 1, (placeIn_succ hrest).symm, .taken rfl hcomes.le hb hinst hrest hc .refl⟩

theorem Reaches.comes (h : Reaches insts cs start i pc) : Comes insts cs start i pc := by
  obtain ⟨j, hplace, hcomes⟩ := comes_of_steps h
  obtain rfl : i = j := congrArg Place.index hplace
  exact hcomes

theorem Reaches.slips {pc' : Nat} (h : Reaches insts cs start i pc) (hslips : Slips insts (placeIn cs i) pc pc') :
    Reaches insts cs start i pc' := h.tail (.slip hslips)

end Reaches

/-! ## Moving on -/

section Advance

variable {here next : Place} {found : Option Found} {threads : List Thread}

theorem advance_isSome (h : found.isSome) : (advance insts here next found threads f).2.isSome := by
  induction threads generalizing f with
  | nil => exact h
  | cons t threads ih =>
    rw [advance]
    split
    · rfl
    · exact ih
    · exact ih

/-- Where no match has been made, no thread accepts. -/
theorem not_accept_of_advance (h : (advance insts here next none threads f).2 = none) :
    ∀ t ∈ threads, insts[t.pc]? ≠ some .accept := by
  induction threads generalizing f with
  | nil => exact fun t ht => absurd ht List.not_mem_nil
  | cons t threads ih =>
    rw [advance] at h
    split at h
    · cases h
    · rename_i hinst
      exact List.forall_mem_cons.2 ⟨by rw [hinst]; exact nofun, ih h⟩
    · rename_i haccept _
      exact List.forall_mem_cons.2 ⟨haccept, ih h⟩

/-- Where no match has been made, every thread that can take the character has been moved over it. -/
theorem advance_extends (h : (advance insts here next none threads f).2 = none) (hsize : f.seen.size = insts.size) :
    Extends insts next f (advance insts here next none threads f).1 ∧
      ∀ t ∈ threads, ∀ s, insts[t.pc]? = some (.take s) → here.rest.head?.any (s.contains ·.toNat) = true →
        (advance insts here next none threads f).1.Seen (t.pc + 1) := by
  induction threads generalizing f with
  | nil => exact ⟨.refl f, fun t ht => absurd ht List.not_mem_nil⟩
  | cons t threads ih =>
    rw [advance] at h ⊢
    split at h
    · cases h
    · rename_i s hinst
      dsimp only at h ⊢
      -- the thread is moved over the character, or dropped where it cannot take it
      generalize hfront : (if here.rest.head?.any (s.contains ·.toNat) then
        follow insts next (insts.size + 1) { t with pc := t.pc + 1 } f else f) = front at h ⊢
      obtain ⟨hmoved, hpassed⟩ : Extends insts next f front ∧
          (here.rest.head?.any (s.contains ·.toNat) = true → front.Seen (t.pc + 1)) := by
        have hunseen : f.seen.count false ≤ f.seen.size := Array.count_le_size
        rw [← hfront]
        split
        · exact (follow_extends (by omega)).imp_right fun hpassed _ => hpassed
        · rename_i hc
          exact ⟨.refl f, fun h => absurd h hc⟩
      obtain ⟨hrest, hothers⟩ := ih h (hmoved.size_eq.trans hsize)
      refine ⟨hmoved.trans hrest, List.forall_mem_cons.2 ⟨fun s' hs' hc => ?_, hothers⟩⟩
      obtain rfl : s = s' := Inst.take.inj (Option.some.inj (hinst.symm.trans hs'))
      exact hrest.seen _ (hpassed hc)
    · rename_i htake
      obtain ⟨hrest, hothers⟩ := ih h hsize
      exact ⟨hrest, List.forall_mem_cons.2 ⟨fun s hs => absurd hs (htake s), hothers⟩⟩

/-- What holds of the threads holds of those that have been moved over the character. -/
theorem advance_forall {P Q : Nat → Nat → Prop}
    (hslips : ∀ start pc pc', Q start pc → Slips insts next pc pc' → Q start pc')
    (hmoves : ∀ start pc s, P start pc → insts[pc]? = some (.take s) →
      here.rest.head?.any (s.contains ·.toNat) = true → Q start (pc + 1))
    (hthreads : ∀ t ∈ threads, P t.start t.pc) (hf : ∀ t ∈ f.threads, Q t.start t.pc) :
    (∀ t ∈ (advance insts here next found threads f).1.threads, Q t.start t.pc) ∧
      ∀ m, (advance insts here next found threads f).2 = some m → found = some m ∨
        m.finish = here.index ∧ ∃ pc, insts[pc]? = some .accept ∧ P m.start pc := by
  induction threads generalizing f with
  | nil => exact ⟨hf, fun m hm => .inl hm⟩
  | cons t threads ih =>
    obtain ⟨ht, hrest⟩ := List.forall_mem_cons.1 hthreads
    rw [advance]
    split
    · rename_i hinst
      refine ⟨hf, fun m hm => .inr ?_⟩
      obtain rfl := Option.some.inj hm
      exact ⟨rfl, t.pc, hinst, ht⟩
    · rename_i s hinst
      refine ih hrest ?_
      split
      · rename_i hc
        exact follow_forall hslips (hmoves _ _ _ ht hinst hc) hf
      · exact hf
    · exact ih hrest hf

end Advance

/-! ## Searching -/

/-- A match in the text. -/
structure IsMatch (insts : Array Inst) (cs : List Char) (start finish : Nat) : Prop where
  le : start ≤ finish
  le_length : finish ≤ cs.length
  accepts : ∃ pc, insts[pc]? = some .accept ∧ Reaches insts cs start finish pc

section Search

variable {cs : List Char}

theorem search_isSome {before : Option Char} {index : Nat} {found : Option Found} {rest : List Char}
    (h : found.isSome) : (search insts before index f found rest).isSome := by
  induction rest generalizing before index f found with
  | nil => exact advance_isSome h
  | cons c r ih =>
    rw [search]
    dsimp only
    generalize (if found.isNone then _ else f) = front
    split
    · exact advance_isSome h
    · exact ih (advance_isSome h)

/-- A thread that stands here has come here. -/
def Threads (insts : Array Inst) (cs : List Char) (i : Nat) (f : Front) : Prop :=
  ∀ t ∈ f.threads, t.start ≤ i ∧ Reaches insts cs t.start i t.pc

theorem threads_seeded {i : Nat} (h : Threads insts cs i f) (seed : Bool) (fuel : Nat) :
    Threads insts cs i (if seed then follow insts (placeIn cs i) fuel ⟨0, i, []⟩ f else f) := by
  split
  · exact follow_forall (P := fun start pc => start ≤ i ∧ Reaches insts cs start i pc)
      (fun start pc pc' hpc hslips => ⟨hpc.1, hpc.2.slips hslips⟩) ⟨Nat.le_refl i, .refl⟩ h
  · exact h

/-- The place behind the next character. -/
theorem placeIn_next {i : Nat} {c : Char} {r : List Char} (hrest : cs.drop i = c :: r) :
    placeIn cs (i + 1) = ⟨some c, r, i + 1⟩ := placeIn_succ hrest

theorem succ_le_length {i : Nat} {c : Char} {r : List Char} (hrest : cs.drop i = c :: r) : i + 1 ≤ cs.length := by
  have hlength := congrArg List.length hrest
  rw [List.length_drop, List.length_cons] at hlength
  omega

/-- Threads that have come here move on to threads that have come to the next place, and make matches that end here. -/
theorem advance_threads {i : Nat} {next : Place} {front : Front} (found : Option Found) (f : Front)
    (hnext : ∀ c r, cs.drop i = c :: r → placeIn cs (i + 1) = next) (hi : i ≤ cs.length)
    (hfront : Threads insts cs i front) (hf : f.threads = []) :
    (cs.drop i ≠ [] → Threads insts cs (i + 1) (advance insts (placeIn cs i) next found front.threads.reverse f).1) ∧
      ∀ m, (advance insts (placeIn cs i) next found front.threads.reverse f).2 = some m →
        found = some m ∨ IsMatch insts cs m.start m.finish := by
  have hthreads : ∀ t ∈ front.threads.reverse, t.start ≤ i ∧ Reaches insts cs t.start i t.pc :=
    fun t ht => hfront t (List.mem_reverse.1 ht)
  have hslips : ∀ start pc pc', (cs.drop i ≠ [] → start ≤ i + 1 ∧ Reaches insts cs start (i + 1) pc) →
      Slips insts next pc pc' → cs.drop i ≠ [] → start ≤ i + 1 ∧ Reaches insts cs start (i + 1) pc' := by
    intro start pc pc' hpc hslips hne
    obtain ⟨c, r, hrest⟩ := List.exists_cons_of_ne_nil hne
    rw [← hnext c r hrest] at hslips
    exact ⟨(hpc hne).1, (hpc hne).2.slips hslips⟩
  have hmoves : ∀ start pc s, start ≤ i ∧ Reaches insts cs start i pc → insts[pc]? = some (.take s) →
      (placeIn cs i).rest.head?.any (s.contains ·.toNat) = true →
        cs.drop i ≠ [] → start ≤ i + 1 ∧ Reaches insts cs start (i + 1) (pc + 1) := by
    intro start pc s hpc hinst hc hne
    obtain ⟨c, r, hrest⟩ := List.exists_cons_of_ne_nil hne
    have hrest' : (placeIn cs i).rest = c :: r := hrest
    rw [hrest'] at hc
    refine ⟨Nat.le_succ_of_le hpc.1, ?_⟩
    rw [Reaches, placeIn_succ hrest]
    exact hpc.2.tail (.take hinst hrest' hc)
  obtain ⟨hmoved, hmatches⟩ := advance_forall (P := fun start pc => start ≤ i ∧ Reaches insts cs start i pc)
    (Q := fun start pc => cs.drop i ≠ [] → start ≤ i + 1 ∧ Reaches insts cs start (i + 1) pc) hslips hmoves hthreads
    (by rw [hf]; exact fun t ht => absurd ht List.not_mem_nil)
  refine ⟨fun hne t ht => hmoved t ht hne, fun m hm => ?_⟩
  rcases hmatches m hm with hfound | ⟨hfinish, pc, haccept, hle, hreaches⟩
  · exact .inl hfound
  · have hfinish : m.finish = i := hfinish
    rw [hfinish]
    exact .inr ⟨hle, hi, pc, haccept, hreaches⟩

/-- What the search finds is a match. -/
theorem search_sound {i : Nat} {found : Option Found} {rest : List Char} (hi : i ≤ cs.length)
    (hrest : cs.drop i = rest) (hf : Threads insts cs i f) {m : Found}
    (h : search insts (cs.take i).getLast? i f found rest = some m) :
    found = some m ∨ IsMatch insts cs m.start m.finish := by
  -- place by place, with the match that has been found so far
  induction rest generalizing i f found with
  | nil =>
    rw [search, ← hrest] at h
    have hseeded := threads_seeded hf found.isNone (insts.size + 1)
    have hnext : ∀ c r, cs.drop i = c :: r → placeIn cs (i + 1) = placeIn cs i := fun c r h => by
      rw [hrest] at h
      cases h
    exact (advance_threads found _ hnext hi hseeded rfl).2 m h
  | cons c r ih =>
    rw [search] at h
    dsimp only at h
    have hseeded := threads_seeded hf found.isNone (insts.size + 1)
    have hhere : placeIn cs i = ⟨(cs.take i).getLast?, c :: r, i⟩ := by rw [placeIn, hrest]
    have hnext := placeIn_next hrest
    rw [← hhere, ← hnext] at h
    generalize (if found.isNone then _ else f) = front at h hseeded
    obtain ⟨hmoved, hmatches⟩ :=
      advance_threads found (.empty insts.size) (fun _ _ _ => rfl) hi hseeded rfl
    split at h
    · exact hmatches m h
    · have hlast : (cs.take (i + 1)).getLast? = some c := congrArg Place.before hnext
      have hdrop : cs.drop (i + 1) = r := congrArg Place.rest hnext
      rw [← hlast] at h
      rcases ih (succ_le_length hrest) hdrop (hmoved (by rw [hrest]; exact List.cons_ne_nil c r)) h with hfound | hmatch
      · exact hmatches m hfound
      · exact .inr hmatch

/-- All instructions that can be reached here from starts before `n` have been passed. -/
def Covers (insts : Array Inst) (cs : List Char) (n i : Nat) (f : Front) : Prop :=
  ∀ start < n, ∀ pc, Reaches insts cs start i pc → f.Seen pc

/-- With a new thread at its start, the front covers this start too. -/
theorem covers_seeded {i : Nat} (hsize : f.seen.size = insts.size) (hclosed : f.Closed insts (placeIn cs i))
    (hcovers : Covers insts cs i i f) :
    (follow insts (placeIn cs i) (insts.size + 1) ⟨0, i, []⟩ f).Closed insts (placeIn cs i) ∧
      Covers insts cs (i + 1) i (follow insts (placeIn cs i) (insts.size + 1) ⟨0, i, []⟩ f) := by
  have hunseen : f.seen.count false ≤ f.seen.size := Array.count_le_size
  obtain ⟨hextends, hpassed⟩ : Extends insts (placeIn cs i) f
      (follow insts (placeIn cs i) (insts.size + 1) ⟨0, i, []⟩ f) ∧ _ := follow_extends (by omega)
  have hclosed' := hextends.closed hclosed
  refine ⟨hclosed', fun start hstart pc hreaches => ?_⟩
  rcases Nat.lt_succ_iff_lt_or_eq.1 hstart with hlt | rfl
  · exact hextends.seen pc (hcovers start hlt pc hreaches)
  · cases hreaches.comes with
    | fresh _ hslips => exact hclosed'.seen_of_slips hpassed hslips
    | taken hi hj => omega

/-- Where no match ends here, none does that the front covers, and the threads that move on cover the next place. -/
theorem covers_advance {i : Nat} {next : Place} {front f : Front} (hclosed : front.Closed insts (placeIn cs i))
    (hcovers : Covers insts cs (i + 1) i front)
    (h : (advance insts (placeIn cs i) next none front.threads.reverse f).2 = none) :
    (∀ start, ¬ IsMatch insts cs start i) ∧
      ∀ c r, cs.drop i = c :: r → placeIn cs (i + 1) = next → f.seen.size = insts.size → f.Closed insts next →
        (advance insts (placeIn cs i) next none front.threads.reverse f).1.seen.size = insts.size ∧
          (advance insts (placeIn cs i) next none front.threads.reverse f).1.Closed insts next ∧
            Covers insts cs (i + 1) (i + 1) (advance insts (placeIn cs i) next none front.threads.reverse f).1 := by
  have hwaiting : ∀ start ≤ i, ∀ pc, Reaches insts cs start i pc → Waits insts pc →
      ∃ t ∈ front.threads.reverse, t.pc = pc := by
    intro start hstart pc hreaches hwaits
    obtain ⟨t, ht, hpc⟩ := (hclosed pc (hcovers start (Nat.lt_succ_of_le hstart) pc hreaches)).2 hwaits
    exact ⟨t, List.mem_reverse.2 ht, hpc⟩
  constructor
  · rintro start ⟨hle, -, pc, haccept, hreaches⟩
    obtain ⟨t, ht, rfl⟩ := hwaiting start hle pc hreaches (.inr haccept)
    exact not_accept_of_advance h t ht haccept
  · rintro c r hrest hnext hsize hf
    obtain ⟨hextends, hpassed⟩ := advance_extends h hsize
    have hclosed' := hextends.closed hf
    refine ⟨hextends.size_eq.trans hsize, hclosed', fun start hstart pc hreaches => ?_⟩
    -- What is reached at the next place has been reached behind a character taken here.
    cases hreaches.comes with
    | fresh hfresh => omega
    | @taken j v s c' r' hi hj hreaches hinst hrest' hc hslips =>
      obtain rfl : i = j := Nat.succ.inj hi
      obtain ⟨t, ht, rfl⟩ := hwaiting start hj v hreaches (.inl ⟨s, hinst⟩)
      rw [hnext] at hslips
      refine hclosed'.seen_of_slips (hpassed t ht s hinst ?_) hslips
      rw [placeIn, hrest']
      exact hc

/-- Where the search finds nothing, there is no match from here on. -/
theorem search_complete {i : Nat} {rest : List Char} (hrest : cs.drop i = rest)
    (hsize : f.seen.size = insts.size) (hclosed : f.Closed insts (placeIn cs i)) (hcovers : Covers insts cs i i f)
    (h : search insts (cs.take i).getLast? i f none rest = none) :
    ∀ start finish, i ≤ finish → ¬ IsMatch insts cs start finish := by
  -- place by place: what the front covers here is moved on to the next place
  induction rest generalizing i f with
  | nil =>
    rw [search, ← hrest] at h
    obtain ⟨hclosed, hcovers⟩ := covers_seeded hsize hclosed hcovers
    intro start finish hfinish hmatch
    have hlength := List.drop_eq_nil_iff.1 hrest
    obtain rfl : i = finish := Nat.le_antisymm hfinish (Nat.le_trans hmatch.le_length hlength)
    exact (covers_advance hclosed hcovers h).1 start hmatch
  | cons c r ih =>
    obtain ⟨hclosed, hcovers⟩ := covers_seeded hsize hclosed hcovers
    have hhere : placeIn cs i = ⟨(cs.take i).getLast?, c :: r, i⟩ := by rw [placeIn, hrest]
    have hnext := placeIn_next hrest
    rw [search] at h
    dsimp only at h
    rw [← hhere, ← hnext, Option.isNone_none, if_pos rfl] at h
    generalize follow insts (placeIn cs i) (insts.size + 1) ⟨0, i, []⟩ f = front at h hclosed hcovers
    cases hfound : (advance insts (placeIn cs i) (placeIn cs (i + 1)) none front.threads.reverse
      (.empty insts.size)).2 with
    | some m =>
      rw [hfound] at h
      split at h
      · cases h
      · have hsome := congrArg Option.isSome h
        rw [search_isSome rfl] at hsome
        cases hsome
    | none =>
      rw [hfound, Option.isSome_none, Bool.and_false, if_neg Bool.false_ne_true] at h
      obtain ⟨hnone, hmoved⟩ := covers_advance hclosed hcovers hfound
      obtain ⟨hsize, hclosed, hcovers⟩ := hmoved c r hrest rfl Array.size_replicate (Front.closed_empty insts _)
      have hlast : (cs.take (i + 1)).getLast? = some c := congrArg Place.before hnext
      rw [← hlast] at h
      have hbehind := ih (congrArg Place.rest hnext) hsize hclosed hcovers h
      intro start finish hfinish hmatch
      rcases Nat.eq_or_lt_of_le hfinish with rfl | hlt
      · exact hnone start hmatch
      · exact hbehind start finish hlt hmatch

end Search

/-- A match that starts at the start of the text. -/
theorem start_eq_zero {cs : List Char} {start finish : Nat} (hle : start ≤ finish) (hlength : finish ≤ cs.length)
    (h : Look.start.holds (placeIn cs start) = true) : start = 0 := by
  have hnone : (cs.take start).getLast? = none := Option.isNone_iff_eq_none.1 h
  have hempty := congrArg List.length (List.getLast?_eq_none_iff.1 hnone)
  rw [List.length_take, List.length_nil] at hempty
  omega

/-- What a program finds is a part of the text in which it can go from its start to its end. -/
theorem Program.isMatch_of_find? {p : Program} {cs : List Char} {m : Match} (h : p.find? cs = some m) :
    ∃ start finish, IsMatch p.insts cs start finish ∧ m.text = slice cs start finish := by
  obtain ⟨found, hfound, h⟩ := Option.bind_eq_some_iff.1 h
  obtain rfl := Option.some.inj h
  rcases search_sound (Nat.zero_le _) rfl (fun t ht => absurd ht List.not_mem_nil) hfound with hnone | hmatch
  · cases hnone
  · exact ⟨found.start, found.finish, hmatch, rfl⟩

/-- What a program finds is a match of its pattern: it leads from the start of the match to its end. -/
theorem Program.find?_sound {a : Node} (horder : a.inOrder = true) (names : List (String × Nat)) {cs : List Char}
    {m : Match} (h : (ofNode a names).find? cs = some m) : ∃ start finish, start ≤ finish ∧ finish ≤ cs.length ∧
      m.text = slice cs start finish ∧ a.Leads (placeIn cs start) (placeIn cs finish) := by
  obtain ⟨start, finish, hmatch, htext⟩ := isMatch_of_find? h
  exact ⟨start, finish, hmatch.le, hmatch.le_length, htext, (accepts_iff horder names).1 hmatch.accepts⟩

/-- Where a program finds nothing, its pattern leads from no place to another one. -/
theorem Program.find?_complete {a : Node} (horder : a.inOrder = true) (names : List (String × Nat)) {cs : List Char}
    (h : (ofNode a names).find? cs = none) {start finish : Nat} (hle : start ≤ finish) (hlength : finish ≤ cs.length) :
    ¬ a.Leads (placeIn cs start) (placeIn cs finish) := by
  intro hleads
  have hnone : search (ofNode a names).insts none 0 (.empty (ofNode a names).insts.size) none cs = none := by
    cases hfound : search (ofNode a names).insts none 0 (.empty (ofNode a names).insts.size) none cs with
    | none => rfl
    | some found =>
      rw [find?, hfound] at h
      cases h
  refine search_complete (i := 0) rfl Array.size_replicate (Front.closed_empty _ _)
    (fun start hstart => absurd hstart (Nat.not_lt_zero start)) hnone start finish (Nat.zero_le _) ⟨hle, hlength, ?_⟩
  exact (accepts_iff horder names).2 hleads

end Conformance.Regex
