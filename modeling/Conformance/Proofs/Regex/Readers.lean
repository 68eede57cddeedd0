import Conformance.Regex.Parser

/-!
# Readers that a closing parenthesis does not change

A reader cannot tell whether a closing parenthesis stands behind its text as long as it leaves something
in front of that parenthesis. `Agrees` states this for two readers at once, so that it also holds of
readers on fuel, whose bound depends on the length of the text. What is put together from such readers is
one itself.
-/
namespace Conformance.Regex

open Text Reader

variable {α β : Type} {n k : Nat}

/-- The state with a closing parenthesis behind the text. -/
def State.enclosed (s : State) : State := { s with rest := s.rest ++ [')'] }

/-- The reader takes at least `n` characters, all of them from the front of the text. -/
def Takes (n : Nat) (r : Reader α) : Prop :=
  ∀ s v t, r s = some (v, t) → ∃ front, s.rest = front ++ t.rest ∧ n ≤ front.length

/-- What `r` reads from the enclosed text, `r'` reads from the text itself, if something is left in front
of the parenthesis. -/
def Blind (s : State) (r r' : Reader α) : Prop :=
  ∀ v t, t.rest ≠ [] → r s.enclosed = some (v, t.enclosed) → r' s = some (v, t)

/-- `r` takes at least `n` characters, and `r'` does the same without the parenthesis on texts of fewer
than `k` characters. -/
structure Agrees (n k : Nat) (r r' : Reader α) : Prop where
  takes : Takes n r
  blind : ∀ s, s.rest.length < k → Blind s r r'

/-- A reader that a parenthesis behind the text does not change, and that takes at least `n`
characters. -/
def Local (n : Nat) (r : Reader α) : Prop := ∀ k, Agrees n k r r

/-! ## Enclosed states -/

@[simp] theorem State.enclosed_rest (s : State) : s.enclosed.rest = s.rest ++ [')'] := rfl

@[simp] theorem State.enclosed_flags (s : State) : s.enclosed.flags = s.flags := rfl

theorem State.ext_of_enclosed {s t : State} (h : s.enclosed = t.enclosed) : s = t := by
  obtain ⟨rest, flags, groups, names⟩ := s
  obtain ⟨rest', flags', groups', names'⟩ := t
  simp only [State.enclosed, State.mk.injEq, List.append_cancel_right_eq] at h ⊢
  exact h

/-- A state from which the end of an enclosed text is left is enclosed itself. -/
theorem State.exists_enclosed {s : State} {front rest : List Char}
    (h : s.rest = front ++ (rest ++ [')'])) :
    ∃ u : State, u.enclosed = s ∧ u.rest = front ++ rest := by
  refine ⟨{ s with rest := front ++ rest }, ?_, rfl⟩
  obtain ⟨rest', flags, groups, names⟩ := s
  simp only [State.enclosed, State.mk.injEq, and_self, and_true] at h ⊢
  rw [h, List.append_assoc]

/-! ## Putting readers together -/

theorem pure_apply (a : α) (s : State) : (pure a : Reader α) s = some (a, s) := rfl

theorem get_apply (s : State) : (get : Reader State) s = some (s, s) := rfl

theorem bind_apply {r : Reader α} {f : α → Reader β} {s t : State} {v : α}
    (h : r s = some (v, t)) : (r >>= f) s = f v t := by
  show (r s).bind (fun p => f p.1 p.2) = _
  rw [h]
  rfl

theorem bind_eq_some_iff {r : Reader α} {f : α → Reader β} {s t : State} {v : β} :
    (r >>= f) s = some (v, t) ↔ ∃ a u, r s = some (a, u) ∧ f a u = some (v, t) := by
  show (r s).bind (fun p => f p.1 p.2) = some (v, t) ↔ _
  rw [Option.bind_eq_some_iff]
  constructor
  · rintro ⟨⟨a, u⟩, hr, hf⟩
    exact ⟨a, u, hr, hf⟩
  · rintro ⟨a, u, hr, hf⟩
    exact ⟨(a, u), hr, hf⟩

theorem Takes.mono {m : Nat} {r : Reader α} (h : Takes n r) (hm : m ≤ n) : Takes m r := by
  intro s v t hr
  obtain ⟨front, hs, hn⟩ := h s v t hr
  exact ⟨front, hs, Nat.le_trans hm hn⟩

theorem Takes.bind {m : Nat} {r : Reader α} {f : α → Reader β} (hr : Takes n r)
    (hf : ∀ a, Takes m (f a)) : Takes (n + m) (r >>= f) := by
  intro s v t h
  obtain ⟨a, u, hu, ht⟩ := bind_eq_some_iff.1 h
  obtain ⟨front, hs, hn⟩ := hr s a u hu
  obtain ⟨front', hs', hm⟩ := hf a u v t ht
  refine ⟨front ++ front', by rw [hs, hs', List.append_assoc], ?_⟩
  rw [List.length_append]
  omega

theorem Agrees.mono {m j : Nat} {r r' : Reader α} (h : Agrees n k r r') (hm : m ≤ n) (hj : j ≤ k) :
    Agrees m j r r' :=
  ⟨h.takes.mono hm, fun s hs => h.blind s (Nat.lt_of_lt_of_le hs hj)⟩

/-- Readers one after the other: what the first one takes shortens the text for the second one. -/
theorem Agrees.bind {m : Nat} {r r' : Reader α} {f f' : α → Reader β} (hr : Agrees n k r r')
    (hf : ∀ a, Agrees m (k - n) (f a) (f' a)) : Agrees (n + m) k (r >>= f) (r' >>= f') := by
  refine ⟨hr.takes.bind fun a => (hf a).takes, ?_⟩
  intro s hk v t hne h
  obtain ⟨a, u, hu, ht⟩ := bind_eq_some_iff.1 h
  obtain ⟨front', hs', -⟩ := (hf a).takes u v _ ht
  obtain ⟨u, rfl, hrest⟩ := State.exists_enclosed hs'
  obtain ⟨front, hs, hn⟩ := hr.takes _ a _ hu
  have hlen := congrArg List.length hs
  simp only [State.enclosed, List.length_append] at hlen
  have hu' := hr.blind s hk a u (by simp [hrest, hne]) hu
  exact bind_eq_some_iff.2 ⟨a, u, hu', (hf a).blind u (by omega) v t hne ht⟩

/-- A reader that takes nothing for certain, and what follows it. -/
theorem Agrees.seq {r r' : Reader α} {f f' : α → Reader β} (hr : Agrees 0 k r r')
    (hf : ∀ a, Agrees n k (f a) (f' a)) : Agrees n k (r >>= f) (r' >>= f') :=
  (hr.bind hf).mono (by omega) (Nat.le_refl k)

/-- A reader that takes a character, and what follows it. -/
theorem Agrees.step {r r' : Reader α} {f f' : α → Reader β} (hr : Agrees 1 k r r')
    (hf : ∀ a, Agrees 0 (k - 1) (f a) (f' a)) : Agrees 1 k (r >>= f) (r' >>= f') :=
  hr.bind hf

theorem agrees_pure (a : α) : Agrees 0 k (pure a) (pure a) := by
  refine ⟨fun s v t h => ⟨[], ?_, Nat.le_refl 0⟩, fun s _ v t _ h => ?_⟩
  · obtain ⟨-, rfl⟩ : a = v ∧ s = t := by simpa [pure_apply] using h
    rfl
  · obtain ⟨rfl, hs⟩ : a = v ∧ s.enclosed = t.enclosed := by simpa [pure_apply] using h
    obtain rfl := State.ext_of_enclosed hs
    rfl

theorem agrees_refuse (r' : Reader α) : Agrees n k refuse r' := by
  refine ⟨fun s v t h => ?_, fun s _ v t _ h => ?_⟩
  · simp [refuse] at h
  · simp [refuse] at h

theorem Agrees.of_zero {r r' : Reader α} (h : Takes n r) : Agrees n 0 r r' :=
  ⟨h, fun _ hlt => absurd hlt (Nat.not_lt_zero _)⟩

/-- Refusing may depend on more without the parenthesis than with it. -/
theorem Agrees.refuse_if {p p' : Prop} [Decidable p] [Decidable p'] {r r' : Reader α} (hp : p' → p)
    (h : Agrees n k r r') : Agrees n k (if p then refuse else r) (if p' then refuse else r') := by
  by_cases hp' : p'
  · rw [if_pos hp', if_pos (hp hp')]
    exact agrees_refuse _
  · rw [if_neg hp']
    split
    · exact agrees_refuse _
    · exact h

/-- The state is read, and decisions are taken on it. -/
theorem Agrees.get_bind {g g' : State → Reader α} (ht : ∀ s, Takes n (g s))
    (hb : ∀ s, s.rest.length < k → Blind s (g s.enclosed) (g' s)) :
    Agrees n k (get >>= g) (get >>= g') :=
  ⟨fun s => ht s s, fun s hs => hb s hs⟩

/-- The state is read for something that a parenthesis behind the text does not change. -/
theorem Agrees.get_seq {g g' : State → Reader α} (hg : ∀ s, g s.enclosed = g s)
    (h : ∀ s, Agrees n k (g s) (g' s)) : Agrees n k (get >>= g) (get >>= g') :=
  .get_bind (fun s => (h s).takes) fun s hs => by rw [hg]; exact (h s).blind s hs

theorem local_pure (a : α) : Local 0 (pure a) := fun _ => agrees_pure a

theorem local_refuse : Local n (refuse : Reader α) := fun _ => agrees_refuse _

theorem Local.mono {m : Nat} {r : Reader α} (h : Local n r) (hm : m ≤ n) : Local m r :=
  fun k => (h k).mono hm (Nat.le_refl k)

theorem Local.seq {r : Reader α} {f : α → Reader β} (hr : Local 0 r) (hf : ∀ a, Local n (f a)) :
    Local n (r >>= f) :=
  fun k => (hr k).seq fun a => hf a k

theorem Local.step {r : Reader α} {f : α → Reader β} (hr : Local 1 r) (hf : ∀ a, Local 0 (f a)) :
    Local 1 (r >>= f) :=
  fun k => (hr k).step fun a => hf a (k - 1)

/-- A reader that takes a character, where it does not matter that it does. -/
theorem Local.step' {r : Reader α} {f : α → Reader β} (hr : Local 1 r) (hf : ∀ a, Local 0 (f a)) :
    Local 0 (r >>= f) :=
  (hr.step hf).mono (Nat.zero_le 1)

theorem Local.get_seq {g : State → Reader α} (hg : ∀ s, g s.enclosed = g s)
    (h : ∀ s, Local n (g s)) : Local n (get >>= g) :=
  fun k => .get_seq hg fun s => h s k

/-! ## Characters and blanks -/

theorem skipBlanks_suffix (inComment : Bool) (cs : List Char) : skipBlanks inComment cs <:+ cs := by
  induction cs generalizing inComment with
  | nil => exact List.suffix_rfl
  | cons c r ih =>
    rw [skipBlanks]
    split
    · exact (ih _).trans (List.suffix_cons c r)
    · split
      · exact (ih _).trans (List.suffix_cons c r)
      · split
        · exact (ih _).trans (List.suffix_cons c r)
        · exact List.suffix_rfl

/-- Blanks and comments end in front of the parenthesis, if anything else is there; else the text is
blank to its end, and a comment may take the parenthesis too. -/
theorem skipBlanks_enclosed (inComment : Bool) (cs : List Char) :
    skipBlanks inComment (cs ++ [')']) = skipBlanks inComment cs ++ [')'] ∨
      (skipBlanks inComment cs = [] ∧ skipBlanks inComment (cs ++ [')']) = []) := by
  induction cs generalizing inComment with
  | nil => cases inComment <;> decide
  | cons c r ih =>
    rw [List.cons_append, skipBlanks, skipBlanks]
    split
    · exact ih _
    · split
      · exact ih _
      · split
        · exact ih _
        · exact .inl rfl

/-- A reader that only changes the state. -/
theorem local_of_apply {r : Reader Unit} {f : State → State} (hr : ∀ s, r s = some ((), f s))
    (hf : ∀ s, (f s).rest <:+ s.rest)
    (he : ∀ s, (f s.enclosed).rest = [] ∨ f s.enclosed = (f s).enclosed) :
    Local 0 r := by
  refine fun k => ⟨fun s v t h => ?_, fun s _ v t hne h => ?_⟩
  · obtain rfl : f s = t := by simpa [hr] using h
    obtain ⟨front, hfront⟩ := hf s
    exact ⟨front, hfront.symm, Nat.zero_le _⟩
  · have ht : f s.enclosed = t.enclosed := by simpa [hr] using h
    rcases he s with hnil | heq
    · rw [ht] at hnil
      simp at hnil
    · rw [heq] at ht
      rw [hr, State.ext_of_enclosed ht]

theorem blanks_apply (s : State) :
    blanks s = some ((), if s.flags.ignoreBlanks then { s with rest := skipBlanks false s.rest } else s) :=
  rfl

theorem local_blanks : Local 0 blanks := by
  refine local_of_apply blanks_apply (fun s => ?_) fun s => ?_
  · split
    · exact skipBlanks_suffix false s.rest
    · exact List.suffix_rfl
  · cases hb : s.flags.ignoreBlanks with
    | false => exact .inr (by simp [hb])
    | true =>
      rcases skipBlanks_enclosed false s.rest with h | ⟨-, h⟩
      · exact .inr (by simp [hb, h, State.enclosed])
      · exact .inl (by simp [hb, h])

theorem peek?_apply (s : State) : peek? s = some (s.rest.head?, s) := rfl

theorem local_peek? : Local 0 peek? := by
  refine fun k => ⟨fun s v t h => ?_, fun s _ v t hne h => ?_⟩
  · obtain ⟨-, rfl⟩ : s.rest.head? = v ∧ s = t := by simpa [peek?_apply] using h
    exact ⟨[], rfl, Nat.le_refl 0⟩
  · obtain ⟨hv, hs⟩ : s.enclosed.rest.head? = v ∧ s.enclosed = t.enclosed := by
      simpa [peek?_apply] using h
    obtain rfl := State.ext_of_enclosed hs
    obtain ⟨c, r, hr⟩ := List.exists_cons_of_ne_nil hne
    rw [peek?_apply, ← hv]
    simp [hr]

theorem next_apply_cons {s : State} {c : Char} {r : List Char} (h : s.rest = c :: r) :
    next s = some (c, { s with rest := r }) := by
  unfold next
  rw [bind_apply (get_apply s), h]
  rfl

theorem next_apply_nil {s : State} (h : s.rest = []) : next s = none := by
  unfold next
  rw [bind_apply (get_apply s), h]
  rfl

theorem local_next : Local 1 next := by
  refine fun k => ⟨fun s v t h => ?_, fun s _ v t hne h => ?_⟩
  · cases hs : s.rest with
    | nil => simp [next_apply_nil hs] at h
    | cons c r =>
      obtain ⟨-, rfl⟩ : c = v ∧ { s with rest := r } = t := by simpa [next_apply_cons hs] using h
      exact ⟨[c], rfl, Nat.le_refl 1⟩
  · cases hs : s.rest with
    | nil =>
      -- The parenthesis itself would be taken, and nothing is left in front of it.
      have ht := next_apply_cons (s := s.enclosed) (c := ')') (r := []) (by simp [hs])
      rw [h, Option.some.injEq, Prod.mk.injEq] at ht
      exact absurd (congrArg State.rest ht.2) (by simp)
    | cons c r =>
      have ht := next_apply_cons (s := s.enclosed) (c := c) (r := r ++ [')']) (by simp [hs])
      rw [h, Option.some.injEq, Prod.mk.injEq] at ht
      obtain rfl : t = { s with rest := r } := State.ext_of_enclosed ht.2
      rw [next_apply_cons hs, ht.1]

theorem local_nextThenBlanks : Local 1 nextThenBlanks :=
  local_next.step fun c => local_blanks.seq fun _ => local_pure c

theorem take_apply_some {text : String} {s : State} {r : List Char}
    (h : dropPrefix? text.toList s.rest = some r) : take text s = some (true, { s with rest := r }) := by
  unfold take
  rw [bind_apply (get_apply s), h]
  rfl

theorem take_apply_none {text : String} {s : State} (h : dropPrefix? text.toList s.rest = none) :
    take text s = some (false, s) := by
  unfold take
  rw [bind_apply (get_apply s), h]
  rfl

theorem local_take (text : String) : Local 0 (take text) := by
  refine fun k => ⟨fun s v t h => ?_, fun s _ v t hne h => ?_⟩
  · cases hs : dropPrefix? text.toList s.rest with
    | none =>
      obtain ⟨-, rfl⟩ : false = v ∧ s = t := by simpa [take_apply_none hs] using h
      exact ⟨[], rfl, Nat.le_refl 0⟩
    | some r =>
      obtain ⟨-, rfl⟩ : true = v ∧ { s with rest := r } = t := by simpa [take_apply_some hs] using h
      exact ⟨text.toList, dropPrefix?_eq_some_iff.1 hs, Nat.zero_le _⟩
  · cases hs : dropPrefix? text.toList s.enclosed.rest with
    | none =>
      obtain ⟨rfl, ht⟩ : false = v ∧ s.enclosed = t.enclosed := by
        simpa [take_apply_none hs] using h
      obtain rfl := State.ext_of_enclosed ht
      -- If the text came next without the parenthesis, it would come next with it too.
      refine take_apply_none ?_
      cases hs' : dropPrefix? text.toList s.rest with
      | none => rfl
      | some r =>
        have he : dropPrefix? text.toList s.enclosed.rest = some (r ++ [')']) :=
          dropPrefix?_eq_some_iff.2 (by simp [dropPrefix?_eq_some_iff.1 hs'])
        rw [hs] at he
        contradiction
    | some r =>
      obtain ⟨rfl, ht⟩ : true = v ∧ { s.enclosed with rest := r } = t.enclosed := by
        simpa [take_apply_some hs] using h
      obtain rfl : r = t.rest ++ [')'] := congrArg State.rest ht
      have hrest : s.rest = text.toList ++ t.rest := by
        have happend := dropPrefix?_eq_some_iff.1 hs
        rw [State.enclosed_rest, ← List.append_assoc] at happend
        exact List.append_cancel_right happend
      rw [take_apply_some (dropPrefix?_eq_some_iff.2 hrest)]
      have hst : { s with rest := t.rest } = t := State.ext_of_enclosed ht
      rw [hst]

/-! ## Readers on fuel -/

/-- Readers on fuel agree on texts that are shorter than either bound, if a round takes a character off
the text for each unit of fuel. -/
theorem agrees_of_fuel {ι : Type} {f : ι → Nat → Reader α} (hzero : ∀ i, Takes n (f i 0))
    (hsucc : ∀ N M k, (∀ i, Agrees n (k - 1) (f i N) (f i M)) →
      ∀ i, Agrees n k (f i (N + 1)) (f i (M + 1)))
    (N : Nat) : ∀ M k, k ≤ N → k ≤ M → ∀ i, Agrees n k (f i N) (f i M) := by
  -- The bound falls with the fuel of both readers, so neither can run out on a text below it.
  induction N with
  | zero =>
    intro M k hN _ i
    obtain rfl : k = 0 := Nat.le_zero.1 hN
    exact .of_zero (hzero i)
  | succ N ih =>
    intro M k hN hM i
    cases M with
    | zero =>
      obtain rfl : k = 0 := Nat.le_zero.1 hM
      exact .of_zero (hsucc N 0 0 (ih 0 0 (Nat.zero_le _) (Nat.zero_le _)) i).takes
    | succ M => exact hsucc N M k (ih M (k - 1) (by omega) (by omega)) i

/-- A bound by the length of the text is large enough with and without the parenthesis. -/
theorem local_get_length {f : Nat → Reader α}
    (h : ∀ N M k, k ≤ N → k ≤ M → Agrees n k (f N) (f M)) :
    Local n (get >>= fun s => f (s.rest.length + 1)) := by
  refine fun k => .get_bind (fun s => (h _ 0 0 (Nat.zero_le _) (Nat.zero_le _)).takes) fun s _ => ?_
  exact (h _ _ (s.rest.length + 1) (by simp) (Nat.le_refl _)).blind s (Nat.lt_succ_self _)

/-- A reader that is given something of the state, and what follows it. -/
theorem Local.get_bind {r : State → Reader α} {f f' : α → Reader β} (hr : Local n (get >>= r))
    (hf : ∀ a, Agrees 0 (k - n) (f a) (f' a)) :
    Agrees n k (get >>= fun s => r s >>= f) (get >>= fun s => r s >>= f') := by
  rw [← bind_assoc, ← bind_assoc]
  exact (hr k).bind hf

theorem local_get_length_seq {f : Nat → Reader α} {g : α → Reader β}
    (h : ∀ N M k, k ≤ N → k ≤ M → Agrees 0 k (f N) (f M)) (hg : ∀ a, Local n (g a)) :
    Local n (get >>= fun s => f (s.rest.length + 1) >>= g) := by
  rw [← bind_assoc]
  exact (local_get_length h).seq hg

theorem agrees_takeRun (p : Char → Bool) (N M k : Nat) (hN : k ≤ N) (hM : k ≤ M) :
    Agrees 0 k (takeRun p N) (takeRun p M) := by
  refine agrees_of_fuel (f := fun _ : Unit => takeRun p) (fun _ => (agrees_pure (k := 0) []).takes) ?_
    N M k hN hM ()
  intro N M k ih _
  refine (local_peek? k).seq fun c => ?_
  cases c with
  | none => exact agrees_pure []
  | some c =>
    by_cases hp : p c
    · simp only [hp, if_true]
      refine ((local_nextThenBlanks k).step fun _ => (ih ()).seq fun cs => agrees_pure (c :: cs)).mono ?_ ?_
      · exact Nat.zero_le 1
      · exact Nat.le_refl k
    · simp only [hp]
      exact agrees_pure []

theorem agrees_takeBraced (N M k : Nat) (hN : k ≤ N) (hM : k ≤ M) :
    Agrees 0 k (takeBraced N) (takeBraced M) := by
  refine agrees_of_fuel (f := fun _ : Unit => takeBraced) (fun _ => (agrees_refuse (k := 0) refuse).takes)
    ?_ N M k hN hM ()
  intro N M k ih _
  refine ((local_nextThenBlanks k).step fun _ => (local_peek? _).seq fun c => ?_).mono
    (Nat.zero_le 1) (Nat.le_refl k)
  cases c with
  | none => exact agrees_refuse _
  | some c =>
    by_cases hc : c = '\x7d'
    · subst hc
      exact agrees_pure []
    · simp only
      exact (ih ()).seq fun cs => agrees_pure (c :: cs)

end Conformance.Regex
