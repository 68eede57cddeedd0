import Conformance.Proofs.Regex.Enclosed
import Conformance.Proofs.Regex.Search

/-!
# Patterns bound to the start

A pattern is bound to the place where matching starts by writing it in parentheses behind `\A`. The
parentheses hold the whole pattern together if it can be read by itself; then every thread of the
machine starts in front of the text, and a match is the front of the text.
-/
namespace Conformance.Regex

open Text Reader Relation

/-! ## Reading a bound pattern -/

theorem escape_start {s : State} {r : List Char} (h : s.rest = 'A' :: r) :
    escape s = some (.look .start, { s with rest := r }) := by
  have hclass : "dswDSW".toList.contains 'A' = false := by decide +kernel
  have hmeta : isMeta 'A' = false := by decide +kernel
  have hescapable : isEscapable 'A' = false := by decide +kernel
  unfold escape
  rw [bind_apply (get_apply s), bind_apply (peek?_apply s), h]
  dsimp only [List.head?_cons]
  rw [if_neg (by decide), if_neg (by decide), if_neg (by decide), if_neg (by rw [hclass]; decide)]
  rw [bind_apply (next_apply_cons h), if_neg (by rw [hmeta, hescapable]; decide)]
  rfl

theorem primitive_start {s : State} {r : List Char} (h : s.rest = '\\' :: 'A' :: r) :
    primitive s = some (.look .start, { s with rest := r }) := by
  unfold primitive
  rw [bind_apply (next_apply_cons h), bind_apply (v := { s with rest := 'A' :: r }) rfl]
  show (escape >>= fun p => primitiveNode s.flags p) _ = _
  rw [bind_apply (escape_start rfl)]
  rfl

/-- Where blanks count, passing over them changes nothing. -/
theorem blanks_apply_of_not {s : State} (h : s.flags.ignoreBlanks = false) : blanks s = some ((), s) := by
  rw [blanks_apply, h]
  rfl

theorem pieces_start {s : State} {r : List Char} (n : Nat) (hb : s.flags.ignoreBlanks = false)
    (h : s.rest = '\\' :: 'A' :: r) :
    pieces (n + 1) [] s = pieces n [{ node := .look .start, depth := 0 }] { s with rest := r } := by
  rw [pieces.eq_def]
  dsimp only
  rw [bind_apply (blanks_apply_of_not hb), bind_apply (peek?_apply s), h]
  dsimp only [List.head?_cons]
  rw [if_neg (by decide), if_neg (by decide), if_neg (by decide), if_neg (by decide)]
  rw [bind_apply (primitive_start h)]

theorem pieces_group {s : State} {r : List Char} (n : Nat) (before : List Piece)
    (hb : s.flags.ignoreBlanks = false) (h : s.rest = '(' :: r) :
    pieces (n + 1) before s = (group n >>= fun p => pieces n (p :: before)) s := by
  rw [pieces.eq_def]
  dsimp only
  rw [bind_apply (blanks_apply_of_not hb), bind_apply (peek?_apply s), h]
  dsimp only [List.head?_cons]
  rw [if_neg (by decide), if_pos (by decide)]

theorem pieces_end {s : State} (n : Nat) (before : List Piece) (hb : s.flags.ignoreBlanks = false)
    (h : s.rest = []) : pieces (n + 1) before s = some (joined before, s) := by
  rw [pieces.eq_def]
  dsimp only
  rw [bind_apply (blanks_apply_of_not hb), bind_apply (peek?_apply s), h]
  rfl

/-- Parentheses with a question mark and a colon neither remember their match nor set a flag. -/
theorem group_colon {s : State} {r : List Char} (n : Nat) (hb : s.flags.ignoreBlanks = false)
    (h : s.rest = '(' :: '?' :: ':' :: r) :
    group (n + 1) s = groupBody n s.flags none { s with rest := r } := by
  have hopen : nextThenBlanks s = some ('(', { s with rest := '?' :: ':' :: r }) := by
    rw [nextThenBlanks_apply h, hb]
    rfl
  have hrefuse : refuseAt ["?=", "?!", "?<=", "?<!", "?)"] { s with rest := '?' :: ':' :: r } =
      some ((), { s with rest := '?' :: ':' :: r }) := by
    unfold refuseAt
    rw [bind_apply (v := { s with rest := '?' :: ':' :: r }) rfl]
    dsimp only
    rw [if_neg (by simp [dropPrefix?])]
    rfl
  have hname : takeOne ["?P<", "?<"] { s with rest := '?' :: ':' :: r } =
      some (false, { s with rest := '?' :: ':' :: r }) := by
    rw [takeOne, bind_apply (take_apply_none (by simp [dropPrefix?])), if_neg Bool.false_ne_true]
    rw [takeOne, bind_apply (take_apply_none (by simp [dropPrefix?])), if_neg Bool.false_ne_true]
    rfl
  have hmark : take "?" { s with rest := '?' :: ':' :: r } = some (true, { s with rest := ':' :: r }) :=
    take_apply_some (by simp [dropPrefix?])
  rw [group.eq_2, bind_apply hopen, bind_apply (v := { s with rest := '?' :: ':' :: r }) rfl,
    bind_apply hrefuse, bind_apply hname]
  rw [if_neg Bool.false_ne_true, bind_apply hmark, if_pos rfl]
  rfl

theorem groupBody_inv {s t : State} {n : Nat} {outer : Flags} {p : Piece}
    (h : groupBody (n + 1) outer none s = some (p, t)) :
    ∃ q u, alternatives n s = some (q, u) ∧ u.rest = ')' :: t.rest ∧ t.flags = outer ∧
      p = { node := q.node, depth := q.depth + 1 } := by
  rw [groupBody.eq_2] at h
  obtain ⟨q, u, hq, h⟩ := bind_eq_some_iff.1 h
  rw [bind_apply (peek?_apply u)] at h
  by_cases hu : u.rest.head? = some ')'
  · rw [if_neg (not_not_intro hu)] at h
    obtain ⟨r, hr⟩ := List.head?_eq_some_iff.1 hu
    dsimp only at h
    rw [bind_apply (next_apply_cons hr)] at h
    rw [bind_apply (t := { u with rest := r, flags := outer }) rfl] at h
    obtain ⟨rfl, rfl⟩ : { node := q.node, depth := q.depth + 1 } = p ∧
        { u with rest := r, flags := outer } = t := by simpa [pure_apply] using h
    exact ⟨q, u, hq, hr, rfl, rfl⟩
  · rw [if_pos hu] at h
    contradiction

theorem pieces_bound {n : Nat} {r : List Char} {p : Piece} {t : State}
    (h : pieces (n + 4) [] { rest := '\\' :: 'A' :: '(' :: '?' :: ':' :: r } = some (p, t)) :
    ∃ q u v, alternatives n { rest := r } = some (q, u) ∧ u.rest = ')' :: v.rest ∧
      v.flags.ignoreBlanks = false ∧
      pieces (n + 2) [{ node := q.node, depth := q.depth + 1 }, { node := .look .start, depth := 0 }] v =
        some (p, t) := by
  rw [pieces_start (n + 3) rfl rfl, pieces_group (n + 2) _ rfl rfl] at h
  obtain ⟨g, v, hg, h⟩ := bind_eq_some_iff.1 h
  rw [group_colon (n + 1) rfl rfl] at hg
  obtain ⟨q, u, hq, hu, hv, rfl⟩ := groupBody_inv hg
  exact ⟨q, u, v, hq, hu, by rw [hv], h⟩

/-- A pattern that can be read by itself is read up to the parenthesis behind it: anything left in front of
that parenthesis would be left over when the pattern is read by itself. -/
theorem rest_of_enclosed {cs : List Char} {p q : Piece} {s u : State} {N M : Nat}
    (hp : alternatives M { rest := cs } = some (p, s)) (hs : s.rest = [])
    (hq : alternatives N { rest := cs ++ [')'] } = some (q, u)) (hu : u.rest ≠ [])
    (hM : 4 * (cs.length + 1) + 1 ≤ M) (hN : 4 * (cs.length + 1) + 1 ≤ N) : u.rest = [')'] := by
  have hagrees := ((agrees_alternatives N).1 M (cs.length + 1) hN hM).1
  obtain ⟨front, hfront, -⟩ := hagrees.takes _ _ _ hq
  obtain ⟨w, c, hw⟩ := List.eq_nil_or_concat u.rest |>.resolve_left hu
  rw [hw, List.concat_eq_append, ← List.append_assoc] at hfront
  -- What is left is an end of the enclosed text, so it ends with the parenthesis.
  obtain ⟨-, hc⟩ := List.append_inj' (show cs ++ [')'] = front ++ w ++ [c] from hfront) rfl
  obtain rfl : ')' = c := by simpa using hc
  have hrest : u.rest = [] ++ (w ++ [')']) := by rw [hw, List.concat_eq_append, List.nil_append]
  obtain ⟨v, rfl, hv⟩ := State.exists_enclosed hrest
  by_cases hne : v.rest = []
  · rw [State.enclosed_rest, hne]
    rfl
  · -- The pattern by itself would stop at the same place, with something left over.
    have halone := hagrees.blind { rest := cs } (Nat.lt_succ_self _) q v hne hq
    rw [hp, Option.some.injEq, Prod.mk.injEq] at halone
    exact absurd (halone.2 ▸ hs) hne

/-- The tree of a bound pattern begins with the start of the text, if the pattern can be read by itself. -/
theorem read?_bound {pattern : String} {p q : Pattern} (hp : Pattern.read? pattern = some p)
    (hq : Pattern.read? ("\\A(?:" ++ pattern ++ ")") = some q) :
    ∃ inner, q.node = .cat (.look .start) inner := by
  have hcs : ("\\A(?:" ++ pattern ++ ")").toList =
      '\\' :: 'A' :: '(' :: '?' :: ':' :: (pattern.toList ++ [')']) := by simp
  unfold Pattern.read? at hp hq
  rw [hcs] at hq
  obtain ⟨⟨alone, s⟩, halone, hp⟩ := Option.bind_eq_some_iff.1 hp
  obtain ⟨⟨whole, t⟩, hwhole, hq⟩ := Option.bind_eq_some_iff.1 hq
  obtain ⟨hs, -⟩ := Option.ite_none_right_eq_some.1 hp
  obtain ⟨-, hq⟩ := Option.ite_none_right_eq_some.1 hq
  obtain rfl : _ = q := by simpa using hq
  simp only [Bool.and_eq_true, List.isEmpty_iff] at hs
  -- The fuel for the whole text is enough for the two pieces in front and for the group.
  have hlen : 5 * ('\\' :: 'A' :: '(' :: '?' :: ':' :: (pattern.toList ++ [')'])).length + 5 =
      5 * pattern.toList.length + 30 + 4 + 1 := by
    simp only [List.length_cons, List.length_append, List.length_nil]
    omega
  rw [hlen, StateT.run, alternatives.eq_2] at hwhole
  obtain ⟨first, u, hfirst, hwhole⟩ := bind_eq_some_iff.1 hwhole
  obtain ⟨inner, w, v, hinner, hw, hb, hfirst⟩ := pieces_bound hfirst
  have hwrest := rest_of_enclosed halone hs.1.1 hinner (by simp [hw]) (by omega) (by omega)
  have hv : v.rest = [] := by simpa [hw] using hwrest
  rw [pieces_end _ _ hb hv, Option.some.injEq, Prod.mk.injEq] at hfirst
  obtain ⟨rfl, rfl⟩ := hfirst
  rw [bind_apply (peek?_apply v), hv, if_neg (by simp)] at hwhole
  obtain ⟨rfl, -⟩ : joined _ = whole ∧ _ = t := by simpa [pure_apply] using hwhole
  exact ⟨inner.node, rfl⟩

/-! ## Matching a bound pattern -/

/-- A program that begins at the start of the text matches the front of it. -/
theorem find?_prefix {p : Program} (hstart : p.insts[0]? = some (.look .start)) {cs : List Char} {m : Match}
    (h : p.find? cs = some m) : m.text <+: cs := by
  obtain ⟨start, finish, hmatch, htext⟩ := Program.isMatch_of_find? h
  have hzero : start = 0 := by
    obtain ⟨pc, haccept, hreaches⟩ := hmatch.accepts
    -- The condition stands in front of everything, so a run that accepts has passed it.
    rcases ReflTransGen.cases_head hreaches with hrefl | ⟨b, hstep, -⟩
    · obtain rfl : 0 = pc := congrArg Prod.fst hrefl
      rw [hstart] at haccept
      cases haccept
    · exact start_eq_zero hmatch.le hmatch.le_length ((step_look_iff hstart).1 hstep).1
  rw [htext, slice, hzero, List.drop_zero]
  exact List.take_prefix _ _

/-- A bound pattern matches the front of a text, if the pattern can be read by itself. -/
theorem find?_prefix_of_bound {pattern : String} (hread : (Program.read? pattern).isSome)
    {p : Program} (hp : Program.read? ("\\A(?:" ++ pattern ++ ")") = some p) {cs : List Char} {m : Match}
    (h : p.find? cs = some m) : m.text <+: cs := by
  unfold Program.read? at hread hp
  obtain ⟨alone, halone⟩ := Option.isSome_iff_exists.1 hread
  obtain ⟨a, ha, -⟩ := Option.map_eq_some_iff.1 halone
  obtain ⟨b, hb, rfl⟩ := Option.map_eq_some_iff.1 hp
  obtain ⟨inner, hinner⟩ := read?_bound ha hb
  refine find?_prefix ?_ h
  rw [Program.ofNode, hinner]
  rfl

end Conformance.Regex
