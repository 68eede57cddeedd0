import Conformance.Proofs.Json.Spelling

/-!
# Reading what a text spells

A text that spells a value is read to the end of the value, whatever follows it, and the value is given with its numbers
as they are kept (`value?_of_spells`); and what is read is what a front of the text spells (`value?_inv`).
-/
namespace Conformance.Json

/-! ## Strings -/

theorem hex4?_inv {cs r : List Char} {n : Nat} (h : hex4? cs = some (n, r)) :
    ∃ digits, cs = digits ++ r ∧ ∀ more, hex4? (digits ++ more) = some (n, more) := by
  unfold hex4? at h
  split at h
  · rename_i a b c d r₀
    obtain ⟨m, hm, he⟩ := Option.map_eq_some_iff.1 h
    obtain ⟨rfl, rfl⟩ : m = n ∧ r₀ = r := by simpa using he
    refine ⟨[a, b, c, d], rfl, fun more => ?_⟩
    show (Text.natIn? 16 [a, b, c, d]).map (fun n => (n, more)) = _
    rw [hm]
    rfl
  · contradiction

/-- An escape is read alike whatever follows it. -/
theorem escape?_inv {cs r : List Char} {c : Char} (h : escape? cs = some (c, r)) :
    ∃ text, cs = text ++ r ∧ ∀ more, escape? (text ++ more) = some (c, more) := by
  unfold escape? at h
  split at h
  -- only the escape by code may take a second one with it, the low half of a pair
  case h_9 r₀ =>
    split at h
    · contradiction
    · rename_i n r₁ hn
      obtain ⟨digits, rfl, hmore⟩ := hex4?_inv hn
      split at h
      · contradiction
      · rename_i hlow
        split at h
        · rename_i hhigh
          split at h
          · rename_i r₂
            split at h
            · contradiction
            · rename_i m r₃ hm
              obtain ⟨digits', rfl, hmore'⟩ := hex4?_inv hm
              split at h
              · rename_i hlow'
                obtain ⟨rfl, rfl⟩ := Prod.mk.inj (Option.some.inj h)
                refine ⟨'u' :: (digits ++ '\\' :: 'u' :: digits'), by simp, fun more => ?_⟩
                have htext : 'u' :: (digits ++ '\\' :: 'u' :: digits') ++ more =
                    'u' :: (digits ++ '\\' :: 'u' :: (digits' ++ more)) := by simp
                simp only [htext, escape?, hmore, hmore', hlow, hhigh, hlow', if_true, if_false, Bool.false_eq_true]
              · contradiction
          · contradiction
        · rename_i hhigh
          obtain ⟨rfl, rfl⟩ := Prod.mk.inj (Option.some.inj h)
          refine ⟨'u' :: digits, rfl, fun more => ?_⟩
          simp only [List.cons_append, escape?, hmore, hlow, hhigh, if_false, Bool.false_eq_true]
  case h_10 => contradiction
  all_goals
    obtain ⟨rfl, rfl⟩ := Prod.mk.inj (Option.some.inj h)
    exact ⟨[_], rfl, fun more => rfl⟩

/-- A string is read alike whatever follows its closing quote. -/
theorem stringBody?_inv {cs r s : List Char} (h : stringBody? cs = some (s, r)) :
    ∃ body, cs = body ++ r ∧ ∀ more, stringBody? (body ++ more) = some (s, more) := by
  fun_induction stringBody? cs generalizing s with
  | case1 => contradiction
  | case2 r₀ =>
    obtain ⟨rfl, rfl⟩ := Prod.mk.inj (Option.some.inj h)
    exact ⟨['"'], rfl, fun more => by simp [stringBody?]⟩
  | case3 => contradiction
  | case4 r₀ c r₁ hesc ih =>
    obtain ⟨⟨s', r'⟩, hs, he⟩ := Option.map_eq_some_iff.1 h
    obtain ⟨rfl, rfl⟩ := Prod.mk.inj he
    obtain ⟨text, rfl, hmore⟩ := escape?_inv hesc
    obtain ⟨body, rfl, hbody⟩ := ih hs
    refine ⟨'\\' :: (text ++ body), by simp, fun more => ?_⟩
    have hsplit : '\\' :: (text ++ body) ++ more = '\\' :: (text ++ (body ++ more)) := by simp
    rw [hsplit, stringBody?]
    split
    · rename_i hnone
      rw [hmore] at hnone
      contradiction
    · rename_i c' r' hsome
      rw [hmore] at hsome
      obtain ⟨rfl, rfl⟩ := Prod.mk.inj (Option.some.inj hsome)
      rw [hbody]
      rfl
  | case5 => contradiction
  | case6 c r₀ hquote hback hcontrol ih =>
    obtain ⟨⟨s', r'⟩, hs, he⟩ := Option.map_eq_some_iff.1 h
    obtain ⟨rfl, rfl⟩ := Prod.mk.inj he
    obtain ⟨body, rfl, hbody⟩ := ih hs
    refine ⟨c :: body, rfl, fun more => ?_⟩
    rw [List.cons_append, stringBody?, if_neg hcontrol, hbody]
    · rfl
    · exact hquote
    · exact hback

theorem stringBody?_append {cs s : List Char} (h : stringBody? cs = some (s, [])) (more : List Char) :
    stringBody? (cs ++ more) = some (s, more) := by
  obtain ⟨body, hcs, hmore⟩ := stringBody?_inv h
  rw [hcs, List.append_nil]
  exact hmore more

theorem stringBody?_split {cs r s : List Char} (h : stringBody? cs = some (s, r)) :
    ∃ body, cs = body ++ r ∧ stringBody? body = some (s, []) := by
  obtain ⟨body, hcs, hmore⟩ := stringBody?_inv h
  exact ⟨body, hcs, by simpa using hmore []⟩

/-! ## White space -/

theorem skipSpace_gap {gap : List Char} (h : Gap gap) (cs : List Char) : skipSpace (gap ++ cs) = skipSpace cs :=
  List.dropWhile_append_of_pos h

theorem skipSpace_cons {c : Char} (h : isSpace c = false) (r : List Char) : skipSpace (c :: r) = c :: r :=
  List.dropWhile_cons_of_neg (by rw [h]; exact Bool.false_ne_true)

theorem skipSpace_gap_cons {gap : List Char} (h : Gap gap) {c : Char} (hc : isSpace c = false) (r : List Char) :
    skipSpace (gap ++ c :: r) = c :: r :=
  (skipSpace_gap h _).trans (skipSpace_cons hc r)

theorem exists_gap {cs r : List Char} (h : skipSpace cs = r) : ∃ gap, Gap gap ∧ cs = gap ++ r :=
  ⟨cs.takeWhile isSpace, List.all_eq_true.1 List.all_takeWhile, h ▸ List.takeWhile_append_dropWhile.symm⟩

theorem isSpace_cases {c : Char} (h : isSpace c = true) : c = ' ' ∨ c = '\t' ∨ c = '\n' ∨ c = '\r' := by
  simpa [isSpace, or_assoc] using h

/-- A number ends where white space or the end of what holds it follows. -/
theorem endsNumber_gap {gap : List Char} {c : Char} (h : Gap gap) (hc : c = ',' ∨ c = ']' ∨ c = '}') (r : List Char) :
    EndsNumber (gap ++ c :: r) := by
  intro d hd
  cases gap with
  | nil =>
    obtain rfl : c = d := Option.some.inj hd
    rcases hc with rfl | rfl | rfl <;> decide
  | cons g gap =>
    obtain rfl : g = d := Option.some.inj hd
    rcases isSpace_cases (h g List.mem_cons_self) with rfl | rfl | rfl | rfl <;> decide

theorem endsNumber_of_gap {gap : List Char} (h : Gap gap) : EndsNumber gap := by
  cases gap with
  | nil => exact fun _ hd => by cases hd
  | cons g gap =>
    intro d hd
    obtain rfl : g = d := Option.some.inj hd
    rcases isSpace_cases (h g List.mem_cons_self) with rfl | rfl | rfl | rfl <;> decide

theorem value?_gap {front : List Char} (h : Gap front) (fuel depth : Nat) (cs : List Char) :
    value? fuel depth (front ++ cs) = value? fuel depth cs := by
  cases fuel with
  | zero => rfl
  | succ fuel => simp only [value?, skipSpace_gap h]

theorem items?_gap {front : List Char} (h : Gap front) (fuel depth : Nat) (cs : List Char) :
    items? fuel depth (front ++ cs) = items? fuel depth cs := by
  cases fuel with
  | zero => rfl
  | succ fuel => simp only [items?, value?_gap h]

theorem members?_gap {front : List Char} (h : Gap front) (fuel depth : Nat) (cs : List Char) :
    members? fuel depth (front ++ cs) = members? fuel depth cs := by
  cases fuel with
  | zero => rfl
  | succ fuel => simp only [members?, skipSpace_gap h]

/-! ## The text of a value is read -/

theorem Numeral.head_text (n : Numeral) : ∃ c r, n.text = c :: r ∧ (c = '-' ∨ c.isDigit = true) := by
  obtain ⟨d, ds, hwhole⟩ := List.exists_cons_of_ne_nil n.whole_digits.1
  have hd := n.whole_digits.2 d (hwhole ▸ List.mem_cons_self)
  rw [Numeral.text, hwhole]
  cases n.negative with
  | true => exact ⟨'-', _, rfl, .inl rfl⟩
  | false => exact ⟨d, _, rfl, .inr hd⟩

/-- A value begins with none of the characters that separate or close. -/
theorem Spells.head {depth : Nat} {cs : List Char} {v : Json} (h : Spells depth cs v) :
    ∃ c r, cs = c :: r ∧ isSpace c = false ∧ c ≠ ']' ∧ c ≠ '}' := by
  cases h with
  | null | yes | no | string | emptyArray | array | emptyObject | object =>
    exact ⟨_, _, rfl, by decide, by decide, by decide⟩
  | number _ n =>
    obtain ⟨c, r, htext, hc⟩ := n.head_text
    refine ⟨c, r, htext, ?_⟩
    rcases hc with rfl | hc
    · decide
    · refine ⟨?_, ?_, ?_⟩
      · cases hspace : isSpace c with
        | false => rfl
        | true => rcases isSpace_cases hspace with rfl | rfl | rfl | rfl <;> contradiction
      · rintro rfl
        contradiction
      · rintro rfl
        contradiction

/-- A numeral begins with a digit or a minus sign, so it is not a text that begins with anything else. -/
theorem Numeral.text_append_ne (n : Numeral) {d : Char} (hminus : d ≠ '-') (hdigit : d.isDigit = false)
    (rest r : List Char) : n.text ++ rest ≠ d :: r := by
  obtain ⟨c, r', htext, hc⟩ := n.head_text
  intro heq
  rw [htext] at heq
  obtain rfl : c = d := (List.cons.inj heq).1
  rcases hc with rfl | hc
  · exact hminus rfl
  · exact absurd (hc.symm.trans hdigit) (by decide)

theorem value?_numeral (n : Numeral) (fuel depth : Nat) {rest : List Char} (h : EndsNumber rest) :
    value? (fuel + 1) depth (n.text ++ rest) = some (.number (String.ofList n.kept.text), rest) := by
  have hread := number?_text n h
  obtain ⟨c, r, htext, hspace, -⟩ := (Spells.number depth n).head
  rw [value?, htext, List.cons_append, skipSpace_cons hspace, ← List.cons_append, ← htext]
  split
  case h_7 =>
    rw [hread]
    rfl
  all_goals
    rename_i heq
    exact absurd heq (n.text_append_ne (by decide) (by decide) rest _)

section Brackets

variable (fuel depth : Nat) {cs r : List Char}

theorem items?_skipSpace (cs : List Char) : items? fuel depth (skipSpace cs) = items? fuel depth cs := by
  obtain ⟨gap, hgap, hcs⟩ := exists_gap (show skipSpace cs = skipSpace cs from rfl)
  have h := items?_gap hgap fuel depth (skipSpace cs)
  rw [← hcs] at h
  exact h.symm

theorem members?_skipSpace (cs : List Char) : members? fuel depth (skipSpace cs) = members? fuel depth cs := by
  obtain ⟨gap, hgap, hcs⟩ := exists_gap (show skipSpace cs = skipSpace cs from rfl)
  have h := members?_gap hgap fuel depth (skipSpace cs)
  rw [← hcs] at h
  exact h.symm

theorem value?_emptyArray (h : skipSpace cs = ']' :: r) :
    value? (fuel + 1) (depth + 1) ('[' :: cs) = some (.arr [], r) := by
  simp only [value?, skipSpace_cons (show isSpace '[' = false by decide), h]

theorem value?_emptyObject (h : skipSpace cs = '}' :: r) :
    value? (fuel + 1) (depth + 1) ('{' :: cs) = some (.obj [], r) := by
  simp only [value?, skipSpace_cons (show isSpace '{' = false by decide), h]

theorem value?_array (h : ∀ r, skipSpace cs ≠ ']' :: r) :
    value? (fuel + 1) (depth + 1) ('[' :: cs) = (items? fuel depth cs).map fun i => (.arr i.1, i.2) := by
  simp only [value?, skipSpace_cons (show isSpace '[' = false by decide)]
  rw [items?_skipSpace]

theorem value?_object (h : ∀ r, skipSpace cs ≠ '}' :: r) :
    value? (fuel + 1) (depth + 1) ('{' :: cs) = (members? fuel depth cs).map fun m => (ofMembers m.1, m.2) := by
  simp only [value?, skipSpace_cons (show isSpace '{' = false by decide)]
  rw [members?_skipSpace]

theorem items?_last {v : Json} (h : value? fuel depth cs = some (v, r)) {r' : List Char} (hr : skipSpace r = ']' :: r') :
    items? (fuel + 1) depth cs = some ([v], r') := by
  simp only [items?, h, hr]

theorem items?_more {v : Json} (h : value? fuel depth cs = some (v, r)) {r' : List Char} (hr : skipSpace r = ',' :: r') :
    items? (fuel + 1) depth cs = (items? fuel depth r').map fun i => (v :: i.1, i.2) := by
  simp only [items?, h, hr]

variable {name s r₁ : List Char} {v : Json}

theorem members?_last (hname : stringBody? name = some (s, r₁)) {r₂ : List Char} (hcolon : skipSpace r₁ = ':' :: r₂)
    (hv : value? fuel depth r₂ = some (v, r)) {r' : List Char} (hr : skipSpace r = '}' :: r') :
    members? (fuel + 1) depth ('"' :: name) = some ([(String.ofList s, v)], r') := by
  simp only [members?, skipSpace_cons (show isSpace '"' = false by decide), hname, hcolon, hv, hr]

theorem members?_more (hname : stringBody? name = some (s, r₁)) {r₂ : List Char} (hcolon : skipSpace r₁ = ':' :: r₂)
    (hv : value? fuel depth r₂ = some (v, r)) {r' : List Char} (hr : skipSpace r = ',' :: r') :
    members? (fuel + 1) depth ('"' :: name) =
      (members? fuel depth r').map fun m => ((String.ofList s, v) :: m.1, m.2) := by
  simp only [members?, skipSpace_cons (show isSpace '"' = false by decide), hname, hcolon, hv, hr]

end Brackets

/-- The first item of an array is not its closing bracket. -/
theorem SpellsItems.not_closed {depth : Nat} {cs rest : List Char} {items : List Json} (h : SpellsItems depth cs items) :
    ∀ r, skipSpace (cs ++ rest) ≠ ']' :: r := by
  intro r hr
  cases h with
  | last hfront hv hback | more hfront hv hback =>
    obtain ⟨c, r', rfl, hspace, hc, -⟩ := hv.head
    rw [List.append_assoc, skipSpace_gap hfront, List.append_assoc, List.cons_append, skipSpace_cons hspace] at hr
    exact hc (List.cons.inj hr).1

/-- The first member of an object is not its closing brace. -/
theorem SpellsMembers.not_closed {depth : Nat} {cs rest : List Char} {members : List (String × Json)}
    (h : SpellsMembers depth cs members) : ∀ r, skipSpace (cs ++ rest) ≠ '}' :: r := by
  intro r hr
  cases h with
  | last hfront | more hfront =>
    rw [List.append_assoc, skipSpace_gap hfront] at hr
    exact absurd (List.cons.inj hr).1 (by decide)

mutual

/-- The text that spells a value is read to its end, whatever follows. -/
theorem value?_of_spells {depth : Nat} {cs : List Char} {v : Json} (h : Spells depth cs v) {fuel : Nat}
    {rest : List Char} (hrest : EndsNumber rest) (hfuel : 2 * cs.length ≤ fuel) :
    value? fuel depth (cs ++ rest) = some (v.kept, rest) := by
  obtain ⟨fuel, rfl⟩ : ∃ n, fuel = n + 1 := by
    obtain ⟨c, r, rfl, -⟩ := h.head
    rw [List.length_cons] at hfuel
    exact ⟨fuel - 1, by omega⟩
  cases h with
  | null | yes | no => rfl
  | number _ n =>
    rw [value?_numeral n fuel depth hrest, kept, keptNumber_text]
  | string _ hs =>
    show (stringBody? (_ ++ rest)).map _ = _
    rw [stringBody?_append hs]
    rfl
  | emptyArray depth hgap =>
    rw [List.cons_append, List.append_assoc]
    exact value?_emptyArray fuel depth (skipSpace_gap hgap _)
  | emptyObject depth hgap =>
    rw [List.cons_append, List.append_assoc]
    exact value?_emptyObject fuel depth (skipSpace_gap hgap _)
  | array hitems =>
    rw [List.length_cons] at hfuel
    rw [List.cons_append, value?_array _ _ hitems.not_closed, items?_of_spells hitems (by omega)]
    rfl
  | object hmembers =>
    rw [List.length_cons] at hfuel
    rw [List.cons_append, value?_object _ _ hmembers.not_closed, members?_of_spells hmembers (by omega), ofMembers_kept]
    rfl

theorem items?_of_spells {depth : Nat} {cs : List Char} {items : List Json} (h : SpellsItems depth cs items) {fuel : Nat}
    {rest : List Char} (hfuel : 2 * cs.length + 1 ≤ fuel) :
    items? fuel depth (cs ++ rest) = some (keptItems items, rest) := by
  obtain ⟨fuel, rfl⟩ : ∃ n, fuel = n + 1 := ⟨fuel - 1, by omega⟩
  cases h with
  | last hfront hv hback =>
    rename_i front cs back v
    simp only [List.length_append] at hfuel
    have hvalue := value?_of_spells hv (endsNumber_gap hback (.inr (.inl rfl)) rest) (show 2 * cs.length ≤ fuel by omega)
    simp only [List.append_assoc, List.cons_append, List.nil_append]
    rw [items?_gap hfront, items?_last _ _ hvalue (skipSpace_gap hback _)]
    rfl
  | more hfront hv hback hitems =>
    rename_i front cs back more v items
    simp only [List.length_append, List.length_cons] at hfuel
    have hvalue := value?_of_spells hv (endsNumber_gap hback (.inl rfl) (more ++ rest)) (show 2 * cs.length ≤ fuel by omega)
    simp only [List.append_assoc, List.cons_append]
    rw [items?_gap hfront, items?_more _ _ hvalue (skipSpace_gap hback _), items?_of_spells hitems (by omega)]
    rfl

theorem members?_of_spells {depth : Nat} {cs : List Char} {members : List (String × Json)}
    (h : SpellsMembers depth cs members) {fuel : Nat} {rest : List Char} (hfuel : 2 * cs.length + 1 ≤ fuel) :
    members? fuel depth (cs ++ rest) = some (keptMembers members, rest) := by
  obtain ⟨fuel, rfl⟩ : ∃ n, fuel = n + 1 := ⟨fuel - 1, by omega⟩
  cases h with
  | last hfront hname hgap hfront' hv hback =>
    rename_i front name gap cs back s v front'
    simp only [List.length_append, List.length_cons] at hfuel
    have hvalue := value?_of_spells hv (endsNumber_gap hback (.inr (.inr rfl)) rest) (show 2 * cs.length ≤ fuel by omega)
    rw [← value?_gap hfront'] at hvalue
    simp only [List.append_assoc, List.cons_append, List.nil_append]
    rw [members?_gap hfront,
      members?_last _ _ (stringBody?_append hname _) (skipSpace_gap hgap _) hvalue (skipSpace_gap hback _)]
    rfl
  | more hfront hname hgap hfront' hv hback hmembers =>
    rename_i front name gap cs back s more v members front'
    simp only [List.length_append, List.length_cons] at hfuel
    have hvalue := value?_of_spells hv (endsNumber_gap hback (.inl rfl) (more ++ rest)) (show 2 * cs.length ≤ fuel by omega)
    rw [← value?_gap hfront'] at hvalue
    simp only [List.append_assoc, List.cons_append]
    rw [members?_gap hfront,
      members?_more _ _ (stringBody?_append hname _) (skipSpace_gap hgap _) hvalue (skipSpace_gap hback _),
      members?_of_spells hmembers (by omega)]
    rfl

end

/-! ## What is read is spelled -/

/-- Within `fuel` steps only what is spelled is read as a value. -/
def ValuesSpelled (fuel : Nat) : Prop :=
  ∀ {depth cs v rest}, value? fuel depth cs = some (v, rest) →
    ∃ gap text raw, Gap gap ∧ cs = gap ++ (text ++ rest) ∧ Spells depth text raw ∧ v = raw.kept

/-- Within `fuel` steps only what is spelled is read as items. -/
def ItemsSpelled (fuel : Nat) : Prop :=
  ∀ {depth cs items rest}, items? fuel depth cs = some (items, rest) →
    ∃ text raw, cs = text ++ rest ∧ SpellsItems depth text raw ∧ items = keptItems raw

/-- Within `fuel` steps only what is spelled is read as members. -/
def MembersSpelled (fuel : Nat) : Prop :=
  ∀ {depth cs members rest}, members? fuel depth cs = some (members, rest) →
    ∃ text raw, cs = text ++ rest ∧ SpellsMembers depth text raw ∧ members = keptMembers raw

section Step

variable {fuel : Nat}

theorem ItemsSpelled.array {depth : Nat} {cs r : List Char} {items : List Json} (hitems : ItemsSpelled fuel)
    (h : items? fuel depth (skipSpace cs) = some (items, r)) :
    ∃ text raw, '[' :: cs = text ++ r ∧ Spells (depth + 1) text raw ∧ .arr items = raw.kept := by
  rw [items?_skipSpace] at h
  obtain ⟨text, raw, rfl, htext, rfl⟩ := hitems h
  exact ⟨_, _, rfl, .array htext, rfl⟩

theorem MembersSpelled.object {depth : Nat} {cs r : List Char} {members : List (String × Json)}
    (hmembers : MembersSpelled fuel) (h : members? fuel depth (skipSpace cs) = some (members, r)) :
    ∃ text raw, '{' :: cs = text ++ r ∧ Spells (depth + 1) text raw ∧ ofMembers members = raw.kept := by
  rw [members?_skipSpace] at h
  obtain ⟨text, raw, rfl, htext, rfl⟩ := hmembers h
  exact ⟨_, _, rfl, .object htext, (ofMembers_kept raw).symm⟩

theorem valuesSpelled_succ (hitems : ItemsSpelled fuel) (hmembers : MembersSpelled fuel) : ValuesSpelled (fuel + 1) := by
  intro depth cs v rest h
  obtain ⟨gap, hgap, hcs⟩ := exists_gap (show skipSpace cs = skipSpace cs from rfl)
  refine ⟨gap, ?_⟩
  -- the gap is settled, and what is left begins with the value
  suffices hfront : ∃ text raw, skipSpace cs = text ++ rest ∧ Spells depth text raw ∧ v = raw.kept by
    obtain ⟨text, raw, hsplit, htext, hv⟩ := hfront
    exact ⟨text, raw, hgap, by rw [← hsplit]; exact hcs, htext, hv⟩
  unfold value? at h
  split at h
  case h_1 r hword =>
    obtain ⟨rfl, rfl⟩ := Prod.mk.inj (Option.some.inj h)
    exact ⟨_, _, hword, .null depth, rfl⟩
  case h_2 r hword =>
    obtain ⟨rfl, rfl⟩ := Prod.mk.inj (Option.some.inj h)
    exact ⟨_, _, hword, .yes depth, rfl⟩
  case h_3 r hword =>
    obtain ⟨rfl, rfl⟩ := Prod.mk.inj (Option.some.inj h)
    exact ⟨_, _, hword, .no depth, rfl⟩
  case h_4 r hquote =>
    obtain ⟨⟨s, r'⟩, hs, he⟩ := Option.map_eq_some_iff.1 h
    obtain ⟨rfl, rfl⟩ := Prod.mk.inj he
    obtain ⟨body, rfl, hbody⟩ := stringBody?_split hs
    exact ⟨_, _, hquote, .string depth hbody, rfl⟩
  case h_5 r hbracket =>
    rw [hbracket]
    split at h
    · cases h
    · split at h
      · rename_i depth' _ r' hclose
        obtain ⟨rfl, rfl⟩ := Prod.mk.inj (Option.some.inj h)
        obtain ⟨gap', hgap', rfl⟩ := exists_gap hclose
        exact ⟨_, _, by simp, .emptyArray depth' hgap', rfl⟩
      · obtain ⟨⟨items, r'⟩, hi, he⟩ := Option.map_eq_some_iff.1 h
        obtain ⟨rfl, rfl⟩ := Prod.mk.inj he
        exact hitems.array hi
  case h_6 r hbrace =>
    rw [hbrace]
    split at h
    · cases h
    · split at h
      · rename_i depth' _ r' hclose
        obtain ⟨rfl, rfl⟩ := Prod.mk.inj (Option.some.inj h)
        obtain ⟨gap', hgap', rfl⟩ := exists_gap hclose
        exact ⟨_, _, by simp, .emptyObject depth' hgap', rfl⟩
      · obtain ⟨⟨members, r'⟩, hm, he⟩ := Option.map_eq_some_iff.1 h
        obtain ⟨rfl, rfl⟩ := Prod.mk.inj he
        exact hmembers.object hm
  case h_7 =>
    obtain ⟨⟨text, r⟩, hn, he⟩ := Option.map_eq_some_iff.1 h
    obtain ⟨rfl, rfl⟩ := Prod.mk.inj he
    obtain ⟨n, hsplit, rfl⟩ := number?_inv hn
    exact ⟨_, _, hsplit, .number depth n, by rw [kept, keptNumber_text]⟩

theorem itemsSpelled_succ (hvalues : ValuesSpelled fuel) (hitems : ItemsSpelled fuel) : ItemsSpelled (fuel + 1) := by
  intro depth cs items rest h
  unfold items? at h
  split at h
  · cases h
  · rename_i v r hv
    obtain ⟨front, text, raw, hfront, rfl, htext, rfl⟩ := hvalues hv
    split at h
    · rename_i r' hcomma
      obtain ⟨back, hback, rfl⟩ := exists_gap hcomma
      obtain ⟨⟨items, r''⟩, hi, he⟩ := Option.map_eq_some_iff.1 h
      obtain ⟨rfl, rfl⟩ := Prod.mk.inj he
      obtain ⟨text', raw', rfl, htext', rfl⟩ := hitems hi
      exact ⟨_, _, by simp, .more hfront htext hback htext', rfl⟩
    · rename_i r' hclose
      obtain ⟨back, hback, rfl⟩ := exists_gap hclose
      obtain ⟨rfl, rfl⟩ := Prod.mk.inj (Option.some.inj h)
      exact ⟨_, _, by simp, .last hfront htext hback, rfl⟩
    · cases h

theorem membersSpelled_succ (hvalues : ValuesSpelled fuel) (hmembers : MembersSpelled fuel) :
    MembersSpelled (fuel + 1) := by
  intro depth cs members rest h
  unfold members? at h
  split at h
  · rename_i name hname
    obtain ⟨front, hfront, rfl⟩ := exists_gap hname
    split at h
    · cases h
    · rename_i s r₁ hs
      obtain ⟨body, rfl, hbody⟩ := stringBody?_split hs
      split at h
      · rename_i r₂ hcolon
        obtain ⟨gap, hgap, rfl⟩ := exists_gap hcolon
        split at h
        · cases h
        · rename_i v r hv
          obtain ⟨front', text, raw, hfront', rfl, htext, rfl⟩ := hvalues hv
          split at h
          · rename_i r' hcomma
            obtain ⟨back, hback, rfl⟩ := exists_gap hcomma
            obtain ⟨⟨members, r''⟩, hm, he⟩ := Option.map_eq_some_iff.1 h
            obtain ⟨rfl, rfl⟩ := Prod.mk.inj he
            obtain ⟨text', raw', rfl, htext', rfl⟩ := hmembers hm
            exact ⟨_, _, by simp, .more hfront hbody hgap hfront' htext hback htext', rfl⟩
          · rename_i r' hclose
            obtain ⟨back, hback, rfl⟩ := exists_gap hclose
            obtain ⟨rfl, rfl⟩ := Prod.mk.inj (Option.some.inj h)
            exact ⟨_, _, by simp, .last hfront hbody hgap hfront' htext hback, rfl⟩
          · cases h
      · cases h
  · cases h

end Step

theorem read_spelled (fuel : Nat) : ValuesSpelled fuel ∧ ItemsSpelled fuel ∧ MembersSpelled fuel := by
  induction fuel with
  | zero => simp [ValuesSpelled, ItemsSpelled, MembersSpelled, value?, items?, members?]
  | succ fuel ih =>
    obtain ⟨hvalues, hitems, hmembers⟩ := ih
    exact ⟨valuesSpelled_succ hitems hmembers, itemsSpelled_succ hvalues hitems, membersSpelled_succ hvalues hmembers⟩

/-- What is read is spelled by a front of the text, behind white space. -/
theorem value?_inv {fuel depth : Nat} {cs rest : List Char} {v : Json} (h : value? fuel depth cs = some (v, rest)) :
    ∃ gap text raw, Gap gap ∧ cs = gap ++ (text ++ rest) ∧ Spells depth text raw ∧ v = raw.kept :=
  (read_spelled fuel).1 h

/-! ## Whole texts -/

theorem skipSpace_of_gap {gap : List Char} (h : Gap gap) : skipSpace gap = [] := by
  have hskip := skipSpace_gap h []
  rw [List.append_nil] at hskip
  exact hskip

/-- A text that spells a value between white space is read as that value. -/
theorem readWithin?_of_spells {depth : Nat} {front cs back : List Char} {v : Json} (hfront : Gap front)
    (h : Spells depth cs v) (hback : Gap back) : readWithin? depth (front ++ (cs ++ back)) = some v.kept := by
  have hfuel : 2 * cs.length ≤ fuelFor (front ++ (cs ++ back)) := by
    simp only [fuelFor, List.length_append]
    omega
  have hvalue := value?_of_spells h (endsNumber_of_gap hback) hfuel
  simp only [readWithin?, value?_gap hfront, hvalue, skipSpace_of_gap hback]
  rfl

/-- What is read from a text is spelled there. -/
theorem readWithin?_inv {depth : Nat} {cs : List Char} {v : Json} (h : readWithin? depth cs = some v) :
    ∃ front text back raw, Gap front ∧ Gap back ∧ cs = front ++ (text ++ back) ∧ Spells depth text raw ∧
      v = raw.kept := by
  unfold readWithin? at h
  split at h
  · rename_i v' rest hvalue
    split at h
    · rename_i hempty
      obtain rfl : v' = v := Option.some.inj h
      obtain ⟨front, text, raw, hfront, hcs, htext, hraw⟩ := value?_inv hvalue
      obtain ⟨back, hback, hrest⟩ := exists_gap (List.isEmpty_iff.1 hempty)
      rw [List.append_nil] at hrest
      exact ⟨front, text, rest, raw, hfront, hrest ▸ hback, hcs, htext, hraw⟩
    · cases h
  · cases h

end Conformance.Json
