import Conformance.Json.Scan
import Conformance.Proofs.Json.Reading
import Conformance.Proofs.Text.Decimal

/-!
# What the scan takes for a value

`Complete cs` says of a text that it is one complete value, and no more. It asks for less than reading does: values may be
nested as deep as they like, and an escape in a string may name half of a surrogate pair. The scan finds the end of a
complete value, whatever stands behind a value that ends by itself (`skipValue?_of_complete`), and passes over nothing
else (`skipValue?_inv`). What spells a value is complete (`Spells.complete`).
-/
namespace Conformance.Json

/-! ## Strings -/

/-- What a string is made of: characters that stand for themselves, and escapes. -/
inductive StringPiece : List Char → Prop
  | plain {c : Char} (hquote : c ≠ '"') (hback : c ≠ '\\') (hcontrol : ¬ c.toNat < 0x20) : StringPiece [c]
  | escape {c : Char} (h : c ∈ ['"', '\\', '/', 'b', 'f', 'n', 'r', 't']) : StringPiece ['\\', c]
  | unit {a b c d : Char} (h : [a, b, c, d].all fun x => (Text.digitIn? 16 x).isSome) :
      StringPiece ['\\', 'u', a, b, c, d]

/-- The text of a string from behind its opening quote up to its closing quote. -/
inductive StringText : List Char → Prop
  | close : StringText ['"']
  | more {piece cs : List Char} (hpiece : StringPiece piece) (h : StringText cs) : StringText (piece ++ cs)

/-- Four hexadecimal digits stand for a number, whatever follows them. -/
theorem hex4?_digits {a b c d : Char} (h : [a, b, c, d].all fun x => (Text.digitIn? 16 x).isSome) (r : List Char) :
    ∃ n, hex4? (a :: b :: c :: d :: r) = some (n, r) := by
  rw [← Text.natFrom?_isSome 16 0] at h
  obtain ⟨n, hn⟩ := Option.isSome_iff_exists.1 h
  refine ⟨n, ?_⟩
  show (Text.natFrom? 16 0 [a, b, c, d]).map _ = _
  rw [hn]
  rfl

theorem hex4?_inv_digits {cs r : List Char} {n : Nat} (h : hex4? cs = some (n, r)) :
    ∃ a b c d, cs = a :: b :: c :: d :: r ∧ [a, b, c, d].all fun x => (Text.digitIn? 16 x).isSome := by
  unfold hex4? at h
  split at h
  · rename_i a b c d r₀
    obtain ⟨m, hm, he⟩ := Option.map_eq_some_iff.1 h
    obtain ⟨-, rfl⟩ := Prod.mk.inj he
    refine ⟨a, b, c, d, rfl, ?_⟩
    rw [← Text.natFrom?_isSome 16 0, show Text.natFrom? 16 0 [a, b, c, d] = some m from hm]
    rfl
  · cases h

theorem skipString?_escape {cs r : List Char} (h : skipEscape? cs = some r) : skipString? ('\\' :: cs) = skipString? r := by
  rw [skipString?]
  split
  · rename_i hnone
    rw [h] at hnone
    cases hnone
  · rename_i hsome
    rw [h] at hsome
    rw [Option.some.inj hsome]

/-- Every piece of a string is passed over by itself. -/
theorem skipString?_piece {piece : List Char} (h : StringPiece piece) (r : List Char) :
    skipString? (piece ++ r) = skipString? r := by
  cases h with
  | plain hquote hback hcontrol =>
    rw [List.singleton_append, skipString?, if_neg hcontrol]
    · exact hquote
    · exact hback
  | escape hc =>
    simp only [List.mem_cons, List.not_mem_nil, or_false] at hc
    rcases hc with rfl | rfl | rfl | rfl | rfl | rfl | rfl | rfl <;> exact skipString?_escape rfl
  | unit hdigits =>
    obtain ⟨n, hn⟩ := hex4?_digits hdigits r
    apply skipString?_escape
    show (hex4? (_ :: _ :: _ :: _ :: r)).map _ = some r
    rw [hn]
    rfl

theorem skipString?_of_stringText {cs : List Char} (h : StringText cs) (r : List Char) :
    skipString? (cs ++ r) = some r := by
  induction h with
  | close => rw [List.singleton_append, skipString?]
  | more hpiece _ ih => rw [List.append_assoc, skipString?_piece hpiece, ih]

/-- An escape that is passed over is a piece of a string. -/
theorem skipEscape?_inv {cs r : List Char} (h : skipEscape? cs = some r) :
    ∃ text, cs = text ++ r ∧ StringPiece ('\\' :: text) := by
  unfold skipEscape? at h
  split at h
  · obtain ⟨⟨n, r'⟩, hn, rfl⟩ := Option.map_eq_some_iff.1 h
    obtain ⟨a, b, c, d, rfl, hdigits⟩ := hex4?_inv_digits hn
    exact ⟨['u', a, b, c, d], rfl, .unit hdigits⟩
  · rename_i c r₀ _
    split at h
    · rename_i hc
      obtain rfl := Option.some.inj h
      exact ⟨[c], rfl, .escape (by simpa [or_assoc] using hc)⟩
    · cases h
  · cases h

/-- A string that is passed over stands at the front of the text. -/
theorem skipString?_inv {cs r : List Char} (h : skipString? cs = some r) : ∃ text, cs = text ++ r ∧ StringText text := by
  fun_induction skipString? cs with
  | case1 => cases h
  | case2 r₀ =>
    obtain rfl := Option.some.inj h
    exact ⟨['"'], rfl, .close⟩
  | case3 => cases h
  | case4 r₀ r₁ hesc ih =>
    obtain ⟨piece, rfl, hpiece⟩ := skipEscape?_inv hesc
    obtain ⟨text, rfl, htext⟩ := ih h
    exact ⟨'\\' :: piece ++ text, by simp, .more hpiece htext⟩
  | case5 => cases h
  | case6 c r₀ hquote hback hcontrol ih =>
    obtain ⟨text, rfl, htext⟩ := ih h
    exact ⟨c :: text, rfl, .more (.plain hquote hback hcontrol) htext⟩

/-- An escape that is read is a piece of a string, or two pieces where it is a surrogate pair. -/
theorem StringText.escape {cs r : List Char} {c : Char} (h : escape? cs = some (c, r)) (hr : StringText r) :
    StringText ('\\' :: cs) := by
  unfold escape? at h
  split at h
  case h_9 =>
    split at h
    · cases h
    · rename_i hn
      obtain ⟨a, b, c', d, rfl, hdigits⟩ := hex4?_inv_digits hn
      apply StringText.more (.unit hdigits)
      split at h
      · cases h
      · split at h
        · split at h
          · split at h
            · cases h
            · rename_i hm
              obtain ⟨a', b', c'', d', rfl, hdigits'⟩ := hex4?_inv_digits hm
              apply StringText.more (.unit hdigits')
              split at h
              · rw [(Prod.mk.inj (Option.some.inj h)).2]
                exact hr
              · cases h
          · cases h
        · rw [(Prod.mk.inj (Option.some.inj h)).2]
          exact hr
  case h_10 => cases h
  all_goals
    obtain ⟨-, rfl⟩ := Prod.mk.inj (Option.some.inj h)
    exact .more (.escape (by decide)) hr

/-- What is read as a string is the text of one. -/
theorem stringText_of_stringBody? {cs s : List Char} (h : stringBody? cs = some (s, [])) : StringText cs := by
  fun_induction stringBody? cs generalizing s with
  | case1 => cases h
  | case2 r₀ =>
    obtain ⟨-, rfl⟩ := Prod.mk.inj (Option.some.inj h)
    exact .close
  | case3 => cases h
  | case4 r₀ c r₁ hesc ih =>
    obtain ⟨⟨s', r'⟩, hs, he⟩ := Option.map_eq_some_iff.1 h
    obtain ⟨-, rfl⟩ := Prod.mk.inj he
    exact .escape hesc (ih hs)
  | case5 => cases h
  | case6 c r₀ hquote hback hcontrol ih =>
    obtain ⟨⟨s', r'⟩, hs, he⟩ := Option.map_eq_some_iff.1 h
    obtain ⟨-, rfl⟩ := Prod.mk.inj he
    exact .more (.plain hquote hback hcontrol) (ih hs)

/-! ## Values -/

mutual

/-- The text is one complete value, from its first character to its last one. -/
inductive Complete : List Char → Prop
  | null : Complete ['n', 'u', 'l', 'l']
  | yes : Complete ['t', 'r', 'u', 'e']
  | no : Complete ['f', 'a', 'l', 's', 'e']
  | number (n : Numeral) : Complete n.text
  | string {cs : List Char} (h : StringText cs) : Complete ('"' :: cs)
  | emptyArray {gap : List Char} (h : Gap gap) : Complete ('[' :: (gap ++ [']']))
  | array {cs : List Char} (h : CompleteItems cs) : Complete ('[' :: cs)
  | emptyObject {gap : List Char} (h : Gap gap) : Complete ('{' :: (gap ++ ['}']))
  | object {cs : List Char} (h : CompleteMembers cs) : Complete ('{' :: cs)

/-- The text is that of the items of an array, at least one, up to the closing bracket. -/
inductive CompleteItems : List Char → Prop
  | last {front cs back : List Char} (hfront : Gap front) (h : Complete cs) (hback : Gap back) :
      CompleteItems (front ++ (cs ++ (back ++ [']'])))
  | more {front cs back rest : List Char} (hfront : Gap front) (h : Complete cs) (hback : Gap back)
      (hrest : CompleteItems rest) : CompleteItems (front ++ (cs ++ (back ++ ',' :: rest)))

/-- The text is that of the members of an object, at least one, up to the closing brace. -/
inductive CompleteMembers : List Char → Prop
  | last {front name gap front' cs back : List Char} (hfront : Gap front) (hname : StringText name) (hgap : Gap gap)
      (hfront' : Gap front') (h : Complete cs) (hback : Gap back) :
      CompleteMembers (front ++ '"' :: (name ++ (gap ++ ':' :: (front' ++ (cs ++ (back ++ ['}']))))))
  | more {front name gap front' cs back rest : List Char} (hfront : Gap front) (hname : StringText name) (hgap : Gap gap)
      (hfront' : Gap front') (h : Complete cs) (hback : Gap back) (hrest : CompleteMembers rest) :
      CompleteMembers (front ++ '"' :: (name ++ (gap ++ ':' :: (front' ++ (cs ++ (back ++ ',' :: rest))))))

end

mutual

/-- What spells a value is a complete value. -/
theorem Spells.complete {depth : Nat} {cs : List Char} {v : Json} : Spells depth cs v → Complete cs
  | .null _ => .null
  | .yes _ => .yes
  | .no _ => .no
  | .number _ n => .number n
  | .string _ h => .string (stringText_of_stringBody? h)
  | .emptyArray _ h => .emptyArray h
  | .array h => .array h.complete
  | .emptyObject _ h => .emptyObject h
  | .object h => .object h.complete

theorem SpellsItems.complete {depth : Nat} {cs : List Char} {items : List Json} :
    SpellsItems depth cs items → CompleteItems cs
  | .last hfront h hback => .last hfront h.complete hback
  | .more hfront h hback hrest => .more hfront h.complete hback hrest.complete

theorem SpellsMembers.complete {depth : Nat} {cs : List Char} {members : List (String × Json)} :
    SpellsMembers depth cs members → CompleteMembers cs
  | .last hfront hname hgap hfront' h hback =>
    .last hfront (stringText_of_stringBody? hname) hgap hfront' h.complete hback
  | .more hfront hname hgap hfront' h hback hrest =>
    .more hfront (stringText_of_stringBody? hname) hgap hfront' h.complete hback hrest.complete

end

/-- A value begins with none of the characters that separate or close. -/
theorem Complete.head {cs : List Char} (h : Complete cs) :
    ∃ c r, cs = c :: r ∧ isSpace c = false ∧ c ≠ ']' ∧ c ≠ '}' := by
  cases h with
  | null | yes | no | string | emptyArray | array | emptyObject | object =>
    exact ⟨_, _, rfl, by decide, by decide, by decide⟩
  | number n => exact (Spells.number 0 n).head

/-! ## The scan passes over a complete value -/

theorem skipValue?_gap {front : List Char} (h : Gap front) (fuel : Nat) (cs : List Char) :
    skipValue? fuel (front ++ cs) = skipValue? fuel cs := by
  cases fuel with
  | zero => rfl
  | succ fuel => simp only [skipValue?, skipSpace_gap h]

theorem skipItems?_gap {front : List Char} (h : Gap front) (fuel : Nat) (cs : List Char) :
    skipItems? fuel (front ++ cs) = skipItems? fuel cs := by
  cases fuel with
  | zero => rfl
  | succ fuel => simp only [skipItems?, skipValue?_gap h]

theorem skipMembers?_gap {front : List Char} (h : Gap front) (fuel : Nat) (cs : List Char) :
    skipMembers? fuel (front ++ cs) = skipMembers? fuel cs := by
  cases fuel with
  | zero => rfl
  | succ fuel => simp only [skipMembers?, skipSpace_gap h]

theorem skipItems?_skipSpace (fuel : Nat) (cs : List Char) : skipItems? fuel (skipSpace cs) = skipItems? fuel cs := by
  obtain ⟨gap, hgap, hcs⟩ := exists_gap (show skipSpace cs = skipSpace cs from rfl)
  have h := skipItems?_gap hgap fuel (skipSpace cs)
  rw [← hcs] at h
  exact h.symm

theorem skipMembers?_skipSpace (fuel : Nat) (cs : List Char) :
    skipMembers? fuel (skipSpace cs) = skipMembers? fuel cs := by
  obtain ⟨gap, hgap, hcs⟩ := exists_gap (show skipSpace cs = skipSpace cs from rfl)
  have h := skipMembers?_gap hgap fuel (skipSpace cs)
  rw [← hcs] at h
  exact h.symm

/-- A number is passed over as it is read. -/
theorem skipValue?_numeral (n : Numeral) (fuel : Nat) {rest : List Char} (h : EndsNumber rest) :
    skipValue? (fuel + 1) (n.text ++ rest) = some rest := by
  obtain ⟨c, r, htext, hspace, -⟩ := (Spells.number 0 n).head
  rw [skipValue?, show skipSpace (n.text ++ rest) = n.text ++ rest by rw [htext]; exact skipSpace_cons hspace _]
  split
  case h_7 =>
    rw [number?_text n h]
    rfl
  all_goals
    rename_i heq
    exact absurd heq (n.text_append_ne (by decide) (by decide) rest _)

section Brackets

variable (fuel : Nat) {cs r : List Char}

theorem skipValue?_emptyArray (h : skipSpace cs = ']' :: r) : skipValue? (fuel + 1) ('[' :: cs) = some r := by
  simp only [skipValue?, skipSpace_cons (show isSpace '[' = false by decide), h]

theorem skipValue?_emptyObject (h : skipSpace cs = '}' :: r) : skipValue? (fuel + 1) ('{' :: cs) = some r := by
  simp only [skipValue?, skipSpace_cons (show isSpace '{' = false by decide), h]

theorem skipValue?_array (h : ∀ r, skipSpace cs ≠ ']' :: r) :
    skipValue? (fuel + 1) ('[' :: cs) = skipItems? fuel cs := by
  simp only [skipValue?, skipSpace_cons (show isSpace '[' = false by decide)]
  rw [skipItems?_skipSpace]

theorem skipValue?_object (h : ∀ r, skipSpace cs ≠ '}' :: r) :
    skipValue? (fuel + 1) ('{' :: cs) = skipMembers? fuel cs := by
  simp only [skipValue?, skipSpace_cons (show isSpace '{' = false by decide)]
  rw [skipMembers?_skipSpace]

theorem skipItems?_last (h : skipValue? fuel cs = some r) {r' : List Char} (hr : skipSpace r = ']' :: r') :
    skipItems? (fuel + 1) cs = some r' := by
  simp only [skipItems?, h, hr]

theorem skipItems?_more (h : skipValue? fuel cs = some r) {r' : List Char} (hr : skipSpace r = ',' :: r') :
    skipItems? (fuel + 1) cs = skipItems? fuel r' := by
  simp only [skipItems?, h, hr]

variable {name r₁ : List Char}

theorem skipMembers?_last (hname : skipString? name = some r₁) {r₂ : List Char} (hcolon : skipSpace r₁ = ':' :: r₂)
    (hv : skipValue? fuel r₂ = some r) {r' : List Char} (hr : skipSpace r = '}' :: r') :
    skipMembers? (fuel + 1) ('"' :: name) = some r' := by
  simp only [skipMembers?, skipSpace_cons (show isSpace '"' = false by decide), hname, hcolon, hv, hr]

theorem skipMembers?_more (hname : skipString? name = some r₁) {r₂ : List Char} (hcolon : skipSpace r₁ = ':' :: r₂)
    (hv : skipValue? fuel r₂ = some r) {r' : List Char} (hr : skipSpace r = ',' :: r') :
    skipMembers? (fuel + 1) ('"' :: name) = skipMembers? fuel r' := by
  simp only [skipMembers?, skipSpace_cons (show isSpace '"' = false by decide), hname, hcolon, hv, hr]

end Brackets

/-- The first item of an array is not its closing bracket. -/
theorem CompleteItems.not_closed {cs rest : List Char} (h : CompleteItems cs) : ∀ r, skipSpace (cs ++ rest) ≠ ']' :: r := by
  intro r hr
  cases h with
  | last hfront hv hback | more hfront hv hback =>
    obtain ⟨c, r', rfl, hspace, hc, -⟩ := hv.head
    rw [List.append_assoc, skipSpace_gap hfront, List.append_assoc, List.cons_append, skipSpace_cons hspace] at hr
    exact hc (List.cons.inj hr).1

/-- The first member of an object is not its closing brace. -/
theorem CompleteMembers.not_closed {cs rest : List Char} (h : CompleteMembers cs) :
    ∀ r, skipSpace (cs ++ rest) ≠ '}' :: r := by
  intro r hr
  cases h with
  | last hfront | more hfront =>
    rw [List.append_assoc, skipSpace_gap hfront] at hr
    exact absurd (List.cons.inj hr).1 (by decide)

/-- The value ends by itself: it is a string, an array or an object. -/
def SelfEnding (cs : List Char) : Prop := ∀ c ∈ cs.head?, endsItself c = true

/-- What begins as a number does not end by itself. -/
theorem Numeral.not_selfEnding (n : Numeral) : ¬ SelfEnding n.text := by
  intro h
  obtain ⟨c, r, htext, hc⟩ := n.head_text
  have hself := h c (by rw [htext]; rfl)
  simp only [endsItself, Bool.or_eq_true, decide_eq_true_eq] at hself
  rcases hc with rfl | hc
  · exact absurd hself (by decide)
  · rcases hself with (rfl | rfl) | rfl <;> exact absurd hc (by decide)

mutual

/-- A complete value is passed over, whatever follows a value that ends by itself. -/
theorem skipValue?_of_complete {cs rest : List Char} (h : Complete cs) (hrest : SelfEnding cs ∨ EndsNumber rest)
    {fuel : Nat} (hfuel : 2 * cs.length ≤ fuel) : skipValue? fuel (cs ++ rest) = some rest := by
  -- a value takes a step of its own and one of the list that it stands in, and has a character at least
  obtain ⟨fuel, rfl⟩ : ∃ n, fuel = n + 1 := by
    obtain ⟨c, r, rfl, -⟩ := h.head
    rw [List.length_cons] at hfuel
    exact ⟨fuel - 1, by omega⟩
  cases h with
  | null | yes | no => rfl
  | number n => exact skipValue?_numeral n fuel (hrest.resolve_left n.not_selfEnding)
  | string hs => exact skipString?_of_stringText hs rest
  | emptyArray hgap =>
    rw [List.cons_append, List.append_assoc]
    exact skipValue?_emptyArray fuel (skipSpace_gap hgap _)
  | emptyObject hgap =>
    rw [List.cons_append, List.append_assoc]
    exact skipValue?_emptyObject fuel (skipSpace_gap hgap _)
  | array hitems =>
    rw [List.length_cons] at hfuel
    rw [List.cons_append, skipValue?_array _ hitems.not_closed]
    exact skipItems?_of_complete hitems (by omega)
  | object hmembers =>
    rw [List.length_cons] at hfuel
    rw [List.cons_append, skipValue?_object _ hmembers.not_closed]
    exact skipMembers?_of_complete hmembers (by omega)

theorem skipItems?_of_complete {cs rest : List Char} (h : CompleteItems cs) {fuel : Nat}
    (hfuel : 2 * cs.length + 1 ≤ fuel) : skipItems? fuel (cs ++ rest) = some rest := by
  obtain ⟨fuel, rfl⟩ : ∃ n, fuel = n + 1 := ⟨fuel - 1, by omega⟩
  cases h with
  | last hfront hv hback =>
    rename_i front cs back
    simp only [List.length_append] at hfuel
    -- what separates and closes ends a number, so it does not matter here what the value is
    have hvalue := skipValue?_of_complete hv (.inr (endsNumber_gap hback (.inr (.inl rfl)) rest))
      (show 2 * cs.length ≤ fuel by omega)
    simp only [List.append_assoc, List.cons_append, List.nil_append]
    rw [skipItems?_gap hfront, skipItems?_last _ hvalue (skipSpace_gap_cons hback rfl _)]
  | more hfront hv hback hitems =>
    rename_i front cs back more
    simp only [List.length_append, List.length_cons] at hfuel
    have hvalue := skipValue?_of_complete hv (.inr (endsNumber_gap hback (.inl rfl) (more ++ rest)))
      (show 2 * cs.length ≤ fuel by omega)
    simp only [List.append_assoc, List.cons_append]
    rw [skipItems?_gap hfront, skipItems?_more _ hvalue (skipSpace_gap_cons hback rfl _)]
    exact skipItems?_of_complete hitems (by omega)

theorem skipMembers?_of_complete {cs rest : List Char} (h : CompleteMembers cs) {fuel : Nat}
    (hfuel : 2 * cs.length + 1 ≤ fuel) : skipMembers? fuel (cs ++ rest) = some rest := by
  obtain ⟨fuel, rfl⟩ : ∃ n, fuel = n + 1 := ⟨fuel - 1, by omega⟩
  cases h with
  | last hfront hname hgap hfront' hv hback =>
    rename_i front name gap front' cs back
    simp only [List.length_append, List.length_cons] at hfuel
    have hvalue := skipValue?_of_complete hv (.inr (endsNumber_gap hback (.inr (.inr rfl)) rest))
      (show 2 * cs.length ≤ fuel by omega)
    rw [← skipValue?_gap hfront'] at hvalue
    simp only [List.append_assoc, List.cons_append, List.nil_append]
    rw [skipMembers?_gap hfront, skipMembers?_last _ (skipString?_of_stringText hname _) (skipSpace_gap_cons hgap rfl _)
      hvalue (skipSpace_gap_cons hback rfl _)]
  | more hfront hname hgap hfront' hv hback hmembers =>
    rename_i front name gap front' cs back more
    simp only [List.length_append, List.length_cons] at hfuel
    have hvalue := skipValue?_of_complete hv (.inr (endsNumber_gap hback (.inl rfl) (more ++ rest)))
      (show 2 * cs.length ≤ fuel by omega)
    rw [← skipValue?_gap hfront'] at hvalue
    simp only [List.append_assoc, List.cons_append]
    rw [skipMembers?_gap hfront, skipMembers?_more _ (skipString?_of_stringText hname _) (skipSpace_gap_cons hgap rfl _)
      hvalue (skipSpace_gap_cons hback rfl _)]
    exact skipMembers?_of_complete hmembers (by omega)

end

/-! ## The scan passes over nothing else -/

/-- Within `fuel` steps only a complete value is passed over as one. -/
def ValuesComplete (fuel : Nat) : Prop :=
  ∀ {cs rest}, skipValue? fuel cs = some rest → ∃ gap text, Gap gap ∧ cs = gap ++ (text ++ rest) ∧ Complete text

/-- Within `fuel` steps only complete items are passed over. -/
def ItemsComplete (fuel : Nat) : Prop :=
  ∀ {cs rest}, skipItems? fuel cs = some rest → ∃ text, cs = text ++ rest ∧ CompleteItems text

/-- Within `fuel` steps only complete members are passed over. -/
def MembersComplete (fuel : Nat) : Prop :=
  ∀ {cs rest}, skipMembers? fuel cs = some rest → ∃ text, cs = text ++ rest ∧ CompleteMembers text

section Step

variable {fuel : Nat}

theorem valuesComplete_succ (hitems : ItemsComplete fuel) (hmembers : MembersComplete fuel) :
    ValuesComplete (fuel + 1) := by
  intro cs rest h
  obtain ⟨gap, hgap, hcs⟩ := exists_gap (show skipSpace cs = skipSpace cs from rfl)
  refine ⟨gap, ?_⟩
  -- the scan decides by the first character behind the white space
  suffices hfront : ∃ text, skipSpace cs = text ++ rest ∧ Complete text by
    obtain ⟨text, hsplit, htext⟩ := hfront
    exact ⟨text, hgap, by rw [← hsplit]; exact hcs, htext⟩
  unfold skipValue? at h
  split at h
  case h_1 r hword =>
    obtain rfl := Option.some.inj h
    exact ⟨_, hword, .null⟩
  case h_2 r hword =>
    obtain rfl := Option.some.inj h
    exact ⟨_, hword, .yes⟩
  case h_3 r hword =>
    obtain rfl := Option.some.inj h
    exact ⟨_, hword, .no⟩
  case h_4 r hquote =>
    obtain ⟨text, rfl, htext⟩ := skipString?_inv h
    exact ⟨_, hquote, .string htext⟩
  case h_5 r hbracket =>
    rw [hbracket]
    split at h
    · rename_i r' hclose
      obtain rfl := Option.some.inj h
      obtain ⟨gap', hgap', rfl⟩ := exists_gap hclose
      exact ⟨_, by simp, .emptyArray hgap'⟩
    · rw [skipItems?_skipSpace] at h
      obtain ⟨text, rfl, htext⟩ := hitems h
      exact ⟨_, rfl, .array htext⟩
  case h_6 r hbrace =>
    rw [hbrace]
    split at h
    · rename_i r' hclose
      obtain rfl := Option.some.inj h
      obtain ⟨gap', hgap', rfl⟩ := exists_gap hclose
      exact ⟨_, by simp, .emptyObject hgap'⟩
    · rw [skipMembers?_skipSpace] at h
      obtain ⟨text, rfl, htext⟩ := hmembers h
      exact ⟨_, rfl, .object htext⟩
  case h_7 =>
    obtain ⟨⟨text, r⟩, hn, rfl⟩ := Option.map_eq_some_iff.1 h
    obtain ⟨n, hsplit, -⟩ := number?_inv hn
    exact ⟨_, hsplit, .number n⟩

theorem itemsComplete_succ (hvalues : ValuesComplete fuel) (hitems : ItemsComplete fuel) : ItemsComplete (fuel + 1) := by
  intro cs rest h
  unfold skipItems? at h
  split at h
  · cases h
  · rename_i r hv
    obtain ⟨front, text, hfront, rfl, htext⟩ := hvalues hv
    split at h
    · rename_i r' hcomma
      obtain ⟨back, hback, rfl⟩ := exists_gap hcomma
      obtain ⟨text', rfl, htext'⟩ := hitems h
      exact ⟨_, by simp, .more hfront htext hback htext'⟩
    · rename_i r' hclose
      obtain ⟨back, hback, rfl⟩ := exists_gap hclose
      obtain rfl := Option.some.inj h
      exact ⟨_, by simp, .last hfront htext hback⟩
    · cases h

theorem membersComplete_succ (hvalues : ValuesComplete fuel) (hmembers : MembersComplete fuel) :
    MembersComplete (fuel + 1) := by
  intro cs rest h
  unfold skipMembers? at h
  split at h
  · rename_i name hquote
    obtain ⟨front, hfront, rfl⟩ := exists_gap hquote
    split at h
    · cases h
    · rename_i r₁ hs
      obtain ⟨body, rfl, hbody⟩ := skipString?_inv hs
      split at h
      · rename_i r₂ hcolon
        obtain ⟨gap, hgap, rfl⟩ := exists_gap hcolon
        split at h
        · cases h
        · rename_i r hv
          obtain ⟨front', text, hfront', rfl, htext⟩ := hvalues hv
          split at h
          · rename_i r' hcomma
            obtain ⟨back, hback, rfl⟩ := exists_gap hcomma
            obtain ⟨text', rfl, htext'⟩ := hmembers h
            exact ⟨_, by simp, .more hfront hbody hgap hfront' htext hback htext'⟩
          · rename_i r' hclose
            obtain ⟨back, hback, rfl⟩ := exists_gap hclose
            obtain rfl := Option.some.inj h
            exact ⟨_, by simp, .last hfront hbody hgap hfront' htext hback⟩
          · cases h
      · cases h
  · cases h

end Step

theorem skipped_complete (fuel : Nat) : ValuesComplete fuel ∧ ItemsComplete fuel ∧ MembersComplete fuel := by
  induction fuel with
  | zero => simp [ValuesComplete, ItemsComplete, MembersComplete, skipValue?, skipItems?, skipMembers?]
  | succ fuel ih =>
    obtain ⟨hvalues, hitems, hmembers⟩ := ih
    exact ⟨valuesComplete_succ hitems hmembers, itemsComplete_succ hvalues hitems, membersComplete_succ hvalues hmembers⟩

/-- What is passed over is a complete value, behind white space. -/
theorem skipValue?_inv {fuel : Nat} {cs rest : List Char} (h : skipValue? fuel cs = some rest) :
    ∃ gap text, Gap gap ∧ cs = gap ++ (text ++ rest) ∧ Complete text :=
  (skipped_complete fuel).1 h

/-! ## The value at the very start of a text -/

/-- The text may follow a value that does not end by itself: it is empty, or it begins with white space, a quote, a bracket,
a brace, a comma or a colon. -/
def KeepsApart (rest : List Char) : Prop :=
  ∀ c ∈ rest.head?, c ∈ [' ', '\t', '\n', '\r', '"', '[', ']', '{', '}', ',', ':']

theorem endsValue_iff {rest : List Char} : endsValue rest = true ↔ KeepsApart rest := by
  cases rest with
  | nil => exact ⟨fun _ _ hc => absurd hc (Option.not_mem_none _), fun _ => rfl⟩
  | cons c r => simp [endsValue, isSpace, KeepsApart, or_assoc]

/-- What keeps apart from a number does not go on with it. -/
theorem KeepsApart.endsNumber {rest : List Char} (h : KeepsApart rest) : EndsNumber rest := by
  intro c hc
  have hmem := h c hc
  simp only [List.mem_cons, List.not_mem_nil, or_false] at hmem
  rcases hmem with rfl | rfl | rfl | rfl | rfl | rfl | rfl | rfl | rfl | rfl | rfl <;> decide

/-- A text that does not begin with white space is divided into the complete value at its start and the rest, which has
to keep apart from the value unless the value ends by itself. -/
theorem behindValue?_eq_some_iff {cs rest : List Char} (hcs : ∀ c ∈ cs.head?, isSpace c = false) :
    behindValue? cs = some rest ↔
      ∃ text, cs = text ++ rest ∧ Complete text ∧ (SelfEnding text ∨ KeepsApart rest) := by
  constructor
  · intro h
    unfold behindValue? at h
    split at h
    · cases h
    · rename_i c r
      split at h
      · cases h
      · rename_i rest' hskip
        split at h
        · rename_i hend
          obtain rfl := Option.some.inj h
          obtain ⟨gap, text, hgap, hsplit, htext⟩ := skipValue?_inv hskip
          obtain ⟨c', r', rfl, -⟩ := htext.head
          -- there is no white space in front, so the value begins with the first character
          obtain rfl : gap = [] := by
            cases gap with
            | nil => rfl
            | cons g gap =>
              have hg := hgap g List.mem_cons_self
              rw [← (List.cons.inj hsplit).1, hcs c rfl] at hg
              cases hg
          obtain rfl : c = c' := (List.cons.inj hsplit).1
          refine ⟨c :: r', hsplit, htext, ?_⟩
          rw [Bool.or_eq_true] at hend
          exact hend.imp (fun hself d hd => Option.some.inj hd ▸ hself) endsValue_iff.1
        · cases h
  · rintro ⟨text, rfl, htext, hend⟩
    have hskip : skipValue? (fuelFor (text ++ rest)) (text ++ rest) = some rest := by
      apply skipValue?_of_complete htext (hend.imp id KeepsApart.endsNumber)
      simp only [fuelFor, List.length_append]
      omega
    obtain ⟨c, r, rfl, -⟩ := htext.head
    have hgoal : (endsItself c || endsValue rest) = true := by
      rw [Bool.or_eq_true]
      exact hend.imp (fun hself => hself c rfl) endsValue_iff.2
    simp only [behindValue?, List.cons_append] at hskip ⊢
    simp only [hskip, hgoal, if_true]

end Conformance.Json
