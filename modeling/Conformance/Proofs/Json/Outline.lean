import Conformance.Json.Outline
import Conformance.Proofs.Json.Reading
import Conformance.Proofs.Json.Scan
import Mathlib.Data.List.Forall2

/-!
# The outline of a text that spells an object

What spells a value is complete, so the outline of a text that spells an object gives the texts of its members, and each of
them spells its member.
-/
namespace Conformance.Json

/-! ## The texts of members -/

/-- The text of a value ends with the value. -/
theorem valueText?_of_spells {depth : Nat} {front cs rest : List Char} {v : Json} (hfront : Gap front)
    (h : Spells depth cs v) (hrest : EndsNumber rest) :
    valueText? (front ++ (cs ++ rest)) = some (front ++ cs, rest) := by
  have hfuel : 2 * cs.length ≤ fuelFor (front ++ (cs ++ rest)) := by
    simp only [fuelFor, List.length_append]
    omega
  have hskip := skipValue?_of_complete h.complete (.inr hrest) hfuel
  rw [← skipValue?_gap hfront] at hskip
  have hlength : (front ++ (cs ++ rest)).length - rest.length = (front ++ cs).length := by
    simp only [List.length_append]
    omega
  rw [valueText?, hskip, Option.map_some, hlength, ← List.append_assoc, List.take_left]

/-- The text spells the value, perhaps behind white space. -/
def SpellsBehindGap (depth : Nat) (cs : List Char) (v : Json) : Prop :=
  ∃ front text, Gap front ∧ cs = front ++ text ∧ Spells depth text v

/-- A member and the text of a member have one name, and the text spells the value. -/
def SpellsMember (depth : Nat) (text : String × List Char) (member : String × Json) : Prop :=
  text.1 = member.1 ∧ SpellsBehindGap depth text.2 member.2

theorem SpellsBehindGap.readWithin? {depth : Nat} {cs : List Char} {v : Json} (h : SpellsBehindGap depth cs v) :
    readWithin? depth cs = some v.kept := by
  obtain ⟨front, text, hfront, rfl, htext⟩ := h
  have hread := readWithin?_of_spells hfront htext gap_nil
  rw [List.append_nil] at hread
  exact hread

theorem memberTexts?_gap {front : List Char} (h : Gap front) (fuel : Nat) (cs : List Char) :
    memberTexts? fuel (front ++ cs) = memberTexts? fuel cs := by
  cases fuel with
  | zero => rfl
  | succ fuel => simp only [memberTexts?, skipSpace_gap h]

section Members

variable (fuel : Nat) {name s r r₁ r₂ text : List Char}

theorem memberTexts?_last (hname : stringBody? name = some (s, r₁)) (hcolon : skipSpace r₁ = ':' :: r₂)
    (hv : valueText? r₂ = some (text, r)) {r' : List Char} (hr : skipSpace r = '}' :: r') :
    memberTexts? (fuel + 1) ('"' :: name) = some ([(String.ofList s, text)], r') := by
  simp only [memberTexts?, skipSpace_cons (show isSpace '"' = false by decide), hname, hcolon, hv, hr]

theorem memberTexts?_more (hname : stringBody? name = some (s, r₁)) (hcolon : skipSpace r₁ = ':' :: r₂)
    (hv : valueText? r₂ = some (text, r)) {r' : List Char} (hr : skipSpace r = ',' :: r') :
    memberTexts? (fuel + 1) ('"' :: name) =
      (memberTexts? fuel r').map fun m => ((String.ofList s, text) :: m.1, m.2) := by
  simp only [memberTexts?, skipSpace_cons (show isSpace '"' = false by decide), hname, hcolon, hv, hr]

end Members

theorem memberTexts?_of_spells {depth : Nat} {cs : List Char} {members : List (String × Json)} (rest : List Char) :
    SpellsMembers depth cs members → ∀ fuel, cs.length ≤ fuel →
      ∃ texts, memberTexts? fuel (cs ++ rest) = some (texts, rest) ∧ List.Forall₂ (SpellsMember depth) texts members
  | .last hfront hname hgap hfront' hv hback, fuel, hfuel => by
    simp only [List.length_append, List.length_cons] at hfuel
    obtain ⟨fuel, rfl⟩ : ∃ n, fuel = n + 1 := ⟨fuel - 1, by omega⟩
    have htext := valueText?_of_spells hfront' hv (endsNumber_gap hback (.inr (.inr rfl)) rest)
    have hmember := memberTexts?_last fuel (stringBody?_append hname _) (skipSpace_gap_cons hgap rfl _) htext
      (skipSpace_gap_cons hback rfl _)
    rw [← memberTexts?_gap hfront] at hmember
    exact ⟨_, by simpa using hmember, .cons ⟨rfl, _, _, hfront', rfl, hv⟩ .nil⟩
  | .more hfront hname hgap hfront' hv hback hmembers, fuel, hfuel => by
    rename_i front name gap cs back s more v members front'
    simp only [List.length_append, List.length_cons] at hfuel
    obtain ⟨fuel, rfl⟩ : ∃ n, fuel = n + 1 := ⟨fuel - 1, by omega⟩
    have htext := valueText?_of_spells hfront' hv (endsNumber_gap hback (.inl rfl) (more ++ rest))
    have hmember := memberTexts?_more fuel (stringBody?_append hname _) (skipSpace_gap_cons hgap rfl _) htext
      (skipSpace_gap_cons hback rfl _)
    obtain ⟨texts, htexts, hspells⟩ := memberTexts?_of_spells rest hmembers fuel (by omega)
    rw [← memberTexts?_gap hfront, htexts] at hmember
    exact ⟨_, by simpa using hmember, .cons ⟨rfl, _, _, hfront', rfl, hv⟩ hspells⟩

/-- The text spells an object with these members, between white space. -/
def SpellsObject (depth : Nat) (cs : List Char) (members : List (String × Json)) : Prop :=
  ∃ front inside back, Gap front ∧ Gap back ∧ SpellsMembers depth inside members ∧
    cs = front ++ '{' :: (inside ++ back)

/-- The first member begins with its name, behind white space. -/
theorem SpellsMembers.exists_gap {depth : Nat} {cs : List Char} {members : List (String × Json)}
    (h : SpellsMembers depth cs members) :
    ∃ gap r, Gap gap ∧ cs = gap ++ '"' :: r ∧ SpellsMembers depth ('"' :: r) members := by
  cases h with
  | last hfront hname hgap hfront' hv hback =>
    exact ⟨_, _, hfront, rfl, .last gap_nil hname hgap hfront' hv hback⟩
  | more hfront hname hgap hfront' hv hback hmembers =>
    exact ⟨_, _, hfront, rfl, .more gap_nil hname hgap hfront' hv hback hmembers⟩

/-- The outline of a text that spells an object has the texts of its members. -/
theorem outline?_of_spells {depth : Nat} {cs : List Char} {members : List (String × Json)}
    (h : SpellsObject depth cs members) :
    ∃ texts, outline? cs = some (.object texts) ∧ List.Forall₂ (SpellsMember depth) texts members := by
  obtain ⟨front, inside, back, hfront, hback, hinside, rfl⟩ := h
  obtain ⟨gap, r, hgap, rfl, hmembers⟩ := hinside.exists_gap
  have hopen : skipSpace (front ++ '{' :: (gap ++ '"' :: r ++ back)) = '{' :: (gap ++ '"' :: r ++ back) :=
    skipSpace_gap_cons hfront rfl _
  have hfirst : skipSpace (gap ++ '"' :: r ++ back) = '"' :: (r ++ back) := by
    rw [List.append_assoc]
    exact skipSpace_gap_cons hgap rfl _
  obtain ⟨texts, htexts, hspells⟩ := memberTexts?_of_spells back hmembers (('"' :: (r ++ back)).length + 1) (by simp; omega)
  have houtline : outlineAt? (front ++ '{' :: (gap ++ '"' :: r ++ back)) = some (.object texts, back) := by
    simp only [outlineAt?, hopen, hfirst]
    show (memberTexts? (('"' :: (r ++ back)).length + 1) ('"' :: r ++ back)).map _ = _
    rw [htexts]
    rfl
  refine ⟨texts, ?_, hspells⟩
  simp only [outline?, houtline, skipSpace_of_gap hback]
  rfl

/-! ## The fields of an object -/

section Fields

variable {depth : Nat} {texts : List (String × List Char)} {members : List (String × Json)}

theorem lookup_spellsMember (h : List.Forall₂ (SpellsMember depth) texts members) (name : String) :
    Option.Rel (SpellsBehindGap depth) (texts.lookup name) (members.lookup name) := by
  induction h with
  | nil => exact .none
  | @cons t m texts members hm _ ih =>
    obtain ⟨tname, text⟩ := t
    obtain ⟨mname, v⟩ := m
    obtain ⟨rfl, htext⟩ := hm
    simp only [List.lookup_cons]
    split
    · exact .some htext
    · exact ih

theorem count_spellsMember (h : List.Forall₂ (SpellsMember depth) texts members) (name : String) :
    (texts.filter (·.1 = name)).length = (members.filter (·.1 = name)).length := by
  induction h with
  | nil => rfl
  | cons hm _ ih =>
    simp only [List.filter_cons, hm.1]
    split
    · simp only [List.length_cons, ih]
    · exact ih

/-- The fields of an object are found by their names, if each name occurs at most once. -/
theorem fields?_object (h : List.Forall₂ (SpellsMember depth) texts members) {names : List String}
    (hnames : ∀ name ∈ names, (members.filter (·.1 = name)).length ≤ 1) :
    (Outline.object texts).fields? names = some (names.map fun name => texts.lookup name) := by
  rw [Outline.fields?, if_pos]
  refine List.all_eq_true.2 fun name hname => decide_eq_true ?_
  rw [count_spellsMember h]
  exact hnames name hname

end Fields

/-! ## Where the texts of an outline stand -/

/-- The texts of the members or items. -/
def Outline.texts : Outline → List (List Char)
  | .object members => members.map (·.2)
  | .array items => items

theorem valueText?_append {cs text r : List Char} (h : valueText? cs = some (text, r)) : cs = text ++ r := by
  obtain ⟨r', hskip, he⟩ := Option.map_eq_some_iff.1 h
  obtain ⟨rfl, rfl⟩ := Prod.mk.inj he
  obtain ⟨gap, text, -, rfl, -⟩ := skipValue?_inv hskip
  rw [← List.append_assoc, List.length_append, Nat.add_sub_cancel, List.take_left]

theorem memberTexts?_inside {fuel : Nat} {cs rest : List Char} {members : List (String × List Char)}
    (h : memberTexts? fuel cs = some (members, rest)) : ∀ m ∈ members, m.2 <:+: cs := by
  induction fuel generalizing cs members rest with
  | zero => cases h
  | succ fuel ih =>
    unfold memberTexts? at h
    split at h
    · rename_i hquote
      obtain ⟨front, -, rfl⟩ := exists_gap hquote
      split at h
      · cases h
      · rename_i hname
        obtain ⟨body, rfl, -⟩ := stringBody?_split hname
        split at h
        · rename_i hcolon
          obtain ⟨gap, -, rfl⟩ := exists_gap hcolon
          split at h
          · cases h
          · rename_i text r htext
            obtain rfl := valueText?_append htext
            have hfirst : text <:+: front ++ '"' :: (body ++ (gap ++ ':' :: (text ++ r))) :=
              ⟨front ++ '"' :: (body ++ (gap ++ [':'])), r, by simp⟩
            split at h
            · rename_i r' hcomma
              obtain ⟨⟨more, rest'⟩, hmore, he⟩ := Option.map_eq_some_iff.1 h
              obtain ⟨rfl, rfl⟩ := Prod.mk.inj he
              obtain ⟨back, -, rfl⟩ := exists_gap hcomma
              have hbehind : r' <:+: front ++ '"' :: (body ++ (gap ++ ':' :: (text ++ (back ++ ',' :: r')))) :=
                ⟨front ++ '"' :: (body ++ (gap ++ ':' :: (text ++ (back ++ [','])))), [], by simp⟩
              exact List.forall_mem_cons.2 ⟨hfirst, fun m hm => (ih hmore m hm).trans hbehind⟩
            · obtain ⟨rfl, rfl⟩ := Prod.mk.inj (Option.some.inj h)
              exact List.forall_mem_cons.2 ⟨hfirst, fun _ hm => absurd hm List.not_mem_nil⟩
            · cases h
        · cases h
    · cases h

theorem itemTexts?_inside {fuel : Nat} {cs rest : List Char} {items : List (List Char)}
    (h : itemTexts? fuel cs = some (items, rest)) : ∀ t ∈ items, t <:+: cs := by
  induction fuel generalizing cs items rest with
  | zero => cases h
  | succ fuel ih =>
    unfold itemTexts? at h
    split at h
    · cases h
    · rename_i text r htext
      obtain rfl := valueText?_append htext
      have hfirst : text <:+: text ++ r := (List.prefix_append text r).isInfix
      split at h
      · rename_i r' hcomma
        obtain ⟨⟨more, rest'⟩, hmore, he⟩ := Option.map_eq_some_iff.1 h
        obtain ⟨rfl, rfl⟩ := Prod.mk.inj he
        obtain ⟨back, -, rfl⟩ := exists_gap hcomma
        have hbehind : r' <:+: text ++ (back ++ ',' :: r') := ⟨text ++ (back ++ [',']), [], by simp⟩
        exact List.forall_mem_cons.2 ⟨hfirst, fun t ht => (ih hmore t ht).trans hbehind⟩
      · obtain ⟨rfl, rfl⟩ := Prod.mk.inj (Option.some.inj h)
        exact List.forall_mem_cons.2 ⟨hfirst, fun _ ht => absurd ht List.not_mem_nil⟩
      · cases h

theorem outlineAt?_inside {cs rest : List Char} {o : Outline} (h : outlineAt? cs = some (o, rest)) :
    ∀ t ∈ o.texts, t <:+: cs := by
  have hbehind : ∀ {c : Char} {r : List Char}, skipSpace cs = c :: r → skipSpace r <:+: cs := by
    intro c r hopen
    obtain ⟨front, -, rfl⟩ := exists_gap hopen
    have hr : skipSpace r <:+ r := List.dropWhile_suffix _
    exact (hr.trans ⟨front ++ [c], by simp⟩).isInfix
  unfold outlineAt? at h
  split at h
  · rename_i hopen
    split at h
    · obtain ⟨rfl, rfl⟩ := Prod.mk.inj (Option.some.inj h)
      exact fun _ ht => absurd ht List.not_mem_nil
    · obtain ⟨⟨members, rest'⟩, hmembers, he⟩ := Option.map_eq_some_iff.1 h
      obtain ⟨rfl, rfl⟩ := Prod.mk.inj he
      exact List.forall_mem_map.2 fun m hm => (memberTexts?_inside hmembers m hm).trans (hbehind hopen)
  · rename_i hopen
    split at h
    · obtain ⟨rfl, rfl⟩ := Prod.mk.inj (Option.some.inj h)
      exact fun _ ht => absurd ht List.not_mem_nil
    · obtain ⟨⟨items, rest'⟩, hitems, he⟩ := Option.map_eq_some_iff.1 h
      obtain ⟨rfl, rfl⟩ := Prod.mk.inj he
      exact fun t ht => (itemTexts?_inside hitems t ht).trans (hbehind hopen)
  · cases h

/-- The texts of an outline stand in the text whose outline it is. -/
theorem outline?_inside {cs : List Char} {o : Outline} (h : outline? cs = some o) : ∀ t ∈ o.texts, t <:+: cs := by
  unfold outline? at h
  split at h
  · rename_i o' rest hat
    split at h
    · obtain rfl : o' = o := Option.some.inj h
      exact outlineAt?_inside hat
    · cases h
  · cases h

/-- The fields of an outline are texts of it. -/
theorem Outline.mem_texts_of_fields? {o : Outline} {names : List String} {fields : List (Option (List Char))}
    (h : o.fields? names = some fields) {t : List Char} (ht : some t ∈ fields) : t ∈ o.texts := by
  unfold Outline.fields? at h
  split at h
  · split at h
    · obtain rfl := Option.some.inj h
      obtain ⟨name, -, hlookup⟩ := List.mem_map.1 ht
      obtain ⟨front, back, hmembers, -⟩ := List.lookup_eq_some_iff.1 hlookup
      exact List.mem_map.2 ⟨(name, t), by simp [hmembers], rfl⟩
    · cases h
  · split at h
    · obtain rfl := Option.some.inj h
      simpa [Outline.texts] using ht
    · cases h

end Conformance.Json
