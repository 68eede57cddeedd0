import Conformance.Json.Printer
import Conformance.Proofs.Json.Proper
import Conformance.Proofs.Json.Reading

/-!
# What is written spells its value

The compact form of a proper value spells the value (`Proper.spells_compact`), and so does its indented form
(`Proper.spells_indented`), both within the depth of the value. Strings are written so that they are read back
(`stringBody?_flatMap_escaped`), and the members of an object, which are written in the order of their names, stay as they
are (`ofMembers_eq`). What has been read is therefore written so that it is read as the same value
(`Spells.read?_indented`).
-/
namespace Conformance.Json

/-! ## Strings -/

theorem hex4?_control {n : Nat} (h : n < 0x20) (r : List Char) :
    hex4? ('0' :: '0' :: hexDigit (n / 16) :: hexDigit (n % 16) :: r) = some (n, r) := by
  have hall : ∀ n : Fin 0x20,
      Text.natIn? 16 ['0', '0', hexDigit (n.val / 16), hexDigit (n.val % 16)] = some n.val := by decide
  have hn := hall ⟨n, h⟩
  simp only [hex4?]
  rw [hn]
  rfl

/-- A character is read from what writes it. -/
theorem stringBody?_escaped (c : Char) (cs : List Char) :
    stringBody? (escaped c ++ cs) = (stringBody? cs).map fun r => (c :: r.1, r.2) := by
  have hescape : ∀ {text : List Char}, escape? (text ++ cs) = some (c, cs) →
      stringBody? ('\\' :: (text ++ cs)) = (stringBody? cs).map fun r => (c :: r.1, r.2) := by
    intro text h
    rw [stringBody?]
    split
    · rename_i hnone
      rw [h] at hnone
      cases hnone
    · rename_i hsome
      rw [h] at hsome
      obtain ⟨rfl, rfl⟩ := Prod.mk.inj (Option.some.inj hsome)
      rfl
  -- the characters with an escape of their own, then the other controls, then all that is written plainly
  unfold escaped
  split
  · rename_i hc
    exact hescape (show escape? (['"'] ++ cs) = _ by rw [hc]; rfl)
  split
  · rename_i hc
    exact hescape (show escape? (['\\'] ++ cs) = _ by rw [hc]; rfl)
  split
  · rename_i hc
    exact hescape (show escape? (['b'] ++ cs) = _ by rw [hc]; rfl)
  split
  · rename_i hc
    exact hescape (show escape? (['t'] ++ cs) = _ by rw [hc]; rfl)
  split
  · rename_i hc
    exact hescape (show escape? (['n'] ++ cs) = _ by rw [hc]; rfl)
  split
  · rename_i hc
    exact hescape (show escape? (['f'] ++ cs) = _ by rw [hc]; rfl)
  split
  · rename_i hc
    exact hescape (show escape? (['r'] ++ cs) = _ by rw [hc]; rfl)
  rename_i hquote hback _ _ _ _ _
  split
  · rename_i hcontrol
    refine hescape (show escape? (['u', '0', '0', hexDigit (c.toNat / 16), hexDigit (c.toNat % 16)] ++ cs) = _ from ?_)
    -- a control lies below the surrogates, so that no second escape is waited for
    have hlow : isLowSurrogate c.toNat = false := by
      simp only [isLowSurrogate, Bool.and_eq_false_imp, decide_eq_true_eq, decide_eq_false_iff_not]
      omega
    have hhigh : isHighSurrogate c.toNat = false := by
      simp only [isHighSurrogate, Bool.and_eq_false_imp, decide_eq_true_eq, decide_eq_false_iff_not]
      omega
    simp only [List.cons_append, List.nil_append, escape?, hex4?_control hcontrol, hlow, hhigh, Char.ofNat_toNat,
      Bool.false_eq_true, if_false]
  · rename_i hcontrol
    rw [List.singleton_append, stringBody?, if_neg hcontrol]
    · exact hquote
    · exact hback

/-- A string is read from what writes it. -/
theorem stringBody?_flatMap_escaped (s : List Char) : stringBody? (s.flatMap escaped ++ ['"']) = some (s, []) := by
  induction s with
  | nil => simp [stringBody?]
  | cons c s ih =>
    rw [List.flatMap_cons, List.append_assoc, stringBody?_escaped, ih]
    rfl

theorem toList_quoted (s : String) : (quoted s).toList = '"' :: (s.toList.flatMap escaped ++ ['"']) := by
  rw [quoted, String.toList_ofList, List.cons_append]

/-! ## The compact form -/

section Compact

variable {depth : Nat}

theorem spellsItems_compact {items : List Json} (hne : items ≠ []) (h : ∀ v ∈ items, Spells depth v.compact.toList v) :
    SpellsItems depth ((compactItems items).toList ++ [']']) items := by
  induction items with
  | nil => exact absurd rfl hne
  | cons v r ih =>
    obtain ⟨hv, hr⟩ := List.forall_mem_cons.1 h
    cases r with
    | nil => exact .last gap_nil hv gap_nil
    | cons w r =>
      have hitems := SpellsItems.more gap_nil hv gap_nil (ih (List.cons_ne_nil w r) hr)
      simpa [compactItems] using hitems

theorem spellsMembers_compact {members : List (String × Json)} (hne : members ≠ [])
    (h : ∀ m ∈ members, Spells depth m.2.compact.toList m.2) :
    SpellsMembers depth ((compactMembers members).toList ++ ['}']) members := by
  induction members with
  | nil => exact absurd rfl hne
  | cons m r ih =>
    obtain ⟨name, v⟩ := m
    obtain ⟨hv, hr⟩ := List.forall_mem_cons.1 h
    have hname := stringBody?_flatMap_escaped name.toList
    cases r with
    | nil =>
      have hmember := SpellsMembers.last gap_nil hname gap_nil gap_nil hv gap_nil
      rw [String.ofList_toList] at hmember
      simpa [compactMembers, toList_quoted] using hmember
    | cons m r =>
      have hmember := SpellsMembers.more gap_nil hname gap_nil gap_nil hv gap_nil (ih (List.cons_ne_nil m r) hr)
      rw [String.ofList_toList] at hmember
      simpa [compactMembers, toList_quoted] using hmember

end Compact

theorem spells_quoted (depth : Nat) (s : String) : Spells depth (quoted s).toList (.str s) := by
  have hs := Spells.string depth (stringBody?_flatMap_escaped s.toList)
  rw [String.ofList_toList] at hs
  rw [toList_quoted]
  exact hs

/-- The compact form of a proper value spells it. -/
theorem Proper.spells_compact {depth : Nat} {v : Json} (h : Proper depth v) : Spells depth v.compact.toList v := by
  induction h with
  | null depth => simpa [compact] using Spells.null depth
  | bool depth b =>
    cases b with
    | true => simpa [compact] using Spells.yes depth
    | false => simpa [compact] using Spells.no depth
  | number depth n =>
    rw [compact, String.toList_ofList]
    exact .number depth n
  | str depth s =>
    rw [compact]
    exact spells_quoted depth s
  | @arr depth items _ ih =>
    cases items with
    | nil => simpa [compact, compactItems] using Spells.emptyArray depth gap_nil
    | cons v r =>
      have hitems := Spells.array (spellsItems_compact (List.cons_ne_nil v r) ih)
      simpa [compact] using hitems
  | @obj depth members hordered _ ih =>
    cases members with
    | nil => simpa [compact, compactMembers] using Spells.emptyObject depth gap_nil
    | cons m r =>
      have hmembers := Spells.object (spellsMembers_compact (List.cons_ne_nil m r) ih)
      rw [ofMembers_eq hordered] at hmembers
      simpa [compact] using hmembers

/-! ## The indented form -/

theorem gap_indentation (depth : Nat) : Gap (indentation depth).toList := by
  rw [indentation, String.toList_ofList]
  intro c hc
  rw [(List.mem_replicate.1 hc).2]
  rfl

theorem gap_newline : Gap ['\n'] := by
  intro c hc
  rw [List.mem_singleton.1 hc]
  rfl

theorem gap_space : Gap [' '] := by
  intro c hc
  rw [List.mem_singleton.1 hc]
  rfl

section Indented

variable {depth : Nat}

theorem spellsItems_indented {items : List Json} (hne : items ≠ [])
    (h : ∀ v ∈ items, ∀ level, Spells depth (v.indentedAt level).toList v) (level : Nat) {back : List Char}
    (hback : Gap back) :
    SpellsItems depth ((indentedItems level items).toList ++ (back ++ [']'])) items := by
  induction items with
  | nil => exact absurd rfl hne
  | cons v r ih =>
    obtain ⟨hv, hr⟩ := List.forall_mem_cons.1 h
    cases r with
    | nil =>
      simp only [indentedItems, String.toList_append, List.append_assoc]
      exact .last (gap_indentation level) (hv level) hback
    | cons w r =>
      have hrest := (ih (List.cons_ne_nil w r) hr).behind_gap gap_newline
      simp only [indentedItems, String.toList_append, List.append_assoc]
      exact .more (gap_indentation level) (hv level) gap_nil hrest

theorem spellsMembers_indented {members : List (String × Json)} (hne : members ≠ [])
    (h : ∀ m ∈ members, ∀ level, Spells depth (m.2.indentedAt level).toList m.2) (level : Nat) {back : List Char}
    (hback : Gap back) :
    SpellsMembers depth ((indentedMembers level members).toList ++ (back ++ ['}'])) members := by
  induction members with
  | nil => exact absurd rfl hne
  | cons m r ih =>
    obtain ⟨name, v⟩ := m
    obtain ⟨hv, hr⟩ := List.forall_mem_cons.1 h
    have hname := stringBody?_flatMap_escaped name.toList
    cases r with
    | nil =>
      have hmember := SpellsMembers.last (gap_indentation level) hname gap_nil gap_space (hv level) hback
      rw [String.ofList_toList] at hmember
      simpa [indentedMembers, toList_quoted] using hmember
    | cons m r =>
      have hrest := (ih (List.cons_ne_nil m r) hr).behind_gap gap_newline
      have hmember := SpellsMembers.more (gap_indentation level) hname gap_nil gap_space (hv level) gap_nil hrest
      rw [String.ofList_toList] at hmember
      simpa [indentedMembers, toList_quoted] using hmember

end Indented

/-- Wherever the indented form of a proper value stands, it spells the value. -/
theorem Proper.spells_indentedAt {depth : Nat} {v : Json} (h : Proper depth v) :
    ∀ level, Spells depth (v.indentedAt level).toList v := by
  induction h with
  | null depth =>
    intro level
    simpa [indentedAt] using Spells.null depth
  | bool depth b =>
    intro level
    cases b with
    | true => simpa [indentedAt] using Spells.yes depth
    | false => simpa [indentedAt] using Spells.no depth
  | number depth n =>
    intro level
    rw [indentedAt, String.toList_ofList]
    exact .number depth n
  | str depth s =>
    intro level
    rw [indentedAt]
    exact spells_quoted depth s
  | @arr depth items _ ih =>
    intro level
    cases items with
    | nil => simpa [indentedAt] using Spells.emptyArray depth gap_nil
    | cons v r =>
      have hitems := spellsItems_indented (List.cons_ne_nil v r) ih (level + 1)
        (gap_newline.append (gap_indentation level))
      simpa [indentedAt] using Spells.array (hitems.behind_gap gap_newline)
  | @obj depth members hordered _ ih =>
    intro level
    cases members with
    | nil => simpa [indentedAt] using Spells.emptyObject depth gap_nil
    | cons m r =>
      have hmembers := spellsMembers_indented (List.cons_ne_nil m r) ih (level + 1)
        (gap_newline.append (gap_indentation level))
      -- members that are in order are kept as they stand
      have hobject := Spells.object (hmembers.behind_gap gap_newline)
      rw [ofMembers_eq hordered] at hobject
      simpa [indentedAt] using hobject

theorem Proper.spells_indented {depth : Nat} {v : Json} (h : Proper depth v) : Spells depth v.indented.toList v :=
  h.spells_indentedAt 0

/-- The indented form of what is spelled spells it with its numbers as they are kept. -/
theorem Spells.indented {depth : Nat} {cs : List Char} {v : Json} (h : Spells depth cs v) :
    Spells depth v.kept.indented.toList v.kept :=
  h.proper.kept.spells_indented

/-- The indented form of what is spelled is read as the same value. -/
theorem Spells.read?_indented {cs : List Char} {v : Json} (h : Spells maxDepth cs v) :
    read? v.kept.indented = some v.kept := by
  have hread := readWithin?_of_spells gap_nil h.indented gap_nil
  rw [kept_kept, List.nil_append, List.append_nil] at hread
  exact hread

/-- The value is one that a text is read as, with at most `depth` arrays and objects around a value in it. -/
def Readable (depth : Nat) (v : Json) : Prop := ∃ cs, readWithin? depth cs = some v

section Readable

variable {depth : Nat} {v : Json}

theorem Proper.readWithin?_compact (h : Proper depth v) : readWithin? depth v.compact.toList = some v.kept := by
  have hread := readWithin?_of_spells gap_nil h.spells_compact gap_nil
  rw [List.nil_append, List.append_nil] at hread
  exact hread

/-- What can be read are the proper values with their numbers in the form in which they are kept. -/
theorem readable_iff : Readable depth v ↔ Proper depth v ∧ v.kept = v := by
  constructor
  · rintro ⟨cs, h⟩
    obtain ⟨front, text, back, raw, -, -, -, htext, rfl⟩ := readWithin?_inv h
    exact ⟨htext.proper.kept, kept_kept raw⟩
  · rintro ⟨hproper, hkept⟩
    exact ⟨_, hkept ▸ hproper.readWithin?_compact⟩

theorem Readable.spells_compact (h : Readable depth v) : Spells depth v.compact.toList v :=
  (readable_iff.1 h).1.spells_compact

/-- What can be read is read back from its compact form. -/
theorem Readable.readWithin?_compact (h : Readable depth v) : readWithin? depth v.compact.toList = some v := by
  obtain ⟨hproper, hkept⟩ := readable_iff.1 h
  rw [hproper.readWithin?_compact, hkept]

/-- What can be read is read back from its indented form. -/
theorem Readable.read?_indented (h : Readable maxDepth v) : read? v.indented = some v := by
  obtain ⟨hproper, hkept⟩ := readable_iff.1 h
  have hread := readWithin?_of_spells gap_nil hproper.spells_indented gap_nil
  rw [hkept, List.nil_append, List.append_nil] at hread
  exact hread

/-- A proper value can be read if the same numbers can be read elsewhere. -/
theorem Readable.of_numbers_eq {w : Json} (h : Readable depth v) (hw : Proper depth w) (hnumbers : w.numbers = v.numbers) :
    Readable depth w := by
  refine readable_iff.2 ⟨hw, kept_eq_self w fun n hn => ?_⟩
  have hkept : v.numbers.map keptNumber = v.numbers := by rw [← numbers_kept, (readable_iff.1 h).2]
  exact List.map_inj_left.1 (hkept.trans (List.map_id _).symm) n (hnumbers ▸ hn)

/-- An array whose items can be read can be read with one more around them. -/
theorem readable_arr {items : List Json} (h : ∀ v ∈ items, Readable depth v) : Readable (depth + 1) (.arr items) := by
  refine readable_iff.2 ⟨.arr fun v hv => (readable_iff.1 (h v hv)).1, ?_⟩
  rw [kept, keptItems_eq_map, List.map_congr_left fun v hv => (readable_iff.1 (h v hv)).2, List.map_id']

/-- An object whose members can be read can be read with one more around them. -/
theorem readable_ofMembers {members : List (String × Json)} (h : ∀ m ∈ members, Readable depth m.2) :
    Readable (depth + 1) (ofMembers members) := by
  refine readable_iff.2 ⟨.ofMembers fun m hm => (readable_iff.1 (h m hm)).1, ?_⟩
  have hkept : ∀ m ∈ members, (m.1, m.2.kept) = m := fun m hm => by rw [(readable_iff.1 (h m hm)).2]
  rw [ofMembers_kept, keptMembers_eq_map, List.map_congr_left hkept, List.map_id']

theorem readable_null (depth : Nat) : Readable depth .null := readable_iff.2 ⟨.null depth, rfl⟩

theorem readable_str (depth : Nat) (s : String) : Readable depth (.str s) := readable_iff.2 ⟨.str depth s, rfl⟩

/-- What can be read can be read with more around it. -/
theorem Readable.mono {depth' : Nat} (h : Readable depth v) (hle : depth ≤ depth') : Readable depth' v := by
  obtain ⟨hproper, hkept⟩ := readable_iff.1 h
  refine readable_iff.2 ⟨?_, hkept⟩
  induction hle with
  | refl => exact hproper
  | step _ ih => exact ih.deeper

end Readable

/-! ## The numbers in a text -/

/-- The members that count hold no other numbers than the members of the text. -/
theorem numbers_ofMembers {members : List (String × Json)} {n : String} (h : n ∈ (ofMembers members).numbers) :
    ∃ m ∈ members, n ∈ m.2.numbers := by
  obtain ⟨counted, hcounted, -, hmem⟩ := exists_ofMembers members
  rw [hcounted] at h
  clear hcounted
  change n ∈ numbersOfMembers counted at h
  induction counted with
  | nil => exact absurd h List.not_mem_nil
  | cons m r ih =>
    obtain ⟨hm, hr⟩ := List.forall_mem_cons.1 hmem
    rcases List.mem_append.1 h with h | h
    · exact ⟨m, hm, h⟩
    · exact ih hr h

/-- The text is that of a number, and stands in the other text. -/
def NumberIn (cs : List Char) (n : String) : Prop := ∃ m : Numeral, n = String.ofList m.text ∧ m.text <:+: cs

theorem NumberIn.within {inner cs : List Char} {n : String} (h : NumberIn inner n) (hinner : inner <:+: cs) :
    NumberIn cs n := by
  obtain ⟨m, hn, hm⟩ := h
  exact ⟨m, hn, hm.trans hinner⟩

theorem infix_item (front cs back rest : List Char) : rest <:+: front ++ (cs ++ (back ++ ',' :: rest)) :=
  ⟨front ++ (cs ++ (back ++ [','])), [], by simp⟩

theorem infix_member (front name gap front' cs r : List Char) :
    cs <:+: front ++ '"' :: (name ++ (gap ++ ':' :: (front' ++ (cs ++ r)))) :=
  ⟨front ++ '"' :: (name ++ (gap ++ ':' :: front')), r, by simp⟩

theorem infix_members (front name gap front' cs back rest : List Char) :
    rest <:+: front ++ '"' :: (name ++ (gap ++ ':' :: (front' ++ (cs ++ (back ++ ',' :: rest))))) :=
  ⟨front ++ '"' :: (name ++ (gap ++ ':' :: (front' ++ (cs ++ (back ++ [',']))))), [], by simp⟩

mutual

/-- The numbers of a value stand in the text that spells it. -/
theorem Spells.numberIn {depth : Nat} {cs : List Char} {v : Json} : Spells depth cs v → ∀ n ∈ v.numbers, NumberIn cs n
  | .null _, _, h => absurd h List.not_mem_nil
  | .yes _, _, h => absurd h List.not_mem_nil
  | .no _, _, h => absurd h List.not_mem_nil
  | .number _ m, _, h => ⟨m, List.mem_singleton.1 h, List.infix_rfl⟩
  | .string _ _, _, h => absurd h List.not_mem_nil
  | .emptyArray _ _, _, h => absurd h List.not_mem_nil
  | .array hitems, n, h => (hitems.numberIn n h).within (List.suffix_cons _ _).isInfix
  | .emptyObject _ _, _, h => absurd h List.not_mem_nil
  | .object hmembers, n, h => by
    obtain ⟨m, hm, hn⟩ := numbers_ofMembers h
    exact (hmembers.numberIn m hm n hn).within (List.suffix_cons _ _).isInfix

theorem SpellsItems.numberIn {depth : Nat} {cs : List Char} {items : List Json} :
    SpellsItems depth cs items → ∀ n ∈ numbersOfItems items, NumberIn cs n
  | .last _ hv _, n, h => by
    rw [numbersOfItems, numbersOfItems, List.append_nil] at h
    exact (hv.numberIn n h).within (List.infix_append' _ _ _)
  | .more _ hv _ hitems, n, h => by
    rcases List.mem_append.1 h with h | h
    · exact (hv.numberIn n h).within (List.infix_append' _ _ _)
    · exact (hitems.numberIn n h).within (infix_item _ _ _ _)

theorem SpellsMembers.numberIn {depth : Nat} {cs : List Char} {members : List (String × Json)} :
    SpellsMembers depth cs members → ∀ m ∈ members, ∀ n ∈ m.2.numbers, NumberIn cs n
  | .last _ _ _ _ hv _ =>
    List.forall_mem_cons.2 ⟨fun n h => (hv.numberIn n h).within (infix_member _ _ _ _ _ _),
      fun _ hm => absurd hm List.not_mem_nil⟩
  | .more _ _ _ _ hv _ hmembers =>
    List.forall_mem_cons.2 ⟨fun n h => (hv.numberIn n h).within (infix_member _ _ _ _ _ _),
      fun m hm n h => (hmembers.numberIn m hm n h).within (infix_members _ _ _ _ _ _ _)⟩

end

end Conformance.Json
