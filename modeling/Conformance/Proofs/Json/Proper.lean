import Conformance.Proofs.Json.Spelling

/-!
# Proper values

A proper value is one that a text can spell: its numbers are written as numbers are, the members of its objects stand in
the order of their names, each name once, and it is nested no deeper than the bound. Every value that a text spells is
proper (`Spells.proper`), and so is the value with its numbers as they are kept (`Proper.kept`).
-/
namespace Conformance.Json

/-! ## Members in the order of their names -/

/-- Each member stands before those with later names. -/
abbrev Ordered (members : List (String × Json)) : Prop := members.Pairwise fun a b => a.1 < b.1

theorem mem_insertMember {name : String} {v : Json} {members : List (String × Json)} {m : String × Json}
    (h : m ∈ insertMember name v members) : m = (name, v) ∨ m ∈ members := by
  induction members with
  | nil => exact .inl (List.mem_singleton.1 h)
  | cons m' r ih =>
    obtain ⟨k, w⟩ := m'
    rw [insertMember] at h
    split at h
    · rcases List.mem_cons.1 h with rfl | h
      · exact .inl rfl
      · exact .inr (List.mem_cons_of_mem _ h)
    · split at h
      · exact (List.mem_cons.1 h).imp id id
      · rcases List.mem_cons.1 h with rfl | h
        · exact .inr List.mem_cons_self
        · exact (ih h).imp id (List.mem_cons_of_mem _)

theorem ordered_insertMember {name : String} {v : Json} {members : List (String × Json)} (h : Ordered members) :
    Ordered (insertMember name v members) := by
  induction members with
  | nil => exact List.pairwise_singleton _ _
  | cons m r ih =>
    obtain ⟨k, w⟩ := m
    obtain ⟨hfirst, hr⟩ := List.pairwise_cons.1 h
    rw [insertMember]
    split
    · rename_i heq
      exact List.pairwise_cons.2 ⟨fun m hm => heq ▸ hfirst m hm, hr⟩
    · split
      · rename_i hlt
        refine List.pairwise_cons.2 ⟨fun m hm => ?_, h⟩
        rcases List.mem_cons.1 hm with rfl | hm
        · exact hlt
        · exact String.lt_trans hlt (hfirst m hm)
      · rename_i hne hlt
        refine List.pairwise_cons.2 ⟨fun m hm => ?_, ih hr⟩
        rcases mem_insertMember hm with rfl | hm
        · exact Std.lt_of_le_of_ne (String.not_lt.1 hlt) (Ne.symm hne)
        · exact hfirst m hm

/-- A member whose name comes last is put last. -/
theorem insertMember_last {name : String} {v : Json} {members : List (String × Json)}
    (h : ∀ m ∈ members, m.1 < name) : insertMember name v members = members ++ [(name, v)] := by
  induction members with
  | nil => rfl
  | cons m r ih =>
    obtain ⟨k, w⟩ := m
    obtain ⟨hm, hr⟩ := List.forall_mem_cons.1 h
    have hne : name ≠ k := fun heq => String.lt_irrefl name (heq ▸ hm)
    rw [insertMember, if_neg hne, if_neg (String.lt_asymm hm), ih hr]
    rfl

/-- The members that count, in the order of their names. -/
theorem exists_ofMembers (members : List (String × Json)) :
    ∃ counted, ofMembers members = .obj counted ∧ Ordered counted ∧ ∀ m ∈ counted, m ∈ members := by
  refine ⟨_, rfl, ?_⟩
  suffices h : ∀ acc, Ordered acc →
      Ordered (members.foldl (fun acc m => insertMember m.1 m.2 acc) acc) ∧
        ∀ m ∈ members.foldl (fun acc m => insertMember m.1 m.2 acc) acc, m ∈ acc ∨ m ∈ members by
    obtain ⟨hordered, hmem⟩ := h [] List.Pairwise.nil
    exact ⟨hordered, fun m hm => (hmem m hm).resolve_left List.not_mem_nil⟩
  induction members with
  | nil => exact fun acc hacc => ⟨hacc, fun m hm => .inl hm⟩
  | cons m r ih =>
    intro acc hacc
    obtain ⟨hordered, hmem⟩ := ih _ (ordered_insertMember hacc)
    refine ⟨hordered, fun m' hm' => ?_⟩
    rcases hmem m' hm' with hm' | hm'
    · rcases mem_insertMember hm' with rfl | hm'
      · exact .inr List.mem_cons_self
      · exact .inl hm'
    · exact .inr (List.mem_cons_of_mem _ hm')

/-- Members that stand in the order of their names stay as they are. -/
theorem ofMembers_eq {members : List (String × Json)} (h : Ordered members) : ofMembers members = .obj members := by
  suffices hfold : ∀ acc, Ordered (acc ++ members) →
      members.foldl (fun acc m => insertMember m.1 m.2 acc) acc = acc ++ members from congrArg Json.obj (hfold [] h)
  clear h
  induction members with
  | nil => exact fun acc _ => (List.append_nil acc).symm
  | cons m r ih =>
    intro acc hacc
    have hlast : ∀ m' ∈ acc, m'.1 < m.1 := fun m' hm' => (List.pairwise_append.1 hacc).2.2 m' hm' m List.mem_cons_self
    rw [List.append_cons] at hacc
    rw [List.foldl_cons, insertMember_last hlast, ih _ hacc, List.append_assoc]
    rfl

/-! ## Proper values -/

/-- The value can be spelled, with at most `depth` arrays and objects around a value in it. -/
inductive Proper : Nat → Json → Prop
  | null (depth : Nat) : Proper depth .null
  | bool (depth : Nat) (b : Bool) : Proper depth (.bool b)
  | number (depth : Nat) (n : Numeral) : Proper depth (.number (String.ofList n.text))
  | str (depth : Nat) (s : String) : Proper depth (.str s)
  | arr {depth : Nat} {items : List Json} (h : ∀ v ∈ items, Proper depth v) : Proper (depth + 1) (.arr items)
  | obj {depth : Nat} {members : List (String × Json)} (hordered : Ordered members)
      (h : ∀ m ∈ members, Proper depth m.2) : Proper (depth + 1) (.obj members)

theorem Proper.ofMembers {depth : Nat} {members : List (String × Json)} (h : ∀ m ∈ members, Proper depth m.2) :
    Proper (depth + 1) (ofMembers members) := by
  obtain ⟨counted, hcounted, hordered, hmem⟩ := exists_ofMembers members
  rw [hcounted]
  exact .obj hordered fun m hm => h m (hmem m hm)

/-- A value that fits fits with more depth as well. -/
theorem Proper.deeper {depth : Nat} {v : Json} (h : Proper depth v) : Proper (depth + 1) v := by
  induction h with
  | null => exact .null _
  | bool _ b => exact .bool _ b
  | number _ n => exact .number _ n
  | str _ s => exact .str _ s
  | arr _ ih => exact .arr ih
  | obj hordered _ ih => exact .obj hordered ih

mutual

/-- A value that is spelled is proper. -/
theorem Spells.proper {depth : Nat} {cs : List Char} {v : Json} : Spells depth cs v → Proper depth v
  | .null _ => .null _
  | .yes _ => .bool _ true
  | .no _ => .bool _ false
  | .number _ n => .number _ n
  | .string _ _ => .str _ _
  | .emptyArray _ _ => .arr fun _ h => absurd h List.not_mem_nil
  | .array h => .arr h.proper
  | .emptyObject _ _ => .obj List.Pairwise.nil fun _ h => absurd h List.not_mem_nil
  | .object h => .ofMembers h.proper

theorem SpellsItems.proper {depth : Nat} {cs : List Char} {items : List Json} :
    SpellsItems depth cs items → ∀ v ∈ items, Proper depth v
  | .last _ h _ => List.forall_mem_cons.2 ⟨h.proper, fun _ h => absurd h List.not_mem_nil⟩
  | .more _ h _ hrest => List.forall_mem_cons.2 ⟨h.proper, hrest.proper⟩

theorem SpellsMembers.proper {depth : Nat} {cs : List Char} {members : List (String × Json)} :
    SpellsMembers depth cs members → ∀ m ∈ members, Proper depth m.2
  | .last _ _ _ _ h _ => List.forall_mem_cons.2 ⟨h.proper, fun _ h => absurd h List.not_mem_nil⟩
  | .more _ _ _ _ h _ hrest => List.forall_mem_cons.2 ⟨h.proper, hrest.proper⟩

end

/-! ## Proper values with their numbers as they are kept -/

theorem keptItems_eq_map (items : List Json) : keptItems items = items.map kept := by
  induction items with
  | nil => rfl
  | cons v r ih => rw [keptItems, ih, List.map_cons]

theorem keptMembers_eq_map (members : List (String × Json)) :
    keptMembers members = members.map fun m => (m.1, m.2.kept) := by
  induction members with
  | nil => rfl
  | cons m r ih => rw [keptMembers, ih, List.map_cons]

theorem Proper.kept {depth : Nat} {v : Json} (h : Proper depth v) : Proper depth v.kept := by
  induction h with
  | null => exact .null _
  | bool _ b => exact .bool _ b
  | number _ n =>
    rw [Json.kept, keptNumber_text]
    exact .number _ n.kept
  | str _ s => exact .str _ s
  | arr _ ih =>
    rw [Json.kept, keptItems_eq_map]
    exact .arr (List.forall_mem_map.2 ih)
  | obj hordered _ ih =>
    rw [Json.kept, keptMembers_eq_map]
    exact .obj (List.pairwise_map.2 hordered) (List.forall_mem_map.2 ih)

end Conformance.Json
