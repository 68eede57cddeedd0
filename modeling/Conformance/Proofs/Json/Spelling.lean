import Conformance.Proofs.Json.Numeral

/-!
# What a JSON text spells

`Spells depth cs v` relates a text to the value that it spells, with every number of the value exactly as it stands in
the text: white space may stand between tokens, strings may be written with any escapes, and of two members of one name
the later counts. The reader takes the texts that spell a value (`value?_of_spells`) and no others (`value?_inv`). It
gives the value that is spelled with its numbers in the form in which they are kept, `Json.kept`.
-/
namespace Conformance.Json

/-- White space between the tokens of a text. -/
def Gap (cs : List Char) : Prop := ∀ c ∈ cs, isSpace c = true

mutual

/-- The text, from the first character of the value to its last one, spells the value, with at most `depth` arrays and
objects around a value in it. -/
inductive Spells : Nat → List Char → Json → Prop
  | null (depth : Nat) : Spells depth ['n', 'u', 'l', 'l'] .null
  | yes (depth : Nat) : Spells depth ['t', 'r', 'u', 'e'] (.bool true)
  | no (depth : Nat) : Spells depth ['f', 'a', 'l', 's', 'e'] (.bool false)
  | number (depth : Nat) (n : Numeral) : Spells depth n.text (.number (String.ofList n.text))
  | string (depth : Nat) {cs s : List Char} (h : stringBody? cs = some (s, [])) :
      Spells depth ('"' :: cs) (.str (String.ofList s))
  | emptyArray (depth : Nat) {gap : List Char} (h : Gap gap) : Spells (depth + 1) ('[' :: (gap ++ [']'])) (.arr [])
  | array {depth : Nat} {cs : List Char} {items : List Json} (h : SpellsItems depth cs items) :
      Spells (depth + 1) ('[' :: cs) (.arr items)
  | emptyObject (depth : Nat) {gap : List Char} (h : Gap gap) : Spells (depth + 1) ('{' :: (gap ++ ['}'])) (.obj [])
  | object {depth : Nat} {cs : List Char} {members : List (String × Json)} (h : SpellsMembers depth cs members) :
      Spells (depth + 1) ('{' :: cs) (ofMembers members)

/-- The text up to the closing bracket spells the items of an array. -/
inductive SpellsItems : Nat → List Char → List Json → Prop
  | last {depth : Nat} {front cs back : List Char} {v : Json} (hfront : Gap front) (h : Spells depth cs v)
      (hback : Gap back) : SpellsItems depth (front ++ (cs ++ (back ++ [']']))) [v]
  | more {depth : Nat} {front cs back rest : List Char} {v : Json} {items : List Json} (hfront : Gap front)
      (h : Spells depth cs v) (hback : Gap back) (hrest : SpellsItems depth rest items) :
      SpellsItems depth (front ++ (cs ++ (back ++ ',' :: rest))) (v :: items)

/-- The text up to the closing brace spells the members of an object, in the order of the text. -/
inductive SpellsMembers : Nat → List Char → List (String × Json) → Prop
  | last {depth : Nat} {front name gap cs back s : List Char} {v : Json} (hfront : Gap front)
      (hname : stringBody? name = some (s, [])) (hgap : Gap gap) {front' : List Char} (hfront' : Gap front')
      (h : Spells depth cs v) (hback : Gap back) :
      SpellsMembers depth (front ++ '"' :: (name ++ (gap ++ ':' :: (front' ++ (cs ++ (back ++ ['}']))))))
        [(String.ofList s, v)]
  | more {depth : Nat} {front name gap cs back s rest : List Char} {v : Json} {members : List (String × Json)}
      (hfront : Gap front) (hname : stringBody? name = some (s, [])) (hgap : Gap gap) {front' : List Char}
      (hfront' : Gap front') (h : Spells depth cs v) (hback : Gap back) (hrest : SpellsMembers depth rest members) :
      SpellsMembers depth (front ++ '"' :: (name ++ (gap ++ ':' :: (front' ++ (cs ++ (back ++ ',' :: rest))))))
        ((String.ofList s, v) :: members)

end

/-! ## White space in front, and more depth -/

theorem Gap.append {a b : List Char} (ha : Gap a) (hb : Gap b) : Gap (a ++ b) :=
  fun c hc => (List.mem_append.1 hc).elim (ha c) (hb c)

theorem gap_nil : Gap [] := fun _ h => absurd h List.not_mem_nil

theorem SpellsItems.behind_gap {depth : Nat} {gap cs : List Char} {items : List Json} (hgap : Gap gap)
    (h : SpellsItems depth cs items) : SpellsItems depth (gap ++ cs) items := by
  cases h with
  | last hfront hv hback =>
    rw [← List.append_assoc]
    exact .last (hgap.append hfront) hv hback
  | more hfront hv hback hitems =>
    rw [← List.append_assoc]
    exact .more (hgap.append hfront) hv hback hitems

theorem SpellsMembers.behind_gap {depth : Nat} {gap cs : List Char} {members : List (String × Json)} (hgap : Gap gap)
    (h : SpellsMembers depth cs members) : SpellsMembers depth (gap ++ cs) members := by
  cases h with
  | last hfront hname hgap' hfront' hv hback =>
    rw [← List.append_assoc]
    exact .last (hgap.append hfront) hname hgap' hfront' hv hback
  | more hfront hname hgap' hfront' hv hback hmembers =>
    rw [← List.append_assoc]
    exact .more (hgap.append hfront) hname hgap' hfront' hv hback hmembers

mutual

theorem Spells.deeper {depth : Nat} {cs : List Char} {v : Json} : Spells depth cs v → Spells (depth + 1) cs v
  | .null _ => .null _
  | .yes _ => .yes _
  | .no _ => .no _
  | .number _ n => .number _ n
  | .string _ h => .string _ h
  | .emptyArray _ h => .emptyArray _ h
  | .array h => .array h.deeper
  | .emptyObject _ h => .emptyObject _ h
  | .object h => .object h.deeper

theorem SpellsItems.deeper {depth : Nat} {cs : List Char} {items : List Json} :
    SpellsItems depth cs items → SpellsItems (depth + 1) cs items
  | .last hfront h hback => .last hfront h.deeper hback
  | .more hfront h hback hrest => .more hfront h.deeper hback hrest.deeper

theorem SpellsMembers.deeper {depth : Nat} {cs : List Char} {members : List (String × Json)} :
    SpellsMembers depth cs members → SpellsMembers (depth + 1) cs members
  | .last hfront hname hgap hfront' h hback => .last hfront hname hgap hfront' h.deeper hback
  | .more hfront hname hgap hfront' h hback hrest => .more hfront hname hgap hfront' h.deeper hback hrest.deeper

end

/-! ## Values with their numbers as they are kept -/

/-- The text of a number in the form in which it is kept. -/
def keptNumber (text : String) : String := ((number? text.toList).map fun r => String.ofList r.1).getD text

mutual

/-- The value with its numbers in the form in which they are kept. -/
def kept : Json → Json
  | .number text => .number (keptNumber text)
  | .arr items => .arr (keptItems items)
  | .obj members => .obj (keptMembers members)
  | .null => .null
  | .bool b => .bool b
  | .str s => .str s

/-- The items with their numbers in the form in which they are kept. -/
def keptItems : List Json → List Json
  | [] => []
  | v :: r => v.kept :: keptItems r

/-- The members with their numbers in the form in which they are kept. -/
def keptMembers : List (String × Json) → List (String × Json)
  | [] => []
  | (name, v) :: r => (name, v.kept) :: keptMembers r

end

mutual

/-- The numbers in a value, in its order. -/
def numbers : Json → List String
  | .number text => [text]
  | .arr items => numbersOfItems items
  | .obj members => numbersOfMembers members
  | .null => []
  | .bool _ => []
  | .str _ => []

/-- The numbers in items. -/
def numbersOfItems : List Json → List String
  | [] => []
  | v :: r => v.numbers ++ numbersOfItems r

/-- The numbers in members. -/
def numbersOfMembers : List (String × Json) → List String
  | [] => []
  | (_, v) :: r => v.numbers ++ numbersOfMembers r

end

theorem keptNumber_text (n : Numeral) : keptNumber (String.ofList n.text) = String.ofList n.kept.text := by
  have hend : EndsNumber [] := fun _ h => by cases h
  have h := number?_text n hend
  rw [List.append_nil] at h
  rw [keptNumber, String.toList_ofList, h]
  rfl

/-- A number is kept as it is if it is already in the form in which it is kept, or is no number. -/
theorem keptNumber_keptNumber (text : String) : keptNumber (keptNumber text) = keptNumber text := by
  cases h : number? text.toList with
  | none =>
    have hkept : keptNumber text = text := by rw [keptNumber, h]; rfl
    rw [hkept, hkept]
  | some r =>
    obtain ⟨n, -, hr⟩ := number?_inv (show number? text.toList = some (r.1, r.2) from h)
    have hkept : keptNumber text = String.ofList n.kept.text := by rw [keptNumber, h, ← hr]; rfl
    rw [hkept, keptNumber_text, Numeral.kept_kept]

mutual

theorem kept_kept : (v : Json) → v.kept.kept = v.kept
  | .number text => congrArg Json.number (keptNumber_keptNumber text)
  | .arr items => congrArg Json.arr (keptItems_keptItems items)
  | .obj members => congrArg Json.obj (keptMembers_keptMembers members)
  | .null => rfl
  | .bool _ => rfl
  | .str _ => rfl

theorem keptItems_keptItems : (items : List Json) → keptItems (keptItems items) = keptItems items
  | [] => rfl
  | v :: r => by
    rw [keptItems, keptItems, kept_kept v, keptItems_keptItems r]

theorem keptMembers_keptMembers : (members : List (String × Json)) →
    keptMembers (keptMembers members) = keptMembers members
  | [] => rfl
  | (_, v) :: r => by
    rw [keptMembers, keptMembers, kept_kept v, keptMembers_keptMembers r]

end

theorem insertMember_kept (name : String) (v : Json) (members : List (String × Json)) :
    keptMembers (insertMember name v members) = insertMember name v.kept (keptMembers members) := by
  induction members with
  | nil => rfl
  | cons m r ih =>
    obtain ⟨k, w⟩ := m
    rw [insertMember, keptMembers, insertMember]
    split
    · rfl
    · split
      · rfl
      · rw [keptMembers, ih]

/-- Which member of a name counts, and their order, has nothing to do with numbers. -/
theorem ofMembers_kept (members : List (String × Json)) :
    (ofMembers members).kept = ofMembers (keptMembers members) := by
  suffices h : ∀ acc, keptMembers (members.foldl (fun acc m => insertMember m.1 m.2 acc) acc) =
      (keptMembers members).foldl (fun acc m => insertMember m.1 m.2 acc) (keptMembers acc) from
    congrArg Json.obj (h [])
  intro acc
  induction members generalizing acc with
  | nil => rfl
  | cons m r ih =>
    obtain ⟨k, w⟩ := m
    rw [List.foldl_cons, ih, insertMember_kept]
    rfl

mutual

/-- Each number of a value is brought into its form, and stays in its place. -/
theorem numbers_kept : (v : Json) → v.kept.numbers = v.numbers.map keptNumber
  | .number text => rfl
  | .arr items => by
    rw [kept, numbers, numbers]
    exact numbersOfItems_kept items
  | .obj members => by
    rw [kept, numbers, numbers]
    exact numbersOfMembers_kept members
  | .null => rfl
  | .bool _ => rfl
  | .str _ => rfl

theorem numbersOfItems_kept : (items : List Json) → numbersOfItems (keptItems items) = (numbersOfItems items).map keptNumber
  | [] => rfl
  | v :: r => by
    rw [keptItems, numbersOfItems, numbersOfItems, numbers_kept v, numbersOfItems_kept r, List.map_append]

theorem numbersOfMembers_kept : (members : List (String × Json)) →
    numbersOfMembers (keptMembers members) = (numbersOfMembers members).map keptNumber
  | [] => rfl
  | (_, v) :: r => by
    rw [keptMembers, numbersOfMembers, numbersOfMembers, numbers_kept v, numbersOfMembers_kept r, List.map_append]

end

mutual

/-- A value whose numbers are all in their form is kept as it is. -/
theorem kept_eq_self : (v : Json) → (∀ n ∈ v.numbers, keptNumber n = n) → v.kept = v
  | .number text, h => congrArg Json.number (h text (List.mem_singleton_self text))
  | .arr items, h => congrArg Json.arr (keptItems_eq_self items h)
  | .obj members, h => congrArg Json.obj (keptMembers_eq_self members h)
  | .null, _ => rfl
  | .bool _, _ => rfl
  | .str _, _ => rfl

theorem keptItems_eq_self : (items : List Json) → (∀ n ∈ numbersOfItems items, keptNumber n = n) →
    keptItems items = items
  | [], _ => rfl
  | v :: r, h => by
    obtain ⟨hv, hr⟩ := List.forall_mem_append.1 h
    rw [keptItems, kept_eq_self v hv, keptItems_eq_self r hr]

theorem keptMembers_eq_self : (members : List (String × Json)) → (∀ n ∈ numbersOfMembers members, keptNumber n = n) →
    keptMembers members = members
  | [], _ => rfl
  | (_, v) :: r, h => by
    obtain ⟨hv, hr⟩ := List.forall_mem_append.1 h
    rw [keptMembers, kept_eq_self v hv, keptMembers_eq_self r hr]

end

theorem numbersOfMembers_append (members members' : List (String × Json)) :
    numbersOfMembers (members ++ members') = numbersOfMembers members ++ numbersOfMembers members' := by
  induction members with
  | nil => rfl
  | cons m r ih => rw [List.cons_append, numbersOfMembers, numbersOfMembers, ih, List.append_assoc]

end Conformance.Json
