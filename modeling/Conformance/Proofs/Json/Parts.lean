import Conformance.Proofs.Json.Proper

/-!
# The parts of a value

A part of a value is reached by a path of member names and item numbers. What stands there besides further parts is its
`face`: a scalar as it is, the length of an array, the names of the members of an object. A proper value is determined
by the faces of its parts (`Proper.eq_of_faceAt?`), so that values with the same faces but for some paths differ in
nothing else (`SameBut`).
-/
namespace Conformance.Json

/-- A step from a value to one of its parts. -/
inductive Step where
  | member (name : String)
  | item (index : Nat)
  deriving DecidableEq, Repr

/-- The part of the value at the end of the path. -/
def at? : List Step → Json → Option Json
  | [], v => some v
  | .member name :: path, v => (v.member? name).bind (at? path)
  | .item index :: path, .arr items => items[index]?.bind (at? path)
  | .item _ :: _, _ => none

/-- What there is to a value besides its parts. -/
inductive Face where
  | null
  | bool (b : Bool)
  | number (text : String)
  | str (s : String)
  | arr (size : Nat)
  | obj (names : List String)
  deriving DecidableEq, Repr

/-- The face of a value. -/
def face : Json → Face
  | .null => .null
  | .bool b => .bool b
  | .number text => .number text
  | .str s => .str s
  | .arr items => .arr items.length
  | .obj members => .obj (members.map (·.1))

/-- The face of the part at the end of the path. -/
def faceAt? (path : List Step) (v : Json) : Option Face := (at? path v).map face

variable {name other : String} {v w : Json} {members : List (String × Json)} {items : List Json} {path : List Step}

@[simp] theorem at?_member_obj : at? (.member name :: path) (.obj members) = (members.lookup name).bind (at? path) := rfl

@[simp] theorem at?_item_arr {index : Nat} : at? (.item index :: path) (.arr items) = items[index]?.bind (at? path) :=
  rfl

theorem faceAt?_member : faceAt? (.member name :: path) (.obj members) =
    (members.lookup name).bind (faceAt? path) := by
  rw [faceAt?, at?_member_obj]
  cases members.lookup name <;> rfl

theorem faceAt?_item {index : Nat} : faceAt? (.item index :: path) (.arr items) =
    items[index]?.bind (faceAt? path) := by
  rw [faceAt?, at?_item_arr]
  cases items[index]? <;> rfl

theorem faceAt?_eq_str_iff {s : String} : faceAt? path v = some (.str s) ↔ at? path v = some (.str s) := by
  rw [faceAt?, Option.map_eq_some_iff]
  constructor
  · intro h
    obtain ⟨part, hpart, hface⟩ := h
    cases part <;> simp [face] at hface
    rw [hpart, hface]
  · intro h
    exact ⟨.str s, h, rfl⟩

/-- Nothing is below a string. -/
theorem faceAt?_str_of_ne_nil (hne : path ≠ []) (s : String) : faceAt? path (.str s) = none := by
  cases path with
  | nil => exact absurd rfl hne
  | cons step rest => cases step <;> rfl

/-! ## Members that are set -/

theorem lookup_insertMember_self (name : String) (v : Json) (members : List (String × Json)) :
    (insertMember name v members).lookup name = some v := by
  induction members with
  | nil => simp [insertMember]
  | cons m r ih =>
    obtain ⟨k, w⟩ := m
    rw [insertMember]
    split
    · simp
    · rename_i hne
      split
      · simp
      · rw [List.lookup_cons, beq_false_of_ne hne]
        exact ih

theorem lookup_insertMember_of_ne (hne : other ≠ name) (v : Json) (members : List (String × Json)) :
    (insertMember name v members).lookup other = members.lookup other := by
  induction members with
  | nil => simp [insertMember, hne]
  | cons m r ih =>
    obtain ⟨k, w⟩ := m
    rw [insertMember]
    split
    · rename_i heq
      rw [List.lookup_cons, List.lookup_cons, ← heq, beq_false_of_ne hne]
    · split
      · rw [List.lookup_cons, beq_false_of_ne hne]
      · rw [List.lookup_cons, List.lookup_cons, ih]

/-- A member that is there already is set in its place. -/
theorem exists_insertMember_eq (hordered : Ordered members) (hthere : members.lookup name = some w) :
    ∃ front back, members = front ++ (name, w) :: back ∧ ∀ v, insertMember name v members = front ++ (name, v) :: back := by
  induction members with
  | nil => cases hthere
  | cons m r ih =>
    obtain ⟨k, u⟩ := m
    obtain ⟨hfirst, hr⟩ := List.pairwise_cons.1 hordered
    rw [List.lookup_cons] at hthere
    by_cases heq : name = k
    · subst heq
      rw [beq_self_eq_true] at hthere
      obtain rfl := Option.some.inj hthere
      exact ⟨[], r, rfl, fun v => by rw [insertMember, if_pos rfl, List.nil_append]⟩
    · rw [beq_false_of_ne heq] at hthere
      obtain ⟨front, back, rfl, hset⟩ := ih hr hthere
      -- the member stands behind, where the names are later ones
      have hlater : ¬ name < k := String.lt_asymm (hfirst (name, w) (by simp))
      refine ⟨(k, u) :: front, back, rfl, fun v => ?_⟩
      rw [insertMember, if_neg heq, if_neg hlater, hset, List.cons_append]

theorem names_insertMember (hordered : Ordered members) (hthere : members.lookup name = some w) (v : Json) :
    (insertMember name v members).map (·.1) = members.map (·.1) := by
  obtain ⟨front, back, rfl, hset⟩ := exists_insertMember_eq hordered hthere
  rw [hset, List.map_append, List.map_append, List.map_cons, List.map_cons]

/-- An object whose member is replaced by a value with the same numbers keeps its numbers. -/
theorem numbers_insertMember (hordered : Ordered members) (hthere : members.lookup name = some w)
    (hnumbers : v.numbers = w.numbers) : (Json.obj (insertMember name v members)).numbers = (Json.obj members).numbers := by
  obtain ⟨front, back, rfl, hset⟩ := exists_insertMember_eq hordered hthere
  show numbersOfMembers (insertMember name v _) = numbersOfMembers _
  rw [hset, numbersOfMembers_append, numbersOfMembers_append, numbersOfMembers, numbersOfMembers, hnumbers]

theorem numbers_map {f : Json → Json} (h : ∀ v ∈ items, (f v).numbers = v.numbers) :
    (Json.arr (items.map f)).numbers = (Json.arr items).numbers := by
  show numbersOfItems (items.map f) = numbersOfItems items
  induction items with
  | nil => rfl
  | cons v r ih =>
    obtain ⟨hv, hr⟩ := List.forall_mem_cons.1 h
    rw [List.map_cons, numbersOfItems, numbersOfItems, hv, ih hr]

/-! ## Values that differ at some paths only -/

/-- All faces of the values are the same, but for those at the paths. -/
def SameBut (paths : List Step → Prop) (v w : Json) : Prop := ∀ path, ¬ paths path → faceAt? path w = faceAt? path v

theorem SameBut.refl (paths : List Step → Prop) (v : Json) : SameBut paths v v := fun _ _ => rfl

theorem SameBut.mono {paths paths' : List Step → Prop} (h : SameBut paths v w) (hle : ∀ path, paths path → paths' path) :
    SameBut paths' v w := fun path hpath => h path fun hin => hpath (hle path hin)

/-- An object whose member is replaced differs where the member does. -/
theorem SameBut.member {paths : List Step → Prop} (h : SameBut paths v w) (hordered : Ordered members)
    (hthere : members.lookup name = some v) :
    SameBut (fun path => ∃ rest, path = .member name :: rest ∧ paths rest) (.obj members)
      (.obj (insertMember name w members)) := by
  intro path hpath
  cases path with
  | nil => exact congrArg (fun names => some (Face.obj names)) (names_insertMember hordered hthere w)
  | cons step rest =>
    cases step with
    | item index => rfl
    | member other =>
      rw [faceAt?_member, faceAt?_member]
      by_cases hother : other = name
      · subst hother
        rw [lookup_insertMember_self, hthere, Option.bind_some, Option.bind_some]
        exact h rest fun hrest => hpath ⟨rest, rfl, hrest⟩
      · rw [lookup_insertMember_of_ne hother]

/-- An array differs where its items do. -/
theorem SameBut.map_items {paths : Json → List Step → Prop} {f : Json → Json} (h : ∀ v ∈ items, SameBut (paths v) v (f v)) :
    SameBut (fun path => ∃ index v rest, path = .item index :: rest ∧ items[index]? = some v ∧ paths v rest)
      (.arr items) (.arr (items.map f)) := by
  intro path hpath
  cases path with
  | nil => exact congrArg (fun size => some (Face.arr size)) (List.length_map f)
  | cons step rest =>
    cases step with
    | member name => rfl
    | item index =>
      rw [faceAt?_item, faceAt?_item, List.getElem?_map]
      cases hitem : items[index]? with
      | none => rfl
      | some v => exact h v (List.mem_of_getElem? hitem) rest fun hrest => hpath ⟨index, v, rest, rfl, hitem, hrest⟩

/-! ## Values by their faces -/

theorem lookup_eq_of_mem (hordered : Ordered members) {m : String × Json} (hm : m ∈ members) :
    members.lookup m.1 = some m.2 := by
  induction members with
  | nil => cases hm
  | cons m' r ih =>
    obtain ⟨hfirst, hr⟩ := List.pairwise_cons.1 hordered
    rw [List.lookup_cons]
    rcases List.mem_cons.1 hm with rfl | hm
    · simp
    · have hne : m.1 ≠ m'.1 := fun heq => String.lt_irrefl m'.1 (heq ▸ hfirst m hm)
      rw [beq_false_of_ne hne]
      exact ih hr hm

/-- Proper values with the same faces at all paths are equal. -/
theorem Proper.eq_of_faceAt? {depth depth' : Nat} (hv : Proper depth v) (hw : Proper depth' w)
    (h : ∀ path, faceAt? path w = faceAt? path v) : w = v := by
  induction hv generalizing depth' w with
  | null =>
    have hface : w.face = .null := Option.some.inj (h [])
    cases w <;> simp [face] at hface
    rfl
  | bool _ b =>
    have hface : w.face = .bool b := Option.some.inj (h [])
    cases w <;> simp [face] at hface
    rw [hface]
  | number _ n =>
    have hface : w.face = .number (String.ofList n.text) := Option.some.inj (h [])
    cases w <;> simp [face] at hface
    rw [hface]
  | str _ s =>
    have hface : w.face = .str s := Option.some.inj (h [])
    cases w <;> simp [face] at hface
    rw [hface]
  | @arr depth items hitems ih =>
    have hface : w.face = .arr items.length := Option.some.inj (h [])
    -- the faces give the length, and the paths below each item the items
    cases hw with
    | @arr _ items' hitems' =>
      have hsize : items'.length = items.length := by injection hface
      refine congrArg Json.arr (List.ext_getElem hsize fun i hi' hi => ?_)
      refine ih items[i] (List.getElem_mem hi) (hitems' items'[i] (List.getElem_mem hi')) fun path => ?_
      have hpath := h (.item i :: path)
      rw [faceAt?_item, faceAt?_item, List.getElem?_eq_getElem hi, List.getElem?_eq_getElem hi'] at hpath
      exact hpath
    | _ => cases hface
  | @obj depth members hordered hmembers ih =>
    have hface : w.face = .obj (members.map (·.1)) := Option.some.inj (h [])
    -- the faces give the names in their order, so that members at the same place have the same name
    cases hw with
    | @obj _ members' hordered' hmembers' =>
      have hnames : members'.map (·.1) = members.map (·.1) := by injection hface
      have hsize : members'.length = members.length := by simpa using congrArg List.length hnames
      refine congrArg Json.obj (List.ext_getElem hsize fun i hi' hi => ?_)
      have hname : members'[i].1 = members[i].1 := by
        have hat := List.getElem_of_eq hnames (by rwa [List.length_map])
        rwa [List.getElem_map, List.getElem_map] at hat
      refine Prod.ext hname (ih members[i] (List.getElem_mem hi) (hmembers' _ (List.getElem_mem hi')) fun path => ?_)
      have hpath := h (.member members[i].1 :: path)
      rw [faceAt?_member, faceAt?_member, lookup_eq_of_mem hordered (List.getElem_mem hi), ← hname,
        lookup_eq_of_mem hordered' (List.getElem_mem hi')] at hpath
      exact hpath
    | _ => cases hface

end Conformance.Json
