import Conformance.Proofs.Files.Removal
import Conformance.Proofs.Json.Parts
import Conformance.Proofs.Json.Printing
import Conformance.Service.Genesis

/-!
# Owner keys of a genesis

The owner keys of the delegates of a genesis are moved to a new prefix, each in the place of the first known prefix that
it begins with (`Moved`). Nothing else of the genesis changes: the value that it comes to is the only one with the keys
moved and everything else as it was (`rewritten_iff`). If the prefixes tell keys apart (`Separate`), neither their order
nor a second pass changes what comes of it, and the file that is written is read as that value
(`rewritePrefixes_moves_owners`).
-/
namespace Conformance.Service

open Files Json Text

/-- The key begins with the text. -/
abbrev BeginsWith (key text : String) : Prop := text.toList <+: key.toList

/-- How an owner key is moved to the new prefix: in the place of the first known prefix that it begins with, or not at
all if there is none. -/
inductive Moved (newPrefix : String) (known : List String) : String → String → Prop
  | first {front back : List String} {k rest : String} (hknown : known = front ++ k :: back)
      (hfront : ∀ k' ∈ front, ¬ BeginsWith (k ++ rest) k') : Moved newPrefix known (k ++ rest) (newPrefix ++ rest)
  | none {owner : String} (h : ∀ k ∈ known, ¬ BeginsWith owner k) : Moved newPrefix known owner owner

/-- The place of the owner key of a delegate. -/
def ownerPath (i : Nat) : List Step := [.member "delegates", .item i, .member "owner"]

/-- The value has the owner keys of the genesis moved, and is the genesis everywhere else. -/
structure Rewritten (newPrefix : String) (known : List String) (genesis w : Json) : Prop where
  moved : ∀ i owner, at? (ownerPath i) genesis = some (.str owner) →
    ∃ owner', at? (ownerPath i) w = some (.str owner') ∧ Moved newPrefix known owner owner'
  same : SameBut (fun path => ∃ i owner, path = ownerPath i ∧ at? path genesis = some (.str owner)) genesis w

/-- The owner keys of the delegates. -/
def owners (genesis : Json) : List String :=
  match genesis.member? "delegates" with
  | some (.arr delegates) => delegates.filterMap fun delegate => (delegate.member? "owner").bind str?
  | _ => []

/-- No two of the known prefixes begin with one another, and none but the new prefix itself begins with it or begins
it. -/
structure Separate (newPrefix : String) (known : List String) : Prop where
  apart : ∀ k ∈ known, ∀ k' ∈ known, BeginsWith k' k → k = k'
  new : ∀ k ∈ known, BeginsWith k newPrefix ∨ BeginsWith newPrefix k → k = newPrefix

variable {newPrefix owner owner' : String} {known known' : List String} {depth : Nat} {genesis w : Json}

/-! ## The key of an owner -/

theorem dropPrefix?_toList_eq_some_iff {k : String} {rest : List Char} :
    dropPrefix? k.toList owner.toList = some rest ↔ owner = k ++ String.ofList rest := by
  rw [dropPrefix?_eq_some_iff, ← String.toList_inj, String.toList_append, String.toList_ofList]

theorem dropPrefix?_toList_eq_none_iff {k : String} :
    dropPrefix? k.toList owner.toList = none ↔ ¬ BeginsWith owner k := by
  rw [Option.eq_none_iff_forall_ne_some]
  constructor
  · intro h hbegins
    obtain ⟨rest, hrest⟩ := hbegins
    exact h rest (dropPrefix?_eq_some_iff.2 hrest.symm)
  · intro h rest hrest
    exact h ⟨rest, (dropPrefix?_eq_some_iff.1 hrest).symm⟩

theorem rewriteOwner?_eq_none_iff : rewriteOwner? newPrefix known owner = none ↔ ∀ k ∈ known, ¬ BeginsWith owner k := by
  rw [rewriteOwner?, List.findSome?_eq_none_iff]
  simp only [Option.map_eq_none_iff, dropPrefix?_toList_eq_none_iff]

theorem isSome_rewriteOwner? (newPrefix : String) (known : List String) (owner : String) :
    (rewriteOwner? newPrefix known owner).isSome = decide (∃ k ∈ known, BeginsWith owner k) := by
  cases hrewrite : rewriteOwner? newPrefix known owner with
  | none =>
    have hnone := rewriteOwner?_eq_none_iff.1 hrewrite
    exact (decide_eq_false fun hany => hany.elim fun k hk => hnone k hk.1 hk.2).symm
  | some owner' =>
    refine (decide_eq_true (Decidable.byContradiction fun hno => ?_)).symm
    rw [rewriteOwner?_eq_none_iff.2 fun k hk hbegins => hno ⟨k, hk, hbegins⟩] at hrewrite
    cases hrewrite

/-- A key comes to what it is moved to. -/
theorem moved_iff : Moved newPrefix known owner owner' ↔
    (rewriteOwner? newPrefix known owner).getD owner = owner' := by
  constructor
  · intro h
    cases h with
    | none h => rw [rewriteOwner?_eq_none_iff.2 h, Option.getD_none]
    | @first front back k rest hknown hfront =>
      have hrest : dropPrefix? k.toList (k ++ rest).toList = some rest.toList :=
        dropPrefix?_toList_eq_some_iff.2 (by rw [String.ofList_toList])
      have hsome : rewriteOwner? newPrefix known (k ++ rest) = some (newPrefix ++ rest) := by
        refine List.findSome?_eq_some_iff.2 ⟨front, k, back, hknown, ?_, fun k' hk' => ?_⟩
        · rw [hrest, Option.map_some, String.ofList_toList]
        · rw [dropPrefix?_toList_eq_none_iff.2 (hfront k' hk'), Option.map_none]
      rw [hsome, Option.getD_some]
  · intro h
    subst h
    cases hrewrite : rewriteOwner? newPrefix known owner with
    | none => exact .none (rewriteOwner?_eq_none_iff.1 hrewrite)
    | some owner' =>
      obtain ⟨front, k, back, hknown, hk, hfront⟩ := List.findSome?_eq_some_iff.1 hrewrite
      obtain ⟨rest, hrest, rfl⟩ := Option.map_eq_some_iff.1 hk
      obtain rfl := dropPrefix?_toList_eq_some_iff.1 hrest
      refine .first hknown fun k' hk' => ?_
      exact dropPrefix?_toList_eq_none_iff.1 (Option.map_eq_none_iff.1 (hfront k' hk'))

/-- Texts that a key begins with begin with one another. -/
theorem BeginsWith.or {k k' : String} (h : BeginsWith owner k) (h' : BeginsWith owner k') :
    BeginsWith k' k ∨ BeginsWith k k' := List.prefix_or_prefix_of_prefix h h'

/-- If no two of the known prefixes begin with one another, at most one of them counts for a key. -/
theorem Separate.eq {k k' : String} (hseparate : Separate newPrefix known) (hk : k ∈ known) (hk' : k' ∈ known)
    (h : BeginsWith owner k) (h' : BeginsWith owner k') : k = k' := by
  rcases h.or h' with hle | hle
  · exact hseparate.apart k hk k' hk' hle
  · exact (hseparate.apart k' hk' k hk hle).symm

/-- What a key comes to is decided by any known prefix that it begins with. -/
theorem Separate.moved_append (hseparate : Separate newPrefix known) (hmem : ∀ k ∈ known', k ∈ known) {k : String}
    (hk : k ∈ known') (rest : String) : Moved newPrefix known' (k ++ rest) (newPrefix ++ rest) := by
  have hbegins : BeginsWith (k ++ rest) k := ⟨rest.toList, String.toList_append.symm⟩
  refine moved_iff.2 ?_
  cases hrewrite : rewriteOwner? newPrefix known' (k ++ rest) with
  | none => exact absurd hbegins (rewriteOwner?_eq_none_iff.1 hrewrite k hk)
  | some owner' =>
    obtain ⟨front, k', back, hknown, hk', -⟩ := List.findSome?_eq_some_iff.1 hrewrite
    obtain ⟨rest', hrest', rfl⟩ := Option.map_eq_some_iff.1 hk'
    have happend := dropPrefix?_toList_eq_some_iff.1 hrest'
    have hmem' : k' ∈ known' := by simp [hknown]
    -- the prefix that is found first is the only one that the key begins with
    have hsame : k' = k := hseparate.eq (hmem k' hmem') (hmem k hk)
      ⟨rest', (dropPrefix?_eq_some_iff.1 hrest').symm⟩ hbegins
    subst hsame
    rw [Option.getD_some, (String.append_right_inj k').1 happend]

/-- Which of the known prefixes comes first makes no difference. -/
theorem Separate.moved_of_moved (hseparate : Separate newPrefix known) (hmem : ∀ k, k ∈ known' ↔ k ∈ known)
    (h : Moved newPrefix known owner owner') : Moved newPrefix known' owner owner' := by
  cases h with
  | none h => exact .none fun k hk => h k ((hmem k).1 hk)
  | @first front back k rest hknown hfront =>
    have hk : k ∈ known := by simp [hknown]
    exact hseparate.moved_append (fun k hk => (hmem k).1 hk) ((hmem k).2 hk) rest

/-- A key that has been moved stays. -/
theorem Separate.moved_again (hseparate : Separate newPrefix known) (h : Moved newPrefix known owner owner') :
    Moved newPrefix known owner' owner' := by
  cases h with
  | none h => exact .none h
  | @first front back k rest hknown hfront =>
    by_cases hany : ∃ k' ∈ known, BeginsWith (newPrefix ++ rest) k'
    · -- only the new prefix itself can be found again, and is put in its own place
      obtain ⟨k', hk', hbegins⟩ := hany
      have hnew : BeginsWith (newPrefix ++ rest) newPrefix := ⟨rest.toList, String.toList_append.symm⟩
      have hsame : k' = newPrefix := hseparate.new k' hk' (hnew.or hbegins)
      exact hseparate.moved_append (fun k hk => hk) (hsame ▸ hk') rest
    · exact .none fun k' hk' hbegins => hany ⟨k', hk', hbegins⟩

/-! ## The key in its place -/

theorem at?_owner_eq_some_iff {delegate v : Json} : at? [.member "owner"] delegate = some v ↔
    ∃ members, delegate = .obj members ∧ members.lookup "owner" = some v := by
  cases delegate <;> simp [at?, member?]

theorem owner?_eq_some_iff {delegate : Json} : (delegate.member? "owner").bind str? = some owner ↔
    at? [.member "owner"] delegate = some (.str owner) := by
  rw [Option.bind_eq_some_iff, at?_owner_eq_some_iff]
  constructor
  · intro h
    obtain ⟨v, hv, hstr⟩ := h
    cases delegate with
    | obj members =>
      cases v <;> simp [str?] at hstr
      exact ⟨members, rfl, hstr ▸ hv⟩
    | _ => cases hv
  · intro h
    obtain ⟨members, rfl, hthere⟩ := h
    exact ⟨.str owner, hthere, rfl⟩

theorem at?_ownerPath_eq_some_iff {i : Nat} {v : Json} : at? (ownerPath i) genesis = some v ↔
    ∃ members delegates delegate, genesis = .obj members ∧ members.lookup "delegates" = some (.arr delegates) ∧
      delegates[i]? = some delegate ∧ at? [.member "owner"] delegate = some v := by
  constructor
  · intro h
    cases genesis with
    | obj members =>
      rw [ownerPath, at?_member_obj] at h
      obtain ⟨part, hthere, h⟩ := Option.bind_eq_some_iff.1 h
      cases part with
      | arr delegates =>
        obtain ⟨delegate, hitem, h⟩ := Option.bind_eq_some_iff.1 h
        exact ⟨members, delegates, delegate, rfl, hthere, hitem, h⟩
      | _ => cases h
    | _ => cases h
  · intro h
    obtain ⟨members, delegates, delegate, rfl, hthere, hitem, h⟩ := h
    rw [ownerPath, at?_member_obj, hthere, Option.bind_some, at?_item_arr, hitem, Option.bind_some, h]

/-- A delegate is left as it is, or its owner key is set. -/
theorem rewriteDelegate_cases (newPrefix : String) (known : List String) (delegate : Json) :
    (rewriteDelegate newPrefix known delegate = (delegate, false) ∧
      ∀ owner, at? [.member "owner"] delegate = some (.str owner) → rewriteOwner? newPrefix known owner = none) ∨
    ∃ members owner owner', delegate = .obj members ∧ members.lookup "owner" = some (.str owner) ∧
      rewriteOwner? newPrefix known owner = some owner' ∧
      rewriteDelegate newPrefix known delegate = (.obj (insertMember "owner" (.str owner') members), true) := by
  have hleft : ∀ owner, at? [.member "owner"] delegate = some (.str owner) →
      ∃ members, delegate = .obj members ∧ members.lookup "owner" = some (.str owner) :=
    fun owner h => at?_owner_eq_some_iff.1 h
  unfold rewriteDelegate
  split
  · rename_i members
    split
    · rename_i owner howner
      cases hrewrite : rewriteOwner? newPrefix known owner with
      | some owner' => exact .inr ⟨members, owner, owner', rfl, howner, hrewrite, rfl⟩
      | none =>
        refine .inl ⟨rfl, fun owner' h => ?_⟩
        obtain ⟨members', hmembers, howner'⟩ := hleft owner' h
        obtain rfl := Json.obj.inj hmembers
        rw [howner] at howner'
        obtain rfl := Json.str.inj (Option.some.inj howner')
        exact hrewrite
    · rename_i hno
      refine .inl ⟨rfl, fun owner h => ?_⟩
      obtain ⟨members', hmembers, howner⟩ := hleft owner h
      obtain rfl := Json.obj.inj hmembers
      exact absurd howner (hno owner)
  · rename_i hno
    refine .inl ⟨rfl, fun owner h => ?_⟩
    obtain ⟨members, hmembers, -⟩ := hleft owner h
    exact absurd hmembers (hno members)

section Delegate

variable {delegate : Json}

theorem proper_rewriteDelegate (h : Proper depth delegate) :
    Proper depth (rewriteDelegate newPrefix known delegate).1 := by
  rcases rewriteDelegate_cases newPrefix known delegate with ⟨hsame, -⟩ | ⟨members, owner, owner', rfl, -, -, hset⟩
  · rw [hsame]
    exact h
  · rw [hset]
    cases h with
    | obj hordered hmembers =>
      refine .obj (ordered_insertMember hordered) fun m hm => ?_
      rcases mem_insertMember hm with rfl | hm
      · exact .str _ owner'
      · exact hmembers m hm

theorem numbers_rewriteDelegate (h : Proper depth delegate) :
    (rewriteDelegate newPrefix known delegate).1.numbers = delegate.numbers := by
  rcases rewriteDelegate_cases newPrefix known delegate with ⟨hsame, -⟩ | ⟨members, owner, owner', rfl, hthere, -, hset⟩
  · rw [hsame]
  · rw [hset]
    cases h with
    | obj hordered hmembers => exact numbers_insertMember hordered hthere rfl

/-- A delegate changes at its owner key only. -/
theorem sameBut_rewriteDelegate (newPrefix : String) (known : List String) (h : Proper depth delegate) :
    SameBut (fun path => path = [.member "owner"] ∧ ∃ owner, at? path delegate = some (.str owner)) delegate
      (rewriteDelegate newPrefix known delegate).1 := by
  rcases rewriteDelegate_cases newPrefix known delegate with ⟨hsame, -⟩ | ⟨members, owner, owner', rfl, hthere, -, hset⟩
  · rw [hsame]
    exact .refl _ delegate
  · rw [hset]
    cases h with
    | obj hordered hmembers =>
      have hkey : SameBut (fun path => path = []) (.str owner) (.str owner') := by
        intro path hpath
        rw [faceAt?_str_of_ne_nil hpath, faceAt?_str_of_ne_nil hpath]
      refine (hkey.member hordered hthere).mono fun path hpath => ?_
      obtain ⟨rest, rfl, rfl⟩ := hpath
      exact ⟨rfl, owner, at?_owner_eq_some_iff.2 ⟨members, rfl, hthere⟩⟩

/-- The owner key of a delegate comes to what it is moved to. -/
theorem at?_rewriteDelegate (h : at? [.member "owner"] delegate = some (.str owner)) :
    at? [.member "owner"] (rewriteDelegate newPrefix known delegate).1 =
      some (.str ((rewriteOwner? newPrefix known owner).getD owner)) := by
  rcases rewriteDelegate_cases newPrefix known delegate with ⟨hsame, hnone⟩ | ⟨members, k, owner', rfl, hthere, hk, hset⟩
  · rw [hsame, hnone owner h, h, Option.getD_none]
  · obtain ⟨members', hmembers, howner⟩ := at?_owner_eq_some_iff.1 h
    obtain rfl := Json.obj.inj hmembers
    rw [hthere] at howner
    obtain rfl := Json.str.inj (Option.some.inj howner)
    rw [hset, hk, at?_member_obj, lookup_insertMember_self]
    rfl

/-- The delegates that count are those whose owner key begins with a known prefix. -/
theorem rewriteDelegate_snd : (rewriteDelegate newPrefix known delegate).2 =
    (((delegate.member? "owner").bind str?).map fun owner => decide (∃ k ∈ known, BeginsWith owner k)).getD false := by
  cases howner : (delegate.member? "owner").bind str? with
  | none =>
    rcases rewriteDelegate_cases newPrefix known delegate with ⟨hsame, -⟩ | ⟨members, owner, owner', rfl, hthere, -, -⟩
    · rw [hsame]
      rfl
    · rw [owner?_eq_some_iff.2 (at?_owner_eq_some_iff.2 ⟨members, rfl, hthere⟩)] at howner
      cases howner
  | some owner =>
    have hat := owner?_eq_some_iff.1 howner
    rw [Option.map_some, Option.getD_some, ← isSome_rewriteOwner? newPrefix known owner]
    rcases rewriteDelegate_cases newPrefix known delegate with ⟨hsame, hnone⟩ | ⟨members, k, owner', rfl, hthere, hk, hset⟩
    · rw [hsame, hnone owner hat]
      rfl
    · rw [owner?_eq_some_iff.2 (at?_owner_eq_some_iff.2 ⟨members, rfl, hthere⟩)] at howner
      obtain rfl := Option.some.inj howner
      rw [hset, hk]
      rfl

end Delegate

/-! ## The genesis -/

/-- A genesis is left as it is, or its delegates are set. -/
theorem rewritePrefixes_cases (newPrefix : String) (known : List String) (genesis : Json) :
    (rewritePrefixes newPrefix known genesis = (genesis, 0) ∧ owners genesis = [] ∧
      ∀ i v, at? (ownerPath i) genesis ≠ some v) ∨
    ∃ members delegates, genesis = .obj members ∧ members.lookup "delegates" = some (.arr delegates) ∧
      owners genesis = delegates.filterMap (fun delegate => (delegate.member? "owner").bind str?) ∧
      rewritePrefixes newPrefix known genesis =
        (.obj (insertMember "delegates" (.arr (delegates.map fun d => (rewriteDelegate newPrefix known d).1)) members),
          delegates.countP fun d => (rewriteDelegate newPrefix known d).2) := by
  -- an owner can only be found among delegates
  have hthere : ∀ i v, at? (ownerPath i) genesis = some v →
      ∃ members delegates, genesis = .obj members ∧ members.lookup "delegates" = some (.arr delegates) := by
    intro i v h
    obtain ⟨members, delegates, delegate, hobj, hlookup, -, -⟩ := at?_ownerPath_eq_some_iff.1 h
    exact ⟨members, delegates, hobj, hlookup⟩
  unfold rewritePrefixes
  split
  · rename_i members
    split
    · rename_i delegates hlookup
      have howners : owners (.obj members) = delegates.filterMap fun delegate => (delegate.member? "owner").bind str? := by
        rw [owners, member?, hlookup]
      refine .inr ⟨members, delegates, rfl, hlookup, howners, ?_⟩
      dsimp only
      rw [List.map_map, ← List.countP_eq_length_filter, List.countP_map]
      rfl
    · rename_i hno
      refine .inl ⟨rfl, ?_, fun i v h => ?_⟩
      · rw [owners]
        split
        · rename_i delegates hlookup
          exact absurd hlookup (hno delegates)
        · rfl
      · obtain ⟨members', delegates, hobj, hlookup⟩ := hthere i v h
        obtain rfl := Json.obj.inj hobj
        exact hno delegates hlookup
  · rename_i hno
    refine .inl ⟨rfl, ?_, fun i v h => ?_⟩
    · cases genesis with
      | obj members => exact absurd rfl (hno members)
      | _ => rfl
    · obtain ⟨members, delegates, hobj, -⟩ := hthere i v h
      exact hno members hobj

theorem proper_delegate {members : List (String × Json)} {delegates : List Json} (h : Proper depth (.obj members))
    (hthere : members.lookup "delegates" = some (.arr delegates)) :
    Ordered members ∧ ∃ depth', ∀ delegate ∈ delegates, Proper depth' delegate := by
  cases h with
  | obj hordered hmembers =>
    obtain ⟨front, back, hsplit, -⟩ := List.lookup_eq_some_iff.1 hthere
    have hdelegates := hmembers ("delegates", .arr delegates) (by simp [hsplit])
    cases hdelegates with
    | arr hitems => exact ⟨hordered, _, hitems⟩

theorem proper_rewritePrefixes (newPrefix : String) (known : List String) (h : Proper depth genesis) :
    Proper depth (rewritePrefixes newPrefix known genesis).1 := by
  rcases rewritePrefixes_cases newPrefix known genesis with ⟨hsame, -, -⟩ | ⟨members, delegates, rfl, hthere, -, hset⟩
  · rw [hsame]
    exact h
  · rw [hset]
    cases h with
    | obj hordered hmembers =>
      obtain ⟨front, back, hsplit, -⟩ := List.lookup_eq_some_iff.1 hthere
      have hdelegates := hmembers ("delegates", .arr delegates) (by simp [hsplit])
      refine .obj (ordered_insertMember hordered) fun m hm => ?_
      rcases mem_insertMember hm with rfl | hm
      · cases hdelegates with
        | arr hitems => exact .arr (List.forall_mem_map.2 fun d hd => proper_rewriteDelegate (hitems d hd))
      · exact hmembers m hm

/-- All numbers of a genesis stay. -/
theorem numbers_rewritePrefixes (newPrefix : String) (known : List String) (h : Proper depth genesis) :
    (rewritePrefixes newPrefix known genesis).1.numbers = genesis.numbers := by
  rcases rewritePrefixes_cases newPrefix known genesis with ⟨hsame, -, -⟩ | ⟨members, delegates, rfl, hthere, -, hset⟩
  · rw [hsame]
  · rw [hset]
    obtain ⟨hordered, depth', hdelegates⟩ := proper_delegate h hthere
    exact numbers_insertMember hordered hthere (numbers_map fun d hd => numbers_rewriteDelegate (hdelegates d hd))

/-- The owners that count are those that begin with a known prefix. -/
theorem rewritePrefixes_snd (newPrefix : String) (known : List String) (genesis : Json) :
    (rewritePrefixes newPrefix known genesis).2 =
      (owners genesis).countP fun owner => ∃ k ∈ known, BeginsWith owner k := by
  rcases rewritePrefixes_cases newPrefix known genesis with ⟨hsame, hno, -⟩ | ⟨members, delegates, rfl, -, howners, hset⟩
  · rw [hsame, hno]
    rfl
  · rw [hset, howners, List.countP_filterMap]
    exact congrArg (fun p => delegates.countP p) (funext fun delegate => rewriteDelegate_snd)

/-- The owner keys are moved, and everything else stays. -/
theorem rewritten_rewritePrefixes (newPrefix : String) (known : List String) (h : Proper depth genesis) :
    Rewritten newPrefix known genesis (rewritePrefixes newPrefix known genesis).1 := by
  rcases rewritePrefixes_cases newPrefix known genesis with ⟨hsame, -, hno⟩ | ⟨members, delegates, rfl, hthere, -, hset⟩
  · rw [hsame]
    exact ⟨fun i owner howner => absurd howner (hno i _), .refl _ genesis⟩
  · rw [hset]
    obtain ⟨hordered, depth', hdelegates⟩ := proper_delegate h hthere
    constructor
    · intro i owner howner
      obtain ⟨members', delegates', delegate, hobj, hthere', hitem, hat⟩ := at?_ownerPath_eq_some_iff.1 howner
      obtain rfl := Json.obj.inj hobj
      rw [hthere] at hthere'
      obtain rfl := Json.arr.inj (Option.some.inj hthere')
      refine ⟨_, at?_ownerPath_eq_some_iff.2 ⟨_, _, _, rfl, lookup_insertMember_self _ _ _, ?_, at?_rewriteDelegate hat⟩,
        moved_iff.2 rfl⟩
      rw [List.getElem?_map, hitem, Option.map_some]
    · -- the genesis differs where its delegates do, and these at their owner keys
      have hitems := SameBut.map_items fun d hd => sameBut_rewriteDelegate newPrefix known (hdelegates d hd)
      refine (hitems.member hordered hthere).mono fun path hpath => ?_
      obtain ⟨rest, rfl, i, delegate, rest', rfl, hitem, rfl, owner, howner⟩ := hpath
      exact ⟨i, owner, rfl, at?_ownerPath_eq_some_iff.2 ⟨members, delegates, delegate, rfl, hthere, hitem, howner⟩⟩

/-- The value with the owner keys moved and everything else as it was is the one that the genesis comes to. -/
theorem rewritten_iff {depth' : Nat} (h : Proper depth genesis) (hw : Proper depth' w) :
    Rewritten newPrefix known genesis w ↔ w = (rewritePrefixes newPrefix known genesis).1 := by
  have hdone := rewritten_rewritePrefixes newPrefix known h
  constructor
  · intro hrewritten
    refine (proper_rewritePrefixes newPrefix known h).eq_of_faceAt? hw fun path => ?_
    -- at an owner key both have what it is moved to, and anywhere else both have what the genesis has
    by_cases howner : ∃ i owner, path = ownerPath i ∧ at? path genesis = some (.str owner)
    · obtain ⟨i, owner, rfl, hat⟩ := howner
      obtain ⟨owner₁, hat₁, hmoved₁⟩ := hrewritten.moved i owner hat
      obtain ⟨owner₂, hat₂, hmoved₂⟩ := hdone.moved i owner hat
      have hsame : owner₁ = owner₂ := (moved_iff.1 hmoved₁).symm.trans (moved_iff.1 hmoved₂)
      rw [faceAt?, faceAt?, hat₁, hat₂, hsame]
    · rw [hrewritten.same path howner, hdone.same path howner]
  · intro hw'
    rw [hw']
    exact hdone

/-- The order of the known prefixes makes no difference if they tell keys apart. -/
theorem Separate.rewritePrefixes_eq (hseparate : Separate newPrefix known) (hmem : ∀ k, k ∈ known' ↔ k ∈ known)
    (h : Proper depth genesis) : rewritePrefixes newPrefix known' genesis = rewritePrefixes newPrefix known genesis := by
  have hdone := rewritten_rewritePrefixes newPrefix known h
  refine Prod.ext ?_ ?_
  · refine ((rewritten_iff h (proper_rewritePrefixes newPrefix known h)).1 ⟨fun i owner hat => ?_, hdone.same⟩).symm
    obtain ⟨owner', hat', hmoved⟩ := hdone.moved i owner hat
    exact ⟨owner', hat', hseparate.moved_of_moved hmem hmoved⟩
  · rw [rewritePrefixes_snd, rewritePrefixes_snd]
    simp only [hmem]

/-- A second pass changes nothing if the prefixes tell keys apart. -/
theorem Separate.rewritePrefixes_again (hseparate : Separate newPrefix known) (h : Proper depth genesis) :
    (rewritePrefixes newPrefix known (rewritePrefixes newPrefix known genesis).1).1 =
      (rewritePrefixes newPrefix known genesis).1 := by
  have hdone := rewritten_rewritePrefixes newPrefix known h
  have hproper := proper_rewritePrefixes newPrefix known h
  refine ((rewritten_iff hproper hproper).1 ⟨fun i owner' hat' => ⟨owner', hat', ?_⟩, fun _ _ => rfl⟩).symm
  -- an owner key that stands there now stood there before, in the form that has been moved
  by_cases howner : ∃ owner, at? (ownerPath i) genesis = some (.str owner)
  · obtain ⟨owner, hat⟩ := howner
    obtain ⟨owner'', hat'', hmoved⟩ := hdone.moved i owner hat
    rw [hat'] at hat''
    obtain rfl := Json.str.inj (Option.some.inj hat'')
    exact hseparate.moved_again hmoved
  · have hsame := hdone.same (ownerPath i) fun h => by
      obtain ⟨j, owner, -, hat⟩ := h
      exact howner ⟨owner, hat⟩
    rw [faceAt?_eq_str_iff.2 hat'] at hsame
    exact absurd ⟨owner', faceAt?_eq_str_iff.1 hsame.symm⟩ howner

/-! ## The file -/

theorem place_genesisFile_ne_nil (here dataDir : String) : Path.place here (Path.join dataDir genesisFile) ≠ [] := by
  have hplain : Path.Plain genesisFile := ⟨by decide, by decide, by decide, by decide⟩
  rw [Path.place_join_of_plain hplain]
  exact List.concat_ne_nil _ _

section File

variable {disk disk' : Disk} {base dataDir text path : String}

/-- The derived file is written with the indented form of what the genesis comes to. -/
theorem writeGenesis_eq_ok_iff : writeGenesis disk base dataDir newPrefix known = .ok (path, disk') ↔
    ∃ text genesis, disk.readText base = .ok text ∧ read? text = some genesis ∧ path = Path.join dataDir genesisFile ∧
      disk.writeText path (rewritePrefixes newPrefix known genesis).1.indented = .ok disk' := by
  constructor
  · intro h
    rw [writeGenesis] at h
    split at h
    · cases h
    · rename_i text hread
      split at h
      · cases h
      · rename_i genesis hjson
        refine ⟨text, genesis, hread, hjson, ?_⟩
        dsimp only at h
        cases hwrite : disk.writeText (Path.join dataDir genesisFile)
          (rewritePrefixes newPrefix known genesis).1.indented with
        | ok written =>
          rw [hwrite] at h
          cases h
          exact ⟨rfl, hwrite⟩
        | error e =>
          rw [hwrite] at h
          cases h
  · intro h
    obtain ⟨text, genesis, hread, hjson, rfl, hwrite⟩ := h
    rw [writeGenesis, hread]
    simp only [hjson, hwrite]
    rfl

theorem exists_writeGenesis_iff (hread : disk.readText base = .ok text) (hjson : read? text = some genesis) :
    (∃ done, writeGenesis disk base dataDir newPrefix known = .ok done) ↔
      ∃ disk', disk.writeText (Path.join dataDir genesisFile) "" = .ok disk' := by
  constructor
  · intro h
    obtain ⟨⟨path, disk'⟩, hdone⟩ := h
    obtain ⟨text', genesis', -, -, rfl, hwrite⟩ := writeGenesis_eq_ok_iff.1 hdone
    exact exists_writeText hwrite ""
  · intro h
    obtain ⟨disk₁, hempty⟩ := h
    obtain ⟨disk', hwrite⟩ := exists_writeText hempty (rewritePrefixes newPrefix known genesis).1.indented
    exact ⟨_, writeGenesis_eq_ok_iff.2 ⟨text, genesis, hread, hjson, rfl, hwrite⟩⟩

/-- The derived file is read as the value that the genesis comes to. -/
theorem read?_writeGenesis (hread : disk.readText base = .ok text) (hjson : read? text = some genesis)
    (h : writeGenesis disk base dataDir newPrefix known = .ok (path, disk')) :
    path = Path.join dataDir genesisFile ∧ ∃ written, disk'.readText path = .ok written ∧
      read? written = some (rewritePrefixes newPrefix known genesis).1 := by
  obtain ⟨text', genesis', hread', hjson', rfl, hwrite⟩ := writeGenesis_eq_ok_iff.1 h
  obtain rfl := Except.ok.inj (hread.symm.trans hread')
  obtain rfl := Option.some.inj (hjson.symm.trans hjson')
  have hreadable : Readable maxDepth genesis := ⟨text.toList, hjson⟩
  have hproper := (readable_iff.1 hreadable).1
  have hdone : Readable maxDepth (rewritePrefixes newPrefix known genesis).1 :=
    hreadable.of_numbers_eq (proper_rewritePrefixes newPrefix known hproper) (numbers_rewritePrefixes newPrefix known hproper)
  exact ⟨rfl, _, readText_writeText hwrite (place_genesisFile_ne_nil _ _), hdone.read?_indented⟩

end File

/-- The owner keys of a genesis are moved to the new prefix and nothing else changes, the owners that begin with a known
prefix are counted, and all numbers stay digit for digit. If the known prefixes tell keys apart, neither their order nor
a second pass makes a difference. The derived file is written wherever a file can be written, and is read as that
value. -/
theorem rewritePrefixes_moves_owners (newPrefix : String) (known : List String) {depth : Nat} {genesis : Json}
    (h : Proper depth genesis) :
    Proper depth (rewritePrefixes newPrefix known genesis).1 ∧
    (∀ depth' w, Proper depth' w →
      (Rewritten newPrefix known genesis w ↔ w = (rewritePrefixes newPrefix known genesis).1)) ∧
    (rewritePrefixes newPrefix known genesis).2 =
      (owners genesis).countP (fun owner => ∃ k ∈ known, BeginsWith owner k) ∧
    (rewritePrefixes newPrefix known genesis).1.numbers = genesis.numbers ∧
    (Separate newPrefix known →
      (∀ known', (∀ k, k ∈ known' ↔ k ∈ known) →
        rewritePrefixes newPrefix known' genesis = rewritePrefixes newPrefix known genesis) ∧
      (rewritePrefixes newPrefix known (rewritePrefixes newPrefix known genesis).1).1 =
        (rewritePrefixes newPrefix known genesis).1) ∧
    ∀ disk base dataDir text, disk.readText base = .ok text → read? text = some genesis →
      ((∃ done, writeGenesis disk base dataDir newPrefix known = .ok done) ↔
        ∃ disk', disk.writeText (Path.join dataDir genesisFile) "" = .ok disk') ∧
      ∀ path disk', writeGenesis disk base dataDir newPrefix known = .ok (path, disk') →
        path = Path.join dataDir genesisFile ∧ ∃ written, disk'.readText path = .ok written ∧
          read? written = some (rewritePrefixes newPrefix known genesis).1 := by
  refine ⟨proper_rewritePrefixes newPrefix known h, fun depth' w hw => rewritten_iff h hw,
    rewritePrefixes_snd newPrefix known genesis, numbers_rewritePrefixes newPrefix known h, fun hseparate => ?_, ?_⟩
  · exact ⟨fun known' hmem => hseparate.rewritePrefixes_eq hmem h, hseparate.rewritePrefixes_again h⟩
  · intro disk base dataDir text hread hjson
    exact ⟨exists_writeGenesis_iff hread hjson, fun path disk' hdone => read?_writeGenesis hread hjson hdone⟩

/-- A genesis with two delegates, the owner of one of which is moved to a network whose keys begin with `XTS`. -/
def sharedGenesis : String :=
  "\x7b\"delegates\": [\x7b\"owner\": \"BTS1\"\x7d, \x7b\"owner\": \"PTS2\"\x7d], \"supply\": 2000000000.00001\x7d"

/-- The value of a genesis with two delegates. -/
def twoDelegates (first second : String) : Json :=
  .obj [("delegates", .arr [.obj [("owner", .str first)], .obj [("owner", .str second)]]),
    ("supply", .number "2000000000.00001")]

/-- The disk with the shared file and an empty data directory. -/
def genesisDisk : Disk := ⟨.dir [("base.json", .file (.text sharedGenesis) false), ("alice", .dir [])], "/"⟩

theorem rewritePrefixes_moves_owners_bts :
    read? sharedGenesis = some (twoDelegates "BTS1" "PTS2") ∧
    Rewritten "XTS" ["XTS", "DVS", "BTS"] (twoDelegates "BTS1" "PTS2") (twoDelegates "XTS1" "PTS2") ∧
    rewritePrefixes "XTS" ["BTS", "DVS", "XTS"] (twoDelegates "BTS1" "PTS2") = (twoDelegates "XTS1" "PTS2", 1) ∧
    ∃ disk' written, writeGenesis genesisDisk "/base.json" "/alice" "XTS" ["XTS", "DVS", "BTS"] =
        .ok ("/alice/genesis.json", disk') ∧
      disk'.readText "/alice/genesis.json" = .ok written ∧ read? written = some (twoDelegates "XTS1" "PTS2") := by
  have hjson : read? sharedGenesis = some (twoDelegates "BTS1" "PTS2") := by decide +kernel
  have hvalue : rewritePrefixes "XTS" ["XTS", "DVS", "BTS"] (twoDelegates "BTS1" "PTS2") =
      (twoDelegates "XTS1" "PTS2", 1) := by decide +kernel
  have hproper : Proper maxDepth (twoDelegates "BTS1" "PTS2") := (readable_iff.1 ⟨sharedGenesis.toList, hjson⟩).1
  have hseparate : Separate "XTS" ["XTS", "DVS", "BTS"] := ⟨by decide, by decide⟩
  obtain ⟨hdone, hunique, -, -, horder, hfile⟩ := rewritePrefixes_moves_owners "XTS" ["XTS", "DVS", "BTS"] hproper
  obtain ⟨hexists, hback⟩ := hfile genesisDisk "/base.json" "/alice" sharedGenesis rfl hjson
  rw [hvalue] at hdone hunique hback
  refine ⟨hjson, (hunique _ _ hdone).2 rfl, ?_, ?_⟩
  · have hmem : ∀ k, k ∈ ["BTS", "DVS", "XTS"] ↔ k ∈ ["XTS", "DVS", "BTS"] := by
      intro k
      simp only [List.mem_cons, List.not_mem_nil, or_false]
      constructor
      · rintro (h | h | h) <;> simp [h]
      · rintro (h | h | h) <;> simp [h]
    rw [(horder hseparate).1 _ hmem, hvalue]
  · obtain ⟨⟨path, disk'⟩, hwritten⟩ := hexists.2 ⟨_, rfl⟩
    obtain ⟨rfl, written, hread, hsame⟩ := hback path disk' hwritten
    exact ⟨disk', written, hwritten, hread, hsame⟩

end Conformance.Service
