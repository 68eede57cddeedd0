import Conformance.Output.Report
import Conformance.Proofs.Script.Steps
import Conformance.Proofs.Text.Decimal
import Mathlib.Data.Finset.Card
import Mathlib.Data.List.Nodup

/-!
# What a summary counts

A summary counts the stretches of mismatches that have one client and one command. There are never fewer of them than
commands, and as many exactly if the mismatches of each command stand together (`length_dropRepeats_eq_card_iff`). A run
that goes from one client to another and back takes them apart, and then the line is wrong, and another one for the same
mismatches in another order (`summary_counts_iff`).
-/
namespace Conformance.Output

open Text

/-! ## Elements that stand together -/

section Together

variable {α : Type} {a b : α} {l r : List α}

/-- Between two equal elements there is nothing else. -/
def Together (l : List α) : Prop := ∀ a inside, a :: (inside ++ [a]) <:+: l → ∀ b ∈ inside, b = a

theorem Together.of_infix (h : Together l) (hr : r <:+: l) : Together r :=
  fun a inside hinside => h a inside (hinside.trans hr)

theorem together_of_eq (h : ∀ b ∈ l, ∀ c ∈ l, b = c) : Together l := by
  intro a inside hinside b hb
  refine h b (hinside.subset ?_) a (hinside.subset List.mem_cons_self)
  exact List.mem_cons_of_mem a (List.mem_append_left _ hb)

theorem together_of_nodup (h : l.Nodup) : Together l := by
  intro a inside hinside
  have hnodup := h.sublist hinside.sublist
  exact absurd (List.mem_append_right inside (List.mem_singleton_self a)) (List.nodup_cons.1 hnodup).1

/-- An element that is equal to the one behind it changes nothing. -/
theorem together_cons_self : Together (a :: a :: r) ↔ Together (a :: r) := by
  constructor
  · exact fun h => h.of_infix (List.suffix_cons a _).isInfix
  · intro h c inside hinside
    rcases List.infix_cons_iff.1 hinside with hfront | hinside
    · obtain ⟨rfl, hfront⟩ := List.cons_prefix_cons.1 hfront
      cases inside with
      | nil => exact fun b hb => absurd hb List.not_mem_nil
      | cons d inside =>
        obtain ⟨rfl, hfront⟩ := List.cons_prefix_cons.1 hfront
        have hrest := h d inside (List.cons_prefix_cons.2 ⟨rfl, hfront⟩).isInfix
        exact List.forall_mem_cons.2 ⟨rfl, hrest⟩
    · exact h c inside hinside

/-- An element that differs from the one behind it must not come again. -/
theorem together_cons_of_ne (h : a ≠ b) : Together (a :: b :: r) ↔ a ∉ b :: r ∧ Together (b :: r) := by
  constructor
  · intro htogether
    refine ⟨fun ha => ?_, htogether.of_infix (List.suffix_cons a _).isInfix⟩
    obtain ⟨front, back, rfl⟩ := List.append_of_mem ((List.mem_cons.1 ha).resolve_left h)
    have hinside : a :: (b :: front ++ [a]) <:+: a :: b :: (front ++ a :: back) :=
      ⟨[], back, by simp⟩
    exact h (htogether a (b :: front) hinside b List.mem_cons_self).symm
  · rintro ⟨ha, htogether⟩ c inside hinside
    rcases List.infix_cons_iff.1 hinside with hfront | hinside
    · obtain ⟨rfl, hrest⟩ := List.cons_prefix_cons.1 hfront
      have hmem : c ∈ inside ++ [c] := List.mem_append_right inside (List.mem_singleton_self c)
      exact absurd (hrest.subset hmem) ha
    · exact htogether c inside hinside

variable [DecidableEq α]

/-- There are as many stretches of equal elements as different elements exactly if equal elements stand together, and
otherwise more. -/
theorem length_dropRepeats_eq_card_iff (l : List α) :
    l.toFinset.card ≤ (dropRepeats l).length ∧ ((dropRepeats l).length = l.toFinset.card ↔ Together l) := by
  -- along the stretches: the next element belongs to the same one, or begins another
  fun_induction dropRepeats l with
  | case1 => exact ⟨Nat.le_refl 0, iff_of_true rfl (together_of_nodup List.nodup_nil)⟩
  | case2 a => exact ⟨Nat.le_refl 1, iff_of_true rfl (together_of_nodup (List.nodup_singleton a))⟩
  | case3 b r ih =>
    have hsame : (b :: b :: r).toFinset = (b :: r).toFinset := by simp
    rw [hsame, together_cons_self]
    exact ih
  | case4 a b r hne ih =>
    obtain ⟨hle, hiff⟩ := ih
    rw [together_cons_of_ne hne, List.length_cons, List.toFinset_cons]
    by_cases ha : a ∈ b :: r
    · -- the element comes again and is counted twice
      rw [Finset.insert_eq_of_mem (List.mem_toFinset.2 ha)]
      refine ⟨Nat.le_succ_of_le hle, iff_of_false (by omega) fun h => h.1 ha⟩
    · rw [Finset.card_insert_of_notMem (mt List.mem_toFinset.1 ha), ← hiff]
      refine ⟨Nat.succ_le_succ hle, ?_⟩
      constructor
      · exact fun h => ⟨ha, Nat.succ.inj h⟩
      · exact fun h => congrArg Nat.succ h.2

end Together

/-! ## Orders of a list -/

section Orders

variable {α β : Type} (key : α → β)

/-- Any list can be put into an order in which equal keys stand together. -/
theorem exists_perm_together [DecidableEq β] (l : List α) :
    ∃ l' : List α, l'.Perm l ∧ Together (l'.map key) := by
  -- all that has the key of the first element, and behind it the rest in such an order
  induction hn : l.length using Nat.strong_induction_on generalizing l with
  | _ n ih =>
    cases l with
    | nil => exact ⟨[], List.Perm.refl _, together_of_nodup List.nodup_nil⟩
    | cons a r =>
      have hlt : (r.filter (key · ≠ key a)).length < n := by
        have hle := List.length_filter_le (fun b => decide (key b ≠ key a)) r
        rw [List.length_cons] at hn
        omega
      obtain ⟨rest, hperm, hrest⟩ := ih _ hlt (r.filter (key · ≠ key a)) rfl
      let same := r.filter (key · = key a)
      refine ⟨a :: same ++ rest, ?_, ?_⟩
      · have hsplit := List.filter_append_perm (fun b => decide (key b = key a)) r
        simp only [← decide_not] at hsplit
        exact ((hperm.append_left same).trans hsplit).cons a
      · have hne : key a ∉ rest.map key := by
          intro hmem
          obtain ⟨b, hb, hkey⟩ := List.mem_map.1 hmem
          have hb := (List.mem_filter.1 (hperm.mem_iff.1 hb)).2
          exact of_decide_eq_true hb hkey
        have hsame : ∀ b ∈ same, key b = key a := fun b hb => of_decide_eq_true (List.mem_filter.1 hb).2
        clear_value same
        rw [List.cons_append, List.map_cons, List.map_append]
        induction same with
        | nil =>
          cases hmap : rest.map key with
          | nil => exact together_of_nodup (List.nodup_singleton _)
          | cons b more =>
            rw [hmap] at hne hrest
            have hkey : key a ≠ b := fun heq => hne (heq ▸ List.mem_cons_self)
            exact (together_cons_of_ne hkey).2 ⟨hne, hrest⟩
        | cons b same ihsame =>
          obtain ⟨hb, hsame⟩ := List.forall_mem_cons.1 hsame
          rw [List.map_cons, hb]
          exact together_cons_self.2 (ihsame hsame)

/-- If a key comes twice and another one comes too, the other one can be put between. -/
theorem exists_perm_not_together {l : List α} (htwice : ¬ (l.map key).Nodup)
    (hother : ¬ ∀ a ∈ l, ∀ b ∈ l, key a = key b) : ∃ l' : List α, l'.Perm l ∧ ¬ Together (l'.map key) := by
  obtain ⟨k, hk⟩ : ∃ k, [k, k].Sublist (l.map key) := by
    refine Classical.byContradiction fun hno => htwice (List.nodup_iff_sublist.2 fun k hk => hno ⟨k, hk⟩)
  obtain ⟨pair, hpair, hkeys⟩ := List.sublist_map_iff.1 hk
  obtain ⟨a, front, rfl, ha, hfront⟩ := List.map_eq_cons_iff.1 hkeys.symm
  obtain ⟨c, back, rfl, hc, hback⟩ := List.map_eq_cons_iff.1 hfront
  obtain rfl := List.map_eq_nil_iff.1 hback
  obtain ⟨rest, hrest⟩ := hpair.exists_perm_append
  obtain ⟨b, hb, hne⟩ : ∃ b ∈ l, key b ≠ k := by
    refine Classical.byContradiction fun hno => hother fun x hx y hy => ?_
    have hall : ∀ x ∈ l, key x = k := fun x hx => Classical.byContradiction fun hx' => hno ⟨x, hx, hx'⟩
    rw [hall x hx, hall y hy]
  have hbrest : b ∈ rest := by
    rcases List.mem_append.1 (hrest.mem_iff.1 hb) with hb | hb
    · rcases List.mem_pair.1 hb with rfl | rfl
      · exact absurd ha hne
      · exact absurd hc hne
    · exact hb
  obtain ⟨front, back, rfl⟩ := List.append_of_mem hbrest
  refine ⟨a :: b :: c :: (front ++ back), ?_, fun htogether => hne ?_⟩
  · refine List.Perm.trans ?_ hrest.symm
    exact ((List.Perm.swap c b (front ++ back)).trans (List.perm_middle.symm.cons c)).cons a
  · have hinside : k :: ([key b] ++ [k]) <:+: (a :: b :: c :: (front ++ back)).map key :=
      ⟨[], (front ++ back).map key, by simp [ha, hc]⟩
    exact htogether k [key b] hinside (key b) (List.mem_singleton_self _)

end Orders

/-! ## The line -/

/-- The line that names so many mismatches and so many commands. -/
def summaryLine (mismatches commands : Nat) : String :=
  let es := if mismatches = 1 then "" else "es"
  let s := if commands = 1 then "" else "s"
  s!"{mismatches} mismatch{es} in {commands} command{s}"

theorem takeWhile_digits_append (n : Nat) {c : Char} (hc : c.isDigit = false) (r : List Char) :
    (Nat.toDigits 10 n ++ c :: r).takeWhile Char.isDigit = Nat.toDigits 10 n := by
  rw [List.takeWhile_append_of_pos isDigit_of_mem_toDigits, List.takeWhile_cons_of_neg (by simp [hc]), List.append_nil]

/-- The number of commands can be read off the line. -/
theorem summaryLine_inj {mismatches m n : Nat} : summaryLine mismatches m = summaryLine mismatches n ↔ m = n := by
  constructor
  · intro h
    -- both lines begin alike, and behind the number there is a blank
    have hline : ∀ k : Nat, ∃ r, (summaryLine mismatches k).toList =
        (toString mismatches ++ " mismatch" ++ (if mismatches = 1 then "" else "es") ++ " in ").toList ++
          (Nat.toDigits 10 k ++ ' ' :: r) := by
      intro k
      refine ⟨("command" ++ if k = 1 then "" else "s").toList, ?_⟩
      have hk : (toString k).toList = Nat.toDigits 10 k := Nat.toList_repr
      simp only [summaryLine, String.toList_append, List.append_assoc, hk]
      rfl
    obtain ⟨r, hm⟩ := hline m
    obtain ⟨r', hn⟩ := hline n
    rw [h, hn] at hm
    have hdigits := congrArg (List.takeWhile Char.isDigit) (List.append_cancel_left hm)
    rw [takeWhile_digits_append _ rfl, takeWhile_digits_append _ rfl] at hdigits
    have hread := natIn?_toDigits m
    rw [← hdigits, natIn?_toDigits] at hread
    exact (Option.some.inj hread).symm
  · exact congrArg (summaryLine mismatches)

/-! ## The summary -/

/-- The client and the command behind a mismatch. -/
def Failure.origin (f : Failure) : String × Option String := (f.client, f.command)

/-- The different commands behind mismatches, each with its client. -/
def originsOf (failures : List Failure) : Finset (String × Option String) := (failures.map (·.origin)).toFinset

theorem originsOf_perm {failures failures' : List Failure} (h : failures'.Perm failures) :
    originsOf failures' = originsOf failures := List.toFinset_eq_of_perm _ _ (h.map _)

/-- The summary names the right number of commands exactly if the mismatches of each command stand together. -/
theorem summary_eq_iff (failures : List Failure) :
    summary failures = summaryLine failures.length (originsOf failures).card ↔ Together (failures.map (·.origin)) := by
  have hsummary : summary failures = summaryLine failures.length (dropRepeats (failures.map (·.origin))).length := rfl
  rw [hsummary, summaryLine_inj]
  exact (length_dropRepeats_eq_card_iff _).2

/-- The number of mismatches in a summary is that of the list, and the number of commands is at least that of the
different commands with their clients. It is this number exactly if the mismatches of each command stand together. The
line does not depend on the order of the mismatches exactly if all of them have one command or all have different
ones. -/
theorem summary_counts_iff (failures : List Failure) :
    (∃ commands ≥ (originsOf failures).card, summary failures = summaryLine failures.length commands) ∧
    (summary failures = summaryLine failures.length (originsOf failures).card ↔
      Together (failures.map (·.origin))) ∧
    ((∀ failures', failures'.Perm failures → summary failures' = summary failures) ↔
      (failures.map (·.origin)).Nodup ∨ ∀ f ∈ failures, ∀ g ∈ failures, f.origin = g.origin) := by
  refine ⟨⟨_, (length_dropRepeats_eq_card_iff _).1, rfl⟩, summary_eq_iff failures, ?_, ?_⟩
  · intro hsame
    -- otherwise one order keeps the mismatches of each command together, and another one does not
    refine Classical.byContradiction fun hno => ?_
    obtain ⟨htwice, hother⟩ := not_or.1 hno
    obtain ⟨fs, hfs, htogether⟩ := exists_perm_together Failure.origin failures
    obtain ⟨fs', hfs', hapart⟩ := exists_perm_not_together Failure.origin htwice hother
    have hright := (summary_eq_iff fs).2 htogether
    rw [hsame fs hfs, ← hsame fs' hfs', originsOf_perm hfs, ← originsOf_perm hfs', hfs.length_eq, ← hfs'.length_eq]
      at hright
    exact hapart ((summary_eq_iff fs').1 hright)
  · intro hplain failures' hperm
    have htogether : ∀ fs : List Failure, fs.Perm failures → Together (fs.map (·.origin)) := by
      intro fs hfs
      rcases hplain with hnodup | heq
      · exact together_of_nodup ((hfs.map _).nodup_iff.2 hnodup)
      · refine together_of_eq fun x hx y hy => ?_
        obtain ⟨f, hf, rfl⟩ := List.mem_map.1 hx
        obtain ⟨g, hg, rfl⟩ := List.mem_map.1 hy
        exact heq f (hfs.mem_iff.1 hf) g (hfs.mem_iff.1 hg)
    rw [(summary_eq_iff failures').2 (htogether failures' hperm), (summary_eq_iff failures).2 (htogether failures (.refl _)),
      originsOf_perm hperm, hperm.length_eq]

open Script in
/-- A script that sends one command to each of two clients and goes back to the first one: its three mismatches have two
commands, and the summary names three. In another order it names two. -/
theorem interleaved_clients_counted_twice :
    let link : Link Unit := ⟨fun _ _ state => (.ok "a b", state)⟩
    let s : Session Unit := { active := some "alice", clients := [{ name := "alice" }, { name := "bob" }], link := () }
    let src := ">>> say\nx\n>>> !client bob\n>>> say\nx\n>>> !client alice\ny\n"
    let failures := (endOf (runScript link "a.btstest" src) s).failures
    failures.map (·.origin) = [("alice", some "say"), ("bob", some "say"), ("alice", some "say")] ∧
      (originsOf failures).card = 2 ∧ summary failures = "3 mismatches in 3 commands" ∧
      summaryLine 3 2 = "3 mismatches in 2 commands" ∧
      summary (failures.take 1 ++ failures.drop 2 ++ (failures.drop 1).take 1) = "3 mismatches in 2 commands" := by
  decide +kernel

end Conformance.Output
