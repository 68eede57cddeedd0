import Conformance.Files.Disk

/-!
# Where paths lead

A path leads to a place: the names from the root to what it denotes, seen from the directory that relative paths start
from. A path that is joined to a directory leads below it, whatever the directory is, exactly if it is relative, never
climbs out of its start and does not end there (`inner_iff`). What is done to the files at a place leaves alone the
files that are not below it (`at?_setAt_of_not_below`).
-/
namespace Conformance.Files

namespace Path

/-! ## The names of a joined path -/

theorem go_append_slash (held a b : List Char) :
    names.go held (a ++ '/' :: b) = names.go held a ++ names.go [] b := by
  induction a generalizing held with
  | nil => rfl
  | cons c a ih =>
    by_cases hc : c = '/'
    · subst hc
      simp only [List.cons_append, names.go, ih]
    · rw [List.cons_append, names.go, names.go, ih]
      · exact fun h => hc h
      · exact fun h => hc h

theorem names_append_slash (a b : List Char) :
    names (String.ofList (a ++ '/' :: b)) = names (String.ofList a) ++ names (String.ofList b) := by
  simp only [names, String.toList_ofList, go_append_slash, List.filter_append]

theorem names_join_of_absolute {path more : String} (h : isAbsolute more = true) :
    names (join path more) = names more := by
  rw [join, if_pos h]

theorem names_join_of_relative {path more : String} (h : isAbsolute more = false) :
    names (join path more) = names path ++ names more := by
  have hslash : ∀ q : List Char, names (String.ofList (q ++ '/' :: more.toList)) =
      names (String.ofList (q ++ ['/'])) ++ names more := by
    intro q
    rw [names_append_slash, names_append_slash, String.ofList_toList]
    exact congrArg (· ++ names more) (List.append_nil _).symm
  rw [join, if_neg (by rw [h]; exact Bool.false_ne_true)]
  split
  · rename_i hend
    rw [Bool.or_eq_true, decide_eq_true_eq, decide_eq_true_eq] at hend
    rcases hend with rfl | hend
    · rw [String.empty_append]
      rfl
    · obtain ⟨q, hq⟩ := List.getLast?_eq_some_iff.1 hend
      have hpath : path = String.ofList (q ++ ['/']) := by rw [← hq, String.ofList_toList]
      have hjoined : path ++ more = String.ofList (q ++ '/' :: more.toList) := by
        rw [hpath, ← String.toList_inj]
        simp
      rw [hjoined, hslash, ← hpath]
  · have hjoined : path ++ "/" ++ more = String.ofList (path.toList ++ '/' :: more.toList) := by
      rw [← String.toList_inj]
      simp
    rw [hjoined, names_append_slash, String.ofList_toList, String.ofList_toList]

/-- A joined path ends like its second part. -/
theorem exists_toList_join (path more : String) : ∃ front, (join path more).toList = front ++ more.toList := by
  rw [join]
  split
  · exact ⟨[], rfl⟩
  · split
    · exact ⟨path.toList, String.toList_append⟩
    · exact ⟨(path ++ "/").toList, String.toList_append⟩

theorem exists_names_join (path more : String) : ∃ front, names (join path more) = front ++ names more := by
  cases h : isAbsolute more with
  | true => exact ⟨[], names_join_of_absolute h⟩
  | false => exact ⟨names path, names_join_of_relative h⟩

theorem isAbsolute_join (path more : String) : isAbsolute (join path more) = (isAbsolute more || isAbsolute path) := by
  cases h : isAbsolute more with
  | true =>
    rw [join, if_pos h, h]
    rfl
  | false =>
    rw [join, if_neg (by rw [h]; exact Bool.false_ne_true), Bool.false_or]
    by_cases hempty : path = ""
    · subst hempty
      rw [if_pos (by simp), String.empty_append, h]
      rfl
    · obtain ⟨c, r, hpath⟩ := List.exists_cons_of_ne_nil (mt String.toList_eq_nil_iff.1 hempty)
      split <;> simp [isAbsolute, hpath]

/-- A name of a file or a directory: it is not empty, has no slash in it, and is neither `.` nor `..`. -/
structure Plain (name : String) : Prop where
  ne_empty : name ≠ ""
  no_slash : '/' ∉ name.toList
  ne_dot : name ≠ "."
  ne_up : name ≠ ".."

theorem go_of_no_slash {cs : List Char} (h : '/' ∉ cs) (held : List Char) :
    names.go held cs = [String.ofList (held.reverse ++ cs)] := by
  induction cs generalizing held with
  | nil => rw [names.go, List.append_nil]
  | cons c cs ih =>
    have hc : c ≠ '/' := fun hc => h (hc ▸ List.mem_cons_self)
    rw [names.go, ih fun hmem => h (List.mem_cons_of_mem _ hmem), List.reverse_cons, List.append_assoc]
    · rfl
    · exact hc

theorem names_of_no_slash {name : String} (h : '/' ∉ name.toList) (hne : name ≠ "") : names name = [name] := by
  rw [names, go_of_no_slash h, List.reverse_nil, List.nil_append, String.ofList_toList]
  simp [hne]

theorem Plain.names {name : String} (h : Plain name) : names name = [name] := names_of_no_slash h.no_slash h.ne_empty

theorem isAbsolute_of_no_slash {name : String} (h : '/' ∉ name.toList) : isAbsolute name = false := by
  refine decide_eq_false fun hhead => h ?_
  exact List.mem_of_head? hhead

theorem no_slash_of_mem_go {held cs : List Char} (hheld : '/' ∉ held) {n : String} (h : n ∈ names.go held cs) :
    '/' ∉ n.toList := by
  have hname : '/' ∉ (String.ofList held.reverse).toList := by
    rwa [String.toList_ofList, List.mem_reverse]
  induction cs generalizing held with
  | nil => exact List.mem_singleton.1 h ▸ hname
  | cons c cs ih =>
    by_cases hc : c = '/'
    · subst hc
      rw [names.go] at h
      rcases List.mem_cons.1 h with rfl | h
      · exact hname
      · exact ih List.not_mem_nil h (by simp)
    · rw [names.go] at h
      · have hcons : '/' ∉ c :: held := fun hmem => (List.mem_cons.1 hmem).elim (fun heq => hc heq.symm) hheld
        exact ih hcons h (by rwa [String.toList_ofList, List.mem_reverse])
      · exact hc

/-- The names of a path are not empty and have no slash in them. -/
theorem of_mem_names {path n : String} (h : n ∈ names path) : n ≠ "" ∧ '/' ∉ n.toList :=
  ⟨of_decide_eq_true (List.mem_filter.1 h).2, no_slash_of_mem_go List.not_mem_nil (List.mem_filter.1 h).1⟩

theorem length_le_of_mem_go {held cs : List Char} {n : String} (h : n ∈ names.go held cs) :
    n.toList.length ≤ held.length + cs.length := by
  induction cs generalizing held with
  | nil =>
    rw [List.mem_singleton.1 h, String.toList_ofList, List.length_reverse]
    exact Nat.le_add_right _ _
  | cons c cs ih =>
    rw [List.length_cons]
    by_cases hc : c = '/'
    · subst hc
      rw [names.go] at h
      rcases List.mem_cons.1 h with rfl | h
      · rw [String.toList_ofList, List.length_reverse]
        omega
      · have hlength := ih h
        rw [List.length_nil] at hlength
        omega
    · rw [names.go] at h
      · have hlength := ih h
        rw [List.length_cons] at hlength
        omega
      · exact hc

theorem length_le_of_mem_names {path n : String} (h : n ∈ names path) : n.toList.length ≤ path.toList.length := by
  have hlength := length_le_of_mem_go (List.mem_filter.1 h).1
  rwa [List.length_nil, Nat.zero_add] at hlength

/-- There is always a name that does not occur in a path. -/
theorem exists_plain_not_mem (path : String) : ∃ name, Plain name ∧ name ∉ names path := by
  have hx : ∀ c ∈ List.replicate (path.toList.length + 1) 'x', c = 'x' := fun c hc => (List.mem_replicate.1 hc).2
  have hhead : (String.ofList (List.replicate (path.toList.length + 1) 'x')).toList.head? = some 'x' := by
    rw [String.toList_ofList, List.replicate_succ, List.head?_cons]
  refine ⟨String.ofList (List.replicate (path.toList.length + 1) 'x'), ⟨?_, ?_, ?_, ?_⟩, ?_⟩
  · intro h
    rw [h] at hhead
    cases hhead
  · intro h
    rw [String.toList_ofList] at h
    exact absurd (hx '/' h) (by decide)
  · intro h
    rw [h] at hhead
    exact absurd hhead (by decide)
  · intro h
    rw [h] at hhead
    exact absurd hhead (by decide)
  · intro h
    have hlength := length_le_of_mem_names h
    rw [String.toList_ofList, List.length_replicate] at hlength
    omega

/-! ## Places -/

/-- Follows names from a place: `.` stays, and `..` climbs. -/
def walk (place names : List String) : List String := names.foldl resolved.step place

/-- Where the path leads, seen from the directory `here`. -/
def place (here path : String) : List String := resolved (join here path)

theorem place_eq_walk (here path : String) :
    place here path = walk (if isAbsolute path then [] else resolved here) (names path) := by
  rw [place, resolved]
  cases h : isAbsolute path with
  | true =>
    rw [names_join_of_absolute h]
    rfl
  | false =>
    rw [names_join_of_relative h, List.foldl_append]
    rfl

/-- A path that is joined to a directory is followed from there, unless it is absolute. -/
theorem place_join (here path more : String) :
    place here (join path more) = walk (if isAbsolute more then [] else place here path) (names more) := by
  rw [place_eq_walk, isAbsolute_join]
  cases h : isAbsolute more with
  | true =>
    rw [names_join_of_absolute h]
    rfl
  | false =>
    rw [names_join_of_relative h, place_eq_walk, Bool.false_or, walk, List.foldl_append]
    rfl

/-- The names on a way lead nowhere else. -/
theorem mem_walk {place names : List String} {n : String} (h : n ∈ walk place names) : n ∈ place ∨ n ∈ names := by
  induction names generalizing place with
  | nil => exact .inl h
  | cons m r ih =>
    rcases ih h with h | h
    · rw [resolved.step] at h
      split at h
      · exact .inl h
      · split at h
        · exact .inl (List.dropLast_subset _ h)
        · rcases List.mem_append.1 h with h | h
          · exact .inl h
          · exact .inr (List.mem_singleton.1 h ▸ List.mem_cons_self)
    · exact .inr (List.mem_cons_of_mem _ h)

/-- Follows names below a start; there is no way out of it. -/
def climb? (done : List String) : List String → Option (List String)
  | [] => some done
  | name :: rest =>
    if name = "." then climb? done rest
    else if name = ".." then if done = [] then none else climb? done.dropLast rest
    else climb? (done ++ [name]) rest

/-- A way that does not leave its start is the same below every directory. -/
theorem walk_of_climb? {done names l : List String} (h : climb? done names = some l) (dir : List String) :
    walk (dir ++ done) names = dir ++ l := by
  induction names generalizing done with
  | nil =>
    obtain rfl := Option.some.inj h
    rfl
  | cons name r ih =>
    rw [climb?] at h
    show walk (resolved.step (dir ++ done) name) r = dir ++ l
    rw [resolved.step]
    split at h
    · rename_i hdot
      rw [if_pos hdot]
      exact ih h
    · rename_i hdot
      rw [if_neg hdot]
      split at h
      · rename_i hup
        rw [if_pos hup]
        split at h
        · cases h
        · rename_i hne
          rw [List.dropLast_append_of_ne_nil hne]
          exact ih h
      · rename_i hup
        rw [if_neg hup, List.append_assoc]
        exact ih h

/-- A way that leaves its start does not come back to a directory whose name it does not know. -/
theorem not_prefix_of_climb?_none {done names : List String} {dir : String} (h : climb? done names = none)
    (hnames : dir ∉ names) : ¬ [dir] <+: walk (dir :: done) names := by
  induction names generalizing done with
  | nil => cases h
  | cons name r ih =>
    have hr : dir ∉ r := fun hmem => hnames (List.mem_cons_of_mem _ hmem)
    rw [climb?] at h
    show ¬ [dir] <+: walk (resolved.step (dir :: done) name) r
    rw [resolved.step]
    split at h
    · rename_i hdot
      rw [if_pos hdot]
      exact ih h hr
    · rename_i hdot
      rw [if_neg hdot]
      split at h
      · rename_i hup
        rw [if_pos hup]
        split at h
        · rename_i hdone
          rw [hdone]
          intro habove
          -- from here on the way consists of its own names
          exact (mem_walk (habove.subset List.mem_cons_self)).elim List.not_mem_nil hr
        · rename_i hne
          rw [List.dropLast_cons_of_ne_nil hne]
          exact ih h hr
      · rename_i hup
        rw [if_neg hup]
        exact ih h hr

/-- The place is below the directory, and not the directory itself. -/
def Below (dir place : List String) : Prop := dir <+: place ∧ place ≠ dir

instance (dir place : List String) : Decidable (Below dir place) := inferInstanceAs (Decidable (_ ∧ _))

/-- The place that the path leads to below its start, if it is relative and never leaves its start. -/
def inner? (path : String) : Option (List String) := if isAbsolute path then none else climb? [] (names path)

theorem place_join_of_inner? {path : String} {l : List String} (h : inner? path = some l) (here dir : String) :
    place here (join dir path) = place here dir ++ l := by
  rw [inner?] at h
  split at h
  · cases h
  · rename_i hrel
    have hwalk := walk_of_climb? h (place here dir)
    rw [List.append_nil] at hwalk
    rw [place_join, if_neg hrel, hwalk]

theorem below_append {dir l : List String} : Below dir (dir ++ l) ↔ l ≠ [] := by
  refine ⟨fun h hl => h.2 (by rw [hl, List.append_nil]), fun h => ⟨List.prefix_append dir l, fun heq => h ?_⟩⟩
  exact List.append_cancel_left (heq.trans (List.append_nil dir).symm)

/-- A path leads below every directory if it is relative, never leaves its start and does not end there. -/
def Inner (path : String) : Prop := ∃ l, l ≠ [] ∧ inner? path = some l

theorem Inner.below {path : String} (h : Inner path) (here dir : String) :
    Below (place here dir) (place here (join dir path)) := by
  obtain ⟨l, hl, hinner⟩ := h
  rw [place_join_of_inner? hinner]
  exact below_append.2 hl

theorem place_root_join {name : String} (h : Plain name) (here : String) : place here (join "/" name) = [name] := by
  have hroot : place here "/" = [] := by
    rw [place_eq_walk]
    rfl
  rw [place_join, isAbsolute_of_no_slash h.no_slash, hroot, h.names]
  show resolved.step [] name = [name]
  rw [resolved.step, if_neg h.ne_dot, if_neg h.ne_up, List.nil_append]

/-- No other path leads below all directories: there is one that it leads out of, or that it does not leave at all. -/
theorem exists_not_below {path : String} (h : ¬ Inner path) :
    ∃ name, Plain name ∧ ∀ here, ¬ Below (place here (join "/" name)) (place here (join (join "/" name) path)) := by
  obtain ⟨name, hplain, hfresh⟩ := exists_plain_not_mem path
  refine ⟨name, hplain, fun here hbelow => ?_⟩
  cases hinner : inner? path with
  | some l =>
    rw [place_join_of_inner? hinner] at hbelow
    exact h ⟨l, below_append.1 hbelow, hinner⟩
  | none =>
    rw [place_join here (join "/" name) path, place_root_join hplain] at hbelow
    rw [inner?] at hinner
    split at hinner
    · rename_i habs
      rw [if_pos habs] at hbelow
      exact (mem_walk (hbelow.1.subset List.mem_cons_self)).elim List.not_mem_nil hfresh
    · rename_i hrel
      rw [if_neg hrel] at hbelow
      exact not_prefix_of_climb?_none hinner hfresh hbelow.1

/-! ## Files beside a directory -/

theorem climb?_append (done a b : List String) :
    climb? done (a ++ b) = (climb? done a).bind fun l => climb? l b := by
  induction a generalizing done with
  | nil => rfl
  | cons n a ih =>
    simp only [List.cons_append, climb?]
    split
    · exact ih done
    · split
      · split
        · rfl
        · exact ih _
      · exact ih _

theorem climb?_plain {name : String} (hdot : name ≠ ".") (hup : name ≠ "..") (done : List String) :
    climb? done [name] = some (done ++ [name]) := by
  rw [climb?, if_neg hdot, if_neg hup, climb?]

theorem Plain.inner? {name : String} (h : Plain name) : inner? name = some [name] := by
  rw [Path.inner?, isAbsolute_of_no_slash h.no_slash, h.names]
  exact climb?_plain h.ne_dot h.ne_up []

theorem Plain.inner {name : String} (h : Plain name) : Inner name := ⟨[name], List.cons_ne_nil _ _, h.inner?⟩

theorem place_join_of_plain {name : String} (h : Plain name) (here dir : String) :
    place here (join dir name) = place here dir ++ [name] :=
  place_join_of_inner? h.inner? here dir

/-- A path with its last name apart, which is empty behind a slash. -/
theorem exists_last_name (cs : List Char) :
    ∃ front last, cs = front ++ last ∧ '/' ∉ last ∧ (front = [] ∨ ∃ q, front = q ++ ['/']) := by
  induction cs with
  | nil => exact ⟨[], [], rfl, List.not_mem_nil, .inl rfl⟩
  | cons c cs ih =>
    obtain ⟨front, last, rfl, hlast, rfl | ⟨q, rfl⟩⟩ := ih
    · by_cases hc : c = '/'
      · exact ⟨['/'], last, by rw [hc]; rfl, hlast, .inr ⟨[], rfl⟩⟩
      · refine ⟨[], c :: last, rfl, fun h => ?_, .inl rfl⟩
        exact (List.mem_cons.1 h).elim (fun h => hc h.symm) hlast
    · exact ⟨c :: (q ++ ['/']), last, rfl, hlast, .inr ⟨c :: q, rfl⟩⟩

/-- A suffix of a file's name, such that no name with it is `.` or `..`. -/
structure Suffix (suffix : String) : Prop where
  no_slash : '/' ∉ suffix.toList
  long : 2 < suffix.toList.length

theorem Suffix.plain {suffix name : String} (h : Suffix suffix) (hname : '/' ∉ name.toList) :
    Plain (name ++ suffix) := by
  have hlength : 2 < (name ++ suffix).toList.length := by
    rw [String.toList_append, List.length_append]
    exact Nat.lt_add_left _ h.long
  refine ⟨?_, ?_, ?_, ?_⟩
  · intro heq
    rw [heq] at hlength
    exact absurd hlength (by decide)
  · rw [String.toList_append, List.mem_append]
    exact fun hmem => hmem.elim hname h.no_slash
  · intro heq
    rw [heq] at hlength
    exact absurd hlength (by decide)
  · intro heq
    rw [heq] at hlength
    exact absurd hlength (by decide)

theorem isAbsolute_append {path suffix : String} (h : Suffix suffix) (hpath : isAbsolute path = false) :
    isAbsolute (path ++ suffix) = false := by
  by_cases hempty : path = ""
  · rw [hempty, String.empty_append]
    exact isAbsolute_of_no_slash h.no_slash
  · obtain ⟨c, r, hcons⟩ := List.exists_cons_of_ne_nil (mt String.toList_eq_nil_iff.1 hempty)
    rw [isAbsolute, hcons] at hpath
    rw [isAbsolute, String.toList_append, hcons]
    exact hpath

/-- With a suffix, the last name of a path is that of a file, and the names in front of it stay. -/
theorem names_append {suffix : String} (hsuffix : Suffix suffix) (path : String) :
    ∃ before behind last, names path = before ++ behind ∧ names (path ++ suffix) = before ++ [last ++ suffix] ∧
      Plain (last ++ suffix) := by
  obtain ⟨front, last, hpath, hlast, hfront⟩ := exists_last_name path.toList
  have hfile : Plain (String.ofList last ++ suffix) := hsuffix.plain (by rwa [String.toList_ofList])
  rcases hfront with rfl | ⟨q, rfl⟩
  · have hlastpath : path = String.ofList last := by rw [← String.ofList_toList (s := path), hpath]; rfl
    exact ⟨[], names path, String.ofList last, rfl, by rw [hlastpath]; exact hfile.names, hfile⟩
  · have happ : path ++ suffix = String.ofList (q ++ '/' :: (String.ofList last ++ suffix).toList) := by
      rw [← String.toList_inj]
      simp [hpath]
    have hsplit : path = String.ofList (q ++ '/' :: last) := by
      rw [← String.toList_inj]
      simp [hpath]
    refine ⟨names (String.ofList q), names (String.ofList last), String.ofList last, ?_, ?_, hfile⟩
    · rw [hsplit, names_append_slash]
    · rw [happ, names_append_slash, String.ofList_toList, hfile.names]

/-- With a suffix, a path that never leaves its start leads to a file below it. -/
theorem inner_append {path suffix : String} (hsuffix : Suffix suffix) (h : (inner? path).isSome = true) :
    Inner (path ++ suffix) := by
  obtain ⟨l, hl⟩ := Option.isSome_iff_exists.1 h
  rw [inner?] at hl
  split at hl
  · cases hl
  · rename_i hrel
    -- the names in front of the last one are names of the path
    obtain ⟨before, behind, last, hnames, hjoined, hfile⟩ := names_append hsuffix path
    rw [hnames, climb?_append] at hl
    obtain ⟨done, hdone, -⟩ := Option.bind_eq_some_iff.1 hl
    refine ⟨done ++ [last ++ suffix], List.concat_ne_nil _ _, ?_⟩
    rw [inner?, isAbsolute_append hsuffix (Bool.not_eq_true _ ▸ hrel), hjoined, climb?_append, hdone]
    exact climb?_plain hfile.ne_dot hfile.ne_up done

end Path

/-! ## The files at a place -/

theorem lookup_setChild_of_ne {name other : String} (h : other ≠ name) (child : Option Entry)
    (entries : List (String × Entry)) : (Entry.setChild name child entries).lookup other = entries.lookup other := by
  have hne : (other == name) = false := beq_false_of_ne h
  induction entries with
  | nil => cases child <;> simp [Entry.setChild, List.lookup_cons, hne]
  | cons m r ih =>
    obtain ⟨n, e⟩ := m
    by_cases hn : n = name
    · subst hn
      cases child with
      | none => rw [Entry.setChild, if_pos rfl, List.lookup_cons, hne, ih]
      | some c => simp [Entry.setChild, List.lookup_cons, hne]
    · simp only [Entry.setChild, if_neg hn, List.lookup_cons, ih]

theorem lookup_setChild_self (name : String) (child : Entry) (entries : List (String × Entry)) :
    (Entry.setChild name (some child) entries).lookup name = some child := by
  induction entries with
  | nil => simp [Entry.setChild]
  | cons m r ih =>
    obtain ⟨n, e⟩ := m
    by_cases hn : n = name
    · subst hn
      simp [Entry.setChild]
    · simp only [Entry.setChild, if_neg hn, List.lookup_cons, beq_false_of_ne (Ne.symm hn), ih]

theorem at?_dir (entries : List (String × Entry)) (name : String) (rest : List String) :
    (Entry.dir entries).at? (name :: rest) = (entries.lookup name).bind fun e => e.at? rest := by
  rw [Entry.at?]
  cases entries.lookup name <;> rfl

/-- Setting a place in a directory sets one entry of the directory. -/
theorem exists_setAt_dir (entries : List (String × Entry)) (name : String) (rest : List String) (child : Option Entry) :
    ∃ set, (Entry.dir entries).setAt (name :: rest) child = .dir (Entry.setChild name set entries) := by
  cases rest <;> exact ⟨_, rfl⟩

/-- Nothing but a place below the one that is set or removed holds another file behind it. -/
theorem at?_setAt_of_not_below {names other : List String} (h : ¬ names <+: other) (e : Entry) (child : Option Entry)
    (content : Content) (executable : Bool) :
    (e.setAt names child).at? other = some (.file content executable) ↔
      e.at? other = some (.file content executable) := by
  induction names generalizing e other with
  | nil => exact absurd List.nil_prefix h
  | cons name rest ih =>
    cases e with
    | file c x => exact Iff.rfl
    | dir entries =>
      -- one entry of the directory is set, and the others stay
      obtain ⟨set, hset⟩ := exists_setAt_dir entries name rest child
      cases other with
      | nil =>
        rw [hset]
        simp [Entry.at?]
      | cons n more =>
        by_cases hn : n = name
        · subst hn
          have hmore : ¬ rest <+: more := fun habove => h ((List.prefix_cons_inj n).2 habove)
          obtain ⟨next, r, rfl⟩ : ∃ next r, rest = next :: r := by
            cases rest with
            | nil => exact absurd List.nil_prefix hmore
            | cons next r => exact ⟨next, r, rfl⟩
          have hinner := ih hmore ((entries.lookup n).getD (.dir []))
          have hself : (Entry.dir entries).setAt (n :: next :: r) child = .dir (Entry.setChild n
              (some (((entries.lookup n).getD (.dir [])).setAt (next :: r) child)) entries) := rfl
          rw [hself, at?_dir, at?_dir, lookup_setChild_self, Option.bind_some, hinner]
          cases entries.lookup n with
          | some e => exact Iff.rfl
          | none => cases more <;> simp [Entry.at?]
        · rw [hset, at?_dir, at?_dir, lookup_setChild_of_ne hn]

/-- A path is found where it leads. -/
theorem follow_eq_walk {root : Entry} {done names l : List String} (h : Disk.follow root done names = .ok l) :
    l = Path.walk done names := by
  induction names generalizing done with
  | nil => exact (Except.ok.inj h).symm
  | cons name r ih =>
    rw [Disk.follow] at h
    split at h
    · cases h
    · cases h
    · exact ih h

theorem locate_eq_place {d : Disk} {path : String} {l : List String} (h : d.locate path = .ok l) :
    l = Path.place d.here path := by
  rw [Disk.locate] at h
  split at h
  · cases h
  · rw [follow_eq_walk h, Disk.steps, Path.walk, List.foldl_append]
    split
    · rfl
    · rfl

/-- A removed directory takes no file with it that is not below it. -/
theorem removeDir_spares {d d' : Disk} {path : String} (h : d.removeDir path = .ok d') {other : List String}
    (hother : ¬ Path.place d.here path <+: other) (content : Content) (executable : Bool) :
    d'.root.at? other = some (.file content executable) ↔ d.root.at? other = some (.file content executable) := by
  rw [Disk.removeDir] at h
  split at h
  · cases h
  · rename_i names hlocate
    split at h
    · obtain rfl := Except.ok.inj h
      exact at?_setAt_of_not_below (locate_eq_place hlocate ▸ hother) d.root none content executable
    · cases h
    · cases h

end Conformance.Files
