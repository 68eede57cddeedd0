import Conformance.Proofs.Files.Places

/-!
# Files that are removed again

Most of what is done to the files of a disk leaves the file at the end of a path alone: no other file appears there, and
if the file can be removed before, it can be removed behind it (`Spares`). Directories that are created do so
(`spares_createDirs`), and so does a text that is written to another place (`spares_writeText`). A file is removed by its
path if the directories on the way are there, so always by a path that never climbs (`removable_of_no_climb`), and is gone
then (`fileOf?_removeFile`).
-/
namespace Conformance.Files

variable {e : Entry} {names other : List String} {child : Option Entry} {content : Content} {executable : Bool}

/-! ## Entries below an entry -/

theorem at?_append (e : Entry) (names more : List String) :
    e.at? (names ++ more) = (e.at? names).bind fun inner => inner.at? more := by
  induction names generalizing e with
  | nil => rfl
  | cons name rest ih =>
    cases e with
    | file c x => rfl
    | dir entries =>
      rw [List.cons_append, at?_dir, at?_dir, Option.bind_assoc]
      exact congrArg _ (funext ih)

/-- The names lead to a directory. -/
def Entry.HasDir (e : Entry) (names : List String) : Prop := ∃ entries, e.at? names = some (.dir entries)

/-- What lies below something is below a directory. -/
theorem hasDir_of_at?_append {more : List String} {inner : Entry} (h : e.at? (names ++ more) = some inner)
    (hmore : more ≠ []) : e.HasDir names := by
  rw [at?_append] at h
  obtain ⟨above, habove, hinner⟩ := Option.bind_eq_some_iff.1 h
  cases above with
  | dir entries => exact ⟨entries, habove⟩
  | file c x =>
    cases more with
    | nil => exact absurd rfl hmore
    | cons n r => cases hinner

theorem Entry.HasDir.of_append {more : List String} (h : e.HasDir (names ++ more)) : e.HasDir names := by
  cases more with
  | nil => rwa [List.append_nil] at h
  | cons n r =>
    obtain ⟨entries, hdir⟩ := h
    exact hasDir_of_at?_append hdir (List.cons_ne_nil n r)

theorem lookup_setChild_none (name : String) (entries : List (String × Entry)) :
    (Entry.setChild name none entries).lookup name = none := by
  induction entries with
  | nil => rfl
  | cons m r ih =>
    obtain ⟨n, e⟩ := m
    by_cases hn : n = name
    · rw [Entry.setChild, if_pos hn, ih]
    · simp only [Entry.setChild, if_neg hn, List.lookup_cons, beq_false_of_ne (Ne.symm hn), ih]

/-- The entries of a directory are set one below the other. -/
theorem setAt_dir (name next : String) (rest : List String) (child : Option Entry) (entries : List (String × Entry)) :
    (Entry.dir entries).setAt (name :: next :: rest) child = .dir (Entry.setChild name
      (some (((entries.lookup name).getD (.dir [])).setAt (next :: rest) child)) entries) := rfl

/-- A file at or below the place that has been set is one of what it was set to. -/
theorem at?_setAt_append (hne : names ≠ []) {more : List String}
    (h : (e.setAt names child).at? (names ++ more) = some (.file content executable)) :
    (child.bind fun set => set.at? more) = some (.file content executable) := by
  induction names generalizing e with
  | nil => exact absurd rfl hne
  | cons name rest ih =>
    cases e with
    | file c x => cases h
    | dir entries =>
      cases rest with
      | nil =>
        have hset : (Entry.dir entries).setAt [name] child = .dir (Entry.setChild name child entries) := rfl
        rw [hset, List.singleton_append, at?_dir] at h
        cases child with
        | none =>
          rw [lookup_setChild_none] at h
          cases h
        | some set =>
          rw [lookup_setChild_self] at h
          exact h
      | cons next r =>
        rw [setAt_dir, List.cons_append, at?_dir, lookup_setChild_self] at h
        exact ih (List.cons_ne_nil next r) h

/-- Directories stay, but for the place that is set and what is below it. -/
theorem hasDir_setAt (h : ¬ names <+: other) (child : Option Entry) (hdir : e.HasDir other) :
    (e.setAt names child).HasDir other := by
  induction names generalizing e other with
  | nil => exact absurd List.nil_prefix h
  | cons name rest ih =>
    cases e with
    | file c x => exact hdir
    | dir entries =>
      obtain ⟨set, hset⟩ := exists_setAt_dir entries name rest child
      cases other with
      | nil => exact ⟨Entry.setChild name set entries, by rw [hset]; rfl⟩
      | cons n more =>
        obtain ⟨below, hbelow⟩ := hdir
        by_cases hn : n = name
        · subst hn
          -- along the way to the place that is set
          have hmore : ¬ rest <+: more := fun habove => h ((List.prefix_cons_inj n).2 habove)
          cases rest with
          | nil => exact absurd List.nil_prefix hmore
          | cons next r =>
            rw [at?_dir] at hbelow
            obtain ⟨inner, hinner, hat⟩ := Option.bind_eq_some_iff.1 hbelow
            obtain ⟨below', hbelow'⟩ := ih hmore ⟨below, hat⟩
            refine ⟨below', ?_⟩
            rw [setAt_dir, at?_dir, lookup_setChild_self, hinner]
            exact hbelow'
        · refine ⟨below, ?_⟩
          rw [hset, at?_dir, lookup_setChild_of_ne hn, ← at?_dir]
          exact hbelow

/-- Directories stay if none of them is at the place that is set. -/
theorem hasDir_setAt_of_not_hasDir (h : ¬ e.HasDir names) (child : Option Entry) (hdir : e.HasDir other) :
    (e.setAt names child).HasDir other := by
  refine hasDir_setAt (fun habove => h ?_) child hdir
  obtain ⟨more, rfl⟩ := habove
  exact hdir.of_append

/-! ## The file at the end of a path -/

/-- What a file holds, and whether it can be executed. -/
def Entry.file? : Entry → Option (Content × Bool)
  | .file content executable => some (content, executable)
  | .dir _ => none

/-- The file at the place that the path leads to. -/
def Disk.fileOf? (d : Disk) (path : String) : Option (Content × Bool) :=
  (d.root.at? (Path.place d.here path)).bind Entry.file?

/-- If there is a file at the end of the path, it can be removed by the path. -/
def Disk.Removable (d : Disk) (path : String) : Prop := d.fileOf? path ≠ none → ∃ d', d.removeFile path = .ok d'

/-- The disk `d'` has no file at the end of the path that `d` has not, and it can be removed there if it can be removed
from `d`. -/
structure Disk.Spares (d d' : Disk) (path : String) : Prop where
  here_eq : d'.here = d.here
  file : d'.fileOf? path = none ∨ d'.fileOf? path = d.fileOf? path
  removable : d.Removable path → d'.Removable path

section Sparing

variable {d d' d'' : Disk} {path written : String}

theorem file?_eq_some : e.file? = some (content, executable) ↔ e = .file content executable := by
  cases e <;> simp [Entry.file?]

theorem fileOf?_eq_some : d.fileOf? path = some (content, executable) ↔
    d.root.at? (Path.place d.here path) = some (.file content executable) := by
  rw [Disk.fileOf?, Option.bind_eq_some_iff]
  simp only [file?_eq_some, exists_eq_right]

/-- The path of a file leads somewhere only if it can be removed by that path. -/
theorem removeFile_eq_ok_iff : d.removeFile path = .ok d' ↔
    d.locate path = .ok (Path.place d.here path) ∧ d.fileOf? path ≠ none ∧
      d' = { d with root := d.root.setAt (Path.place d.here path) none } := by
  rw [Disk.removeFile]
  constructor
  · intro h
    split at h
    · cases h
    · rename_i names hlocate
      obtain rfl := locate_eq_place hlocate
      split at h
      · cases h
      · rename_i c x hat
        refine ⟨hlocate, ?_, (Except.ok.inj h).symm⟩
        rw [fileOf?_eq_some.2 hat]
        exact Option.some_ne_none _
      · cases h
  · rintro ⟨hlocate, hfile, rfl⟩
    obtain ⟨⟨c, x⟩, hc⟩ := Option.ne_none_iff_exists'.1 hfile
    rw [hlocate]
    simp only [fileOf?_eq_some.1 hc]

theorem follow_mono {root root' : Entry} (hdirs : ∀ names, root.HasDir names → root'.HasDir names)
    {done names l : List String} (h : Disk.follow root done names = .ok l) : Disk.follow root' done names = .ok l := by
  induction names generalizing done with
  | nil => exact h
  | cons name rest ih =>
    rw [Disk.follow] at h ⊢
    split at h
    · cases h
    · cases h
    · rename_i entries hat
      obtain ⟨entries', hat'⟩ := hdirs done ⟨entries, hat⟩
      rw [hat']
      exact ih h

/-- A disk that keeps its directories spares a path if it has no other file there. -/
theorem spares_of_dirs (hhere : d'.here = d.here) (hdirs : ∀ names, d.root.HasDir names → d'.root.HasDir names)
    (hfile : d'.fileOf? path = none ∨ d'.fileOf? path = d.fileOf? path) : Disk.Spares d d' path where
  here_eq := hhere
  file := hfile
  removable hremovable hthere := by
    have hsame : d'.fileOf? path = d.fileOf? path := hfile.resolve_left hthere
    obtain ⟨d₁, hremove⟩ := hremovable (hsame ▸ hthere)
    obtain ⟨hlocate, -, -⟩ := removeFile_eq_ok_iff.1 hremove
    refine ⟨_, removeFile_eq_ok_iff.2 ⟨?_, hthere, rfl⟩⟩
    rw [Disk.locate] at hlocate ⊢
    split at hlocate
    · cases hlocate
    · rename_i hne
      rw [if_neg hne, hhere]
      exact follow_mono hdirs hlocate

theorem Disk.Spares.refl (d : Disk) (path : String) : Disk.Spares d d path := ⟨rfl, .inr rfl, id⟩

theorem Disk.Spares.trans (h : Disk.Spares d d' path) (h' : Disk.Spares d' d'' path) : Disk.Spares d d'' path where
  here_eq := h'.here_eq.trans h.here_eq
  file := by
    rcases h'.file with hnone | hsame
    · exact .inl hnone
    · rw [hsame]
      exact h.file
  removable hremovable := h'.removable (h.removable hremovable)

/-- A change at one place brings no file to the end of a path, unless the path leads there or below it. -/
theorem fileOf?_setAt (hne : names ≠ [])
    (hset : ∀ more, Path.place d.here path = names ++ more →
      (child.bind fun set => set.at? more) ≠ some (.file content executable))
    (h : ({ d with root := d.root.setAt names child } : Disk).fileOf? path = some (content, executable)) :
    d.fileOf? path = some (content, executable) := by
  rw [fileOf?_eq_some] at h ⊢
  by_cases habove : names <+: Path.place d.here path
  · obtain ⟨more, hmore⟩ := habove
    rw [← hmore] at h
    exact absurd (at?_setAt_append hne h) (hset more hmore.symm)
  · exact (at?_setAt_of_not_below habove d.root child content executable).1 h

theorem file_of_imp
    (h : ∀ content executable, d'.fileOf? path = some (content, executable) →
      d.fileOf? path = some (content, executable)) :
    d'.fileOf? path = none ∨ d'.fileOf? path = d.fileOf? path := by
  cases hfile : d'.fileOf? path with
  | none => exact .inl rfl
  | some f => exact .inr (h f.1 f.2 hfile).symm

/-! ## What is done to other files -/

theorem spares_createDirs (h : d.createDirs written = .ok d') (path : String) : Disk.Spares d d' path := by
  have hgo : ∀ (names done : List String) (d d' : Disk), Disk.createDirs.go d done names = .ok d' →
      Disk.Spares d d' path := by
    intro names
    induction names with
    | nil =>
      intro done d d' h
      obtain rfl := Except.ok.inj h
      exact .refl d path
    | cons name rest ih =>
      intro done d d' h
      rw [Disk.createDirs.go] at h
      generalize (if name = "." then done else if name = ".." then done.dropLast else done ++ [name]) = next at h
      split at h
      · exact ih next d d' h
      · cases h
      · -- nothing is there, so an empty directory is put there
        rename_i hnone
        have hne : next ≠ [] := by
          rintro rfl
          cases hnone
        have hnot : ¬ d.root.HasDir next := by
          rintro ⟨entries, hentries⟩
          cases hnone.symm.trans hentries
        have hcreate : Disk.Spares d { d with root := d.root.setAt next (some (.dir [])) } path := by
          refine spares_of_dirs rfl (fun _ => hasDir_setAt_of_not_hasDir hnot _) (file_of_imp fun c x => ?_)
          refine fileOf?_setAt hne fun more _ hmore => ?_
          cases more <;> cases hmore
        exact hcreate.trans (ih next _ d' h)
  rw [Disk.createDirs] at h
  split at h
  · obtain rfl := Except.ok.inj h
    exact .refl d path
  · exact hgo _ _ _ _ h

/-- A text is written to the place that the path leads to. -/
theorem writeText_eq_ok {text : String} (h : d.writeText written text = .ok d') :
    d.locate written = .ok (Path.place d.here written) ∧ ¬ d.root.HasDir (Path.place d.here written) ∧
      ∃ x, d' = { d with root := d.root.setAt (Path.place d.here written) (some (.file (.text text) x)) } := by
  rw [Disk.writeText, Disk.write] at h
  split at h
  · cases h
  · rename_i names hlocate
    obtain rfl := locate_eq_place hlocate
    split at h
    · cases h
    · rename_i c x hat
      refine ⟨hlocate, ?_, x, (Except.ok.inj h).symm⟩
      rintro ⟨entries, hentries⟩
      cases hat.symm.trans hentries
    · rename_i hat
      have hnot : ¬ d.root.HasDir (Path.place d.here written) := by
        rintro ⟨entries, hentries⟩
        cases hat.symm.trans hentries
      split at h
      · exact ⟨hlocate, hnot, false, (Except.ok.inj h).symm⟩
      · cases h

/-- What is set in a directory is found there. -/
theorem at?_setAt_self {set : Entry} (hne : names ≠ []) (hdir : e.HasDir names.dropLast) :
    (e.setAt names (some set)).at? names = some set := by
  induction names generalizing e with
  | nil => exact absurd rfl hne
  | cons name rest ih =>
    cases rest with
    | nil =>
      obtain ⟨entries, hentries⟩ := hdir
      obtain rfl : e = .dir entries := Option.some.inj hentries
      have hset : (Entry.dir entries).setAt [name] (some set) = .dir (Entry.setChild name (some set) entries) := rfl
      rw [hset, at?_dir, lookup_setChild_self]
      rfl
    | cons next r =>
      obtain ⟨below, hbelow⟩ := hdir
      cases e with
      | file c x => cases hbelow
      | dir entries =>
        rw [List.dropLast_cons_cons, at?_dir] at hbelow
        obtain ⟨inner, hinner, hat⟩ := Option.bind_eq_some_iff.1 hbelow
        rw [setAt_dir, at?_dir, lookup_setChild_self, hinner]
        exact ih (List.cons_ne_nil next r) ⟨below, hat⟩

/-- A text that was written is what the file holds. -/
theorem fileOf?_writeText {text : String} (h : d.writeText written text = .ok d')
    (hne : Path.place d.here written ≠ []) : ∃ x, d'.fileOf? written = some (.text text, x) := by
  obtain ⟨-, -, x, rfl⟩ := writeText_eq_ok h
  refine ⟨x, fileOf?_eq_some.2 (at?_setAt_self hne ?_)⟩
  -- something is at the place or in its directory already, so the directory is there
  rw [Disk.writeText, Disk.write] at h
  split at h
  · cases h
  · rename_i names hlocate
    obtain rfl := locate_eq_place hlocate
    split at h
    · cases h
    · rename_i c y hat
      rw [← List.dropLast_concat_getLast hne] at hat
      exact hasDir_of_at?_append hat (List.cons_ne_nil _ _)
    · split at h
      · rename_i hany
        obtain ⟨above, habove, hisDir⟩ := (Option.any_eq_true _ _).1 hany
        cases above with
        | dir entries => exact ⟨entries, habove⟩
        | file c y => cases hisDir
      · cases h

/-- A text that is written to another place spares a path. -/
theorem spares_writeText {text : String} (h : d.writeText written text = .ok d') (hne : Path.place d.here written ≠ [])
    (hother : Path.place d.here path ≠ Path.place d.here written) : Disk.Spares d d' path := by
  obtain ⟨-, hnot, x, rfl⟩ := writeText_eq_ok h
  refine spares_of_dirs rfl (fun _ => hasDir_setAt_of_not_hasDir hnot _) (file_of_imp fun c y => ?_)
  refine fileOf?_setAt hne fun more hmore hat => ?_
  cases more with
  | nil => exact hother (hmore.trans (List.append_nil _))
  | cons n r => cases hat

/-- A file that has been written can be removed by the path that it was written by. -/
theorem removable_writeText {text : String} (h : d.writeText written text = .ok d') : d'.Removable written := by
  obtain ⟨hlocate, hnot, x, rfl⟩ := writeText_eq_ok h
  refine fun hthere => ⟨_, removeFile_eq_ok_iff.2 ⟨?_, hthere, rfl⟩⟩
  rw [Disk.locate] at hlocate ⊢
  split at hlocate
  · cases hlocate
  · rename_i hne
    rw [if_neg hne]
    exact follow_mono (fun _ => hasDir_setAt_of_not_hasDir hnot _) hlocate

/-- A text that has been written is read by the path that it was written by. -/
theorem readText_writeText {text : String} (h : d.writeText written text = .ok d')
    (hne : Path.place d.here written ≠ []) : d'.readText written = .ok text := by
  obtain ⟨x, hfile⟩ := fileOf?_writeText h hne
  have hthere : d'.fileOf? written ≠ none := by
    rw [hfile]
    exact Option.some_ne_none _
  obtain ⟨d'', hremove⟩ := removable_writeText h hthere
  have hentry : d'.entry written = .ok (.file (.text text) x) := by
    rw [Disk.entry, (removeFile_eq_ok_iff.1 hremove).1]
    simp only [fileOf?_eq_some.1 hfile]
  rw [Disk.readText, hentry]

/-- Whether a text can be written does not depend on the text. -/
theorem exists_writeText {text : String} (h : d.writeText written text = .ok d') (other : String) :
    ∃ d'', d.writeText written other = .ok d'' := by
  rw [Disk.writeText, Disk.write] at h ⊢
  split at h
  · cases h
  · split at h
    · cases h
    · exact ⟨_, rfl⟩
    · split at h
      · rename_i hdir
        exact ⟨_, if_pos hdir⟩
      · cases h

theorem spares_removeFile (h : d.removeFile written = .ok d') (hne : Path.place d.here written ≠ []) (path : String) :
    Disk.Spares d d' path := by
  obtain ⟨-, hthere, rfl⟩ := removeFile_eq_ok_iff.1 h
  have hnot : ¬ d.root.HasDir (Path.place d.here written) := by
    rintro ⟨entries, hentries⟩
    rw [Disk.fileOf?, hentries] at hthere
    exact hthere rfl
  refine spares_of_dirs rfl (fun _ => hasDir_setAt_of_not_hasDir hnot _) (file_of_imp fun c x => ?_)
  exact fileOf?_setAt hne fun more _ hat => by cases hat

/-- A removed file is gone. -/
theorem fileOf?_removeFile (h : d.removeFile written = .ok d') (hne : Path.place d.here written ≠ []) :
    d'.fileOf? written = none := by
  obtain ⟨-, -, rfl⟩ := removeFile_eq_ok_iff.1 h
  refine Option.eq_none_iff_forall_ne_some.2 fun f hfile => ?_
  have hat : (d.root.setAt (Path.place d.here written) none).at? (Path.place d.here written ++ []) =
      some (.file f.1 f.2) := by
    rw [List.append_nil]
    exact fileOf?_eq_some.1 hfile
  cases at?_setAt_append hne hat

/-- A removed directory brings no file to the end of a path. -/
theorem fileOf?_removeDir (h : d.removeDir written = .ok d') (path : String) :
    d'.here = d.here ∧ (d'.fileOf? path = none ∨ d'.fileOf? path = d.fileOf? path) := by
  rw [Disk.removeDir] at h
  split at h
  · cases h
  · rename_i names _
    split at h
    · obtain rfl := Except.ok.inj h
      refine ⟨rfl, ?_⟩
      cases names with
      | nil => exact .inr rfl
      | cons n rest => exact file_of_imp fun c x => fileOf?_setAt (List.cons_ne_nil n rest) fun more _ hat => by cases hat
    · cases h
    · cases h

end Sparing

/-! ## Paths that never climb -/

/-- Names that never climb, the last of which is that of a file, are followed to a file. -/
theorem follow_of_no_climb {root : Entry} {done names : List String} (hclimb : ".." ∉ names)
    (hlast : names.getLast? ≠ some ".")
    (hat : root.at? (Path.walk done names) = some (.file content executable)) :
    Disk.follow root done names = .ok (Path.walk done names) := by
  -- the way only goes down, and stays where it is only on dots
  have hbelow : ∀ (names done : List String), ".." ∉ names → ∃ more, Path.walk done names = done ++ more ∧
      (more = [] → ∀ n ∈ names, n = ".") := by
    intro names
    induction names with
    | nil => exact fun done _ => ⟨[], (List.append_nil done).symm, fun _ _ hn => absurd hn List.not_mem_nil⟩
    | cons name rest ih =>
      intro done hclimb
      obtain ⟨hname, hrest⟩ := not_or.1 (mt List.mem_cons.2 hclimb)
      by_cases hdot : name = "."
      · obtain ⟨more, hmore, hempty⟩ := ih done hrest
        refine ⟨more, ?_, fun h => List.forall_mem_cons.2 ⟨hdot, hempty h⟩⟩
        rw [Path.walk, List.foldl_cons, Path.resolved.step, if_pos hdot]
        exact hmore
      · obtain ⟨more, hmore, -⟩ := ih (done ++ [name]) hrest
        refine ⟨name :: more, ?_, fun h => by cases h⟩
        rw [Path.walk, List.foldl_cons, Path.resolved.step, if_neg hdot, if_neg (Ne.symm hname)]
        exact hmore.trans (List.append_assoc _ _ _)
  induction names generalizing done with
  | nil => rfl
  | cons name rest ih =>
    obtain ⟨-, hrest⟩ := not_or.1 (mt List.mem_cons.2 hclimb)
    -- a file is below, and the last name is no dot, so it is a directory that the way leaves
    have hdir : root.HasDir done := by
      obtain ⟨more, hmore, hempty⟩ := hbelow (name :: rest) done hclimb
      refine hasDir_of_at?_append (hmore ▸ hat) fun hnil => hlast ?_
      have hend := List.getLast?_eq_some_getLast (List.cons_ne_nil name rest)
      rw [hend, hempty hnil _ (List.getLast_mem _)]
    obtain ⟨entries, hentries⟩ := hdir
    rw [Disk.follow, hentries]
    refine ih hrest (fun hdot => hlast ?_) hat
    rw [List.getLast?_cons, hdot]
    rfl

/-- A file can be removed by a path that never climbs, whatever else is on the disk. -/
theorem removable_of_no_climb {d : Disk} {path : String} (hempty : path ≠ "")
    (hslash : (Path.join d.here path).toList.getLast? ≠ some '/')
    (hclimb : ".." ∉ Path.names (Path.join d.here path))
    (hlast : (Path.names (Path.join d.here path)).getLast? ≠ some ".") : d.Removable path := by
  intro hthere
  obtain ⟨⟨c, x⟩, hfile⟩ := Option.ne_none_iff_exists'.1 hthere
  refine ⟨_, removeFile_eq_ok_iff.2 ⟨?_, hthere, rfl⟩⟩
  rw [Disk.locate, if_neg hempty, Disk.steps, if_neg hslash, List.append_nil]
  exact follow_of_no_climb hclimb hlast (fileOf?_eq_some.1 hfile)

/-- A file whose name has a suffix can be removed by a path that never climbs. -/
theorem removable_append {d : Disk} {dir name suffix : String} (hsuffix : Path.Suffix suffix)
    (hclimb : ".." ∉ Path.names (Path.join d.here (Path.join dir (name ++ suffix)))) :
    d.Removable (Path.join dir (name ++ suffix)) := by
  obtain ⟨front, hfront⟩ := Path.exists_toList_join dir (name ++ suffix)
  obtain ⟨front', hfront'⟩ := Path.exists_toList_join d.here (Path.join dir (name ++ suffix))
  have hne : suffix.toList ≠ [] := List.ne_nil_of_length_pos (Nat.zero_lt_of_lt hsuffix.long)
  obtain ⟨init, c, hend⟩ : ∃ init c, suffix.toList = init ++ [c] :=
    ⟨_, _, (List.dropLast_concat_getLast hne).symm⟩
  obtain ⟨above, habove⟩ := Path.exists_names_join d.here (Path.join dir (name ++ suffix))
  obtain ⟨above', habove'⟩ := Path.exists_names_join dir (name ++ suffix)
  obtain ⟨before, -, last, -, hnames, hlast⟩ := Path.names_append hsuffix name
  refine removable_of_no_climb ?_ ?_ hclimb ?_
  · intro hempty
    rw [hempty, String.toList_append] at hfront
    exact hne (List.append_eq_nil_iff.1 (List.append_eq_nil_iff.1 hfront.symm).2).2
  · rw [hfront', hfront, String.toList_append, hend, ← List.append_assoc, ← List.append_assoc, ← List.append_assoc,
      List.getLast?_concat]
    intro hslash
    refine hsuffix.no_slash ?_
    rw [hend, ← Option.some.inj hslash]
    exact List.mem_concat_self
  · rw [habove, habove', hnames, ← List.append_assoc, ← List.append_assoc, List.getLast?_concat]
    exact fun hdot => hlast.ne_dot (Option.some.inj hdot)

end Conformance.Files
