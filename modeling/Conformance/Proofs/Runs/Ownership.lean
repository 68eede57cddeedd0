import Conformance.Proofs.Files.Removal
import Conformance.Proofs.Runs.DataDirectories
import Conformance.Proofs.Service.Genesis

/-!
# Who owns a process

From its launch on a process is owned by a handle, and so is the file that records it, until the handle stops or releases
the process. What is owned is followed through a run: every process that has been launched has ended or is owned, and so
it is with the files (`Owns`). Starting a handle adds it to the owners, unless the process could not be recorded
(`Owns.start`), and stopping or releasing it takes it away (`Owns.stop`, `Owns.release`); everything else leaves the
owners as they are (`Undisturbed`).
-/
namespace Conformance.Files.Path

/-- The place ends in the name of a file that records a process. -/
def EndsInPid (place : List String) : Prop := ∃ stem, place.getLast? = some (stem ++ ".pid")

theorem endsInPid_join (here dir name : String) : EndsInPid (place here (join dir (name ++ ".pid"))) := by
  obtain ⟨before, -, last, -, hnames, hlast⟩ := names_append Runs.suffix_pid name
  refine ⟨last, ?_⟩
  rw [place_join, hnames, walk, List.foldl_append, List.foldl_cons, List.foldl_nil, resolved.step, if_neg hlast.ne_dot,
    if_neg hlast.ne_up, List.getLast?_concat]

theorem EndsInPid.ne_nil {place : List String} (h : EndsInPid place) : place ≠ [] := by
  obtain ⟨stem, hlast⟩ := h
  rintro rfl
  cases hlast

/-- Another file in a directory is none that records a process. -/
theorem EndsInPid.ne_place {place' : List String} (h : EndsInPid place') {name : String} (hname : Plain name)
    (hend : name.toList.getLast? ≠ some 'd') (here dir : String) : place' ≠ place here (join dir name) := by
  obtain ⟨stem, hlast⟩ := h
  rintro rfl
  rw [place_join_of_plain hname, List.getLast?_concat] at hlast
  refine hend ?_
  rw [Option.some.inj hlast, String.toList_append, show ".pid".toList = ['.', 'p', 'i'] ++ ['d'] by decide,
    ← List.append_assoc, List.getLast?_concat]

end Conformance.Files.Path

namespace Conformance.Runs

open Files Service

variable {σ α β : Type} {o : Outside σ} {m : Meddling} {paths : List String} {w w' w'' : World σ}

/-! ## What outlasts a run -/

/-- The process of this number has ended. -/
def Ended (o : Outside σ) (pid : Nat) (s : σ) : Prop := (o.status pid s).isSome = true

/-- A process that is killed has ended, and what has ended stays so, until its number is given to another one. -/
structure Settles (o : Outside σ) : Prop where
  kill : ∀ pid s, Ended o pid (o.kill pid s)
  kill_other : ∀ pid other s, Ended o pid s → Ended o pid (o.kill other s)
  terminate : ∀ pid other s, Ended o pid s → Ended o pid (o.terminate other s)
  pass : ∀ pid ms disk s, Ended o pid s → Ended o pid (o.pass ms disk s).2
  exchange : ∀ pid endpoint request s, Ended o pid s → Ended o pid (o.exchange endpoint request s).2.2
  launch : ∀ pid number launched disk s s', o.launch number launched disk s = .ok s' → pid ≠ number →
    Ended o pid s → Ended o pid s'

/-- What others may make of the file at a path, or of there being none. They may leave it and remove it, but they put
none where there is none. -/
structure Meddling where
  may : Option (Content × Bool) → Option (Content × Bool) → Prop
  leave : ∀ f, may f f
  remove : ∀ f, may f none
  trans : ∀ f g h, may f g → may g h → may f h
  create : ∀ f, may none f → f = none

/-- The disk `d'` comes from `d`, as far as the file at the path is concerned, by what others may do. If that file can be
removed before, it can be removed behind it. -/
structure Meddling.Allows (m : Meddling) (d d' : Disk) (path : String) : Prop where
  file : m.may (d.fileOf? path) (d'.fileOf? path)
  removable : d.Removable path → d'.Removable path

/-- While time passes, others do no more to the files at these paths than they may. -/
def SparedByOthers (o : Outside σ) (m : Meddling) (here : String) (paths : List String) : Prop :=
  ∀ ms disk s, disk.here = here → (o.pass ms disk s).1.here = here ∧
    ∀ path ∈ paths, m.Allows disk (o.pass ms disk s).1 path

/-- Nothing has been launched, what had ended has ended, and no more than others may do has been done to the files at the
paths. -/
structure Undisturbed (o : Outside σ) (m : Meddling) (paths : List String) (w w' : World σ) : Prop where
  here_eq : w'.disk.here = w.disk.here
  next_eq : w'.nextProcess = w.nextProcess
  ended : ∀ pid, Ended o pid w.outside → Ended o pid w'.outside
  allows : ∀ path ∈ paths, m.Allows w.disk w'.disk path

theorem Meddling.Allows.refl (m : Meddling) (d : Disk) (path : String) : m.Allows d d path := ⟨m.leave _, id⟩

theorem Meddling.Allows.trans {m : Meddling} {d d' d'' : Disk} {path : String} (h : m.Allows d d' path)
    (h' : m.Allows d' d'' path) : m.Allows d d'' path :=
  ⟨m.trans _ _ _ h.file h'.file, fun hremovable => h'.removable (h.removable hremovable)⟩

/-- A file that is spared is left or removed. -/
theorem Meddling.allows_of_spares {m : Meddling} {d d' : Disk} {path : String} (h : Disk.Spares d d' path) :
    m.Allows d d' path where
  file := by
    rcases h.file with hnone | hsame
    · exact hnone ▸ m.remove _
    · exact hsame ▸ m.leave _
  removable := h.removable

namespace Undisturbed

theorem refl (o : Outside σ) (m : Meddling) (paths : List String) (w : World σ) : Undisturbed o m paths w w :=
  ⟨rfl, rfl, fun _ => id, fun _ _ => .refl _ _ _⟩

theorem trans (h : Undisturbed o m paths w w') (h' : Undisturbed o m paths w' w'') : Undisturbed o m paths w w'' where
  here_eq := h'.here_eq.trans h.here_eq
  next_eq := h'.next_eq.trans h.next_eq
  ended pid hpid := h'.ended pid (h.ended pid hpid)
  allows path hpath := (h.allows path hpath).trans (h'.allows path hpath)

theorem of_outside {s : σ} (h : ∀ pid, Ended o pid w.outside → Ended o pid s) :
    Undisturbed o m paths w { w with outside := s } :=
  ⟨rfl, rfl, h, fun _ _ => .refl _ _ _⟩

theorem of_disk {disk : Disk} (hhere : disk.here = w.disk.here) (h : ∀ path ∈ paths, Disk.Spares w.disk disk path) :
    Undisturbed o m paths w { w with disk } :=
  ⟨hhere, rfl, fun _ => id, fun path hpath => Meddling.allows_of_spares (h path hpath)⟩

theorem of_pass (ho : Settles o) (hothers : SparedByOthers o m w.disk.here paths) (ms now : Nat) :
    Undisturbed o m paths w
      { w with disk := (o.pass ms w.disk w.outside).1, outside := (o.pass ms w.disk w.outside).2, now } where
  here_eq := (hothers ms w.disk w.outside rfl).1
  next_eq := rfl
  ended pid := ho.pass pid ms w.disk w.outside
  allows := (hothers ms w.disk w.outside rfl).2

end Undisturbed

/-! ## Quiet effects -/

/-- However the effect ends, the world is undisturbed. -/
def Quiet (o : Outside σ) (m : Meddling) (here : String) (paths : List String) (e : Effect σ α) : Prop :=
  ∀ w, w.disk.here = here → Undisturbed o m paths w (Plan.left (e w))

section Quiet

variable {here : String}

theorem quiet_pure (a : α) : Quiet o m here paths (pure a : Effect σ α) := fun w _ => .refl o m paths w

theorem bind_of_ok {x : Effect σ α} {f : α → Effect σ β} {a : α} (h : x w = .ok a w') : (x >>= f) w = f a w' := by
  show EStateM.bind x f w = _
  rw [EStateM.bind, h]

theorem bind_of_error {x : Effect σ α} {f : α → Effect σ β} {fault : Fault} (h : x w = .error fault w') :
    (x >>= f) w = .error fault w' := by
  show EStateM.bind x f w = _
  rw [EStateM.bind, h]

theorem quiet_bind {x : Effect σ α} {f : α → Effect σ β} (hx : Quiet o m here paths x)
    (hf : ∀ a, Quiet o m here paths (f a)) : Quiet o m here paths (x >>= f) := by
  intro w hw
  have hfirst := hx w hw
  cases hrun : x w with
  | ok a w₁ =>
    rw [hrun] at hfirst
    rw [bind_of_ok hrun]
    exact hfirst.trans (hf a w₁ (hfirst.here_eq.trans hw))
  | error f w₁ =>
    rw [hrun] at hfirst
    rw [bind_of_error hrun]
    exact hfirst

theorem quiet_get_bind {f : World σ → Effect σ α} (hf : ∀ u, Quiet o m here paths (f u)) :
    Quiet o m here paths (get >>= f) := fun w hw => hf w w hw

theorem quiet_onDisk {f : Disk → Except FileError Disk}
    (hf : ∀ disk disk', disk.here = here → f disk = .ok disk' →
      disk'.here = disk.here ∧ ∀ path ∈ paths, Disk.Spares disk disk' path) :
    Quiet o m here paths (Effect.onDisk f) := by
  intro w hw
  cases h : f w.disk with
  | ok disk =>
    rw [Plan.onDisk_of_ok h]
    obtain ⟨hhere, hspares⟩ := hf w.disk disk hw h
    exact .of_disk hhere hspares
  | error e =>
    rw [Plan.onDisk_of_error h]
    exact .refl o m paths w

theorem withDisk_of_ok {f : Disk → Except Fault (α × Disk)} {done : α × Disk} (h : f w.disk = .ok done) :
    Effect.withDisk f w = .ok done.1 { w with disk := done.2 } := by
  show (Effect.withDisk f).run w = _
  rw [Effect.withDisk, EStateM.run_bind, EStateM.run_get]
  simp only [h]
  rfl

theorem withDisk_of_error {f : Disk → Except Fault (α × Disk)} {fault : Fault} (h : f w.disk = .error fault) :
    Effect.withDisk f w = .error fault w := by
  show (Effect.withDisk f).run w = _
  rw [Effect.withDisk, EStateM.run_bind, EStateM.run_get]
  simp only [h]
  rfl

theorem quiet_withDisk {f : Disk → Except Fault (α × Disk)}
    (hf : ∀ disk a disk', disk.here = here → f disk = .ok (a, disk') →
      disk'.here = disk.here ∧ ∀ path ∈ paths, Disk.Spares disk disk' path) :
    Quiet o m here paths (Effect.withDisk f) := by
  intro w hw
  cases h : f w.disk with
  | ok done =>
    rw [withDisk_of_ok h]
    obtain ⟨hhere, hspares⟩ := hf w.disk done.1 done.2 hw h
    exact .of_disk hhere hspares
  | error fault =>
    rw [withDisk_of_error h]
    exact .refl o m paths w

theorem quiet_createDirs (dir : String) : Quiet o m here paths (Effect.onDisk (·.createDirs dir)) :=
  quiet_onDisk fun _ _ _ h => ⟨(spares_createDirs h dir).here_eq, fun path _ => spares_createDirs h path⟩

/-- A file at another place may be written. -/
theorem spares_writePlain {disk disk' : Disk} {dir name text : String} (hname : Path.Plain name)
    (hne : ∀ path ∈ paths, Path.place disk.here path ≠ Path.place disk.here (Path.join dir name))
    (h : disk.writeText (Path.join dir name) text = .ok disk') :
    disk'.here = disk.here ∧ ∀ path ∈ paths, Disk.Spares disk disk' path := by
  have hroot : Path.place disk.here (Path.join dir name) ≠ [] := by
    rw [Path.place_join_of_plain hname]
    exact List.concat_ne_nil _ _
  refine ⟨?_, fun path hpath => spares_writeText h hroot (hne path hpath)⟩
  obtain ⟨-, -, x, rfl⟩ := writeText_eq_ok h
  rfl

/-- A file of another name may be written. -/
theorem spares_writeFile {disk disk' : Disk} {dir name text : String}
    (hpids : ∀ path ∈ paths, Path.EndsInPid (Path.place disk.here path)) (hname : Path.Plain name)
    (hend : name.toList.getLast? ≠ some 'd') (h : disk.writeText (Path.join dir name) text = .ok disk') :
    disk'.here = disk.here ∧ ∀ path ∈ paths, Disk.Spares disk disk' path :=
  spares_writePlain hname (fun path hpath => (hpids path hpath).ne_place hname hend _ _) h

/-- The names of the files that are written to the data directory before a service is launched. -/
def dataFiles : List String := [genesisFile, checkpointsFile, stdoutFile, stderrFile]

/-- The path leads below the root, and to none of the files that are written to the data directory `dir`. -/
structure Apart (here dir path : String) : Prop where
  ne_root : Path.place here path ≠ []
  ne_data : ∀ name ∈ dataFiles, Path.place here path ≠ Path.place here (Path.join dir name)

theorem plain_of_mem_dataFiles {name : String} (h : name ∈ dataFiles) :
    Path.Plain name ∧ name.toList.getLast? ≠ some 'd' := by
  simp only [dataFiles, List.mem_cons, List.not_mem_nil, or_false] at h
  rcases h with rfl | rfl | rfl | rfl
  · exact ⟨⟨by decide, by decide, by decide, by decide⟩, by decide⟩
  · exact ⟨⟨by decide, by decide, by decide, by decide⟩, by decide⟩
  · exact ⟨⟨by decide, by decide, by decide, by decide⟩, by decide⟩
  · exact ⟨⟨by decide, by decide, by decide, by decide⟩, by decide⟩

/-- A file that is named for a process is none of the data directory. -/
theorem apart_of_endsInPid {path : String} (h : Path.EndsInPid (Path.place here path)) (dir : String) :
    Apart here dir path where
  ne_root := h.ne_nil
  ne_data _ hname := h.ne_place (plain_of_mem_dataFiles hname).1 (plain_of_mem_dataFiles hname).2 _ _

theorem spares_dataFile {disk disk' : Disk} {dir name text : String} (hname : name ∈ dataFiles)
    (hapart : ∀ path ∈ paths, Apart disk.here dir path) (h : disk.writeText (Path.join dir name) text = .ok disk') :
    disk'.here = disk.here ∧ ∀ path ∈ paths, Disk.Spares disk disk' path :=
  spares_writePlain (plain_of_mem_dataFiles hname).1 (fun path hpath => (hapart path hpath).ne_data name hname) h

theorem quiet_dataFile {dir name : String} (hname : name ∈ dataFiles) (hapart : ∀ path ∈ paths, Apart here dir path)
    (text : String) : Quiet o m here paths (Effect.onDisk (·.writeText (Path.join dir name) text)) := by
  refine quiet_onDisk fun disk disk' hhere h => ?_
  subst hhere
  exact spares_dataFile hname hapart h

theorem writeCheckpoints_eq_ok {disk disk' : Disk} {dir path : String}
    (h : writeCheckpoints disk dir = .ok (path, disk')) :
    disk.writeText (Path.join dir checkpointsFile) bypassCheckpoints = .ok disk' := by
  rw [writeCheckpoints] at h
  cases hwrite : disk.writeText (Path.join dir checkpointsFile) bypassCheckpoints with
  | ok written =>
    rw [hwrite] at h
    cases h
    rfl
  | error e =>
    rw [hwrite] at h
    cases h

theorem writeGenesis_eq_ok {disk disk' : Disk} {base dir addressPrefix path : String} {known : List String}
    (h : writeGenesis disk base dir addressPrefix known = .ok (path, disk')) :
    path = Path.join dir genesisFile ∧ ∃ text, disk.writeText (Path.join dir genesisFile) text = .ok disk' := by
  obtain ⟨text, genesis, -, -, rfl, hwrite⟩ := writeGenesis_eq_ok_iff.1 h
  exact ⟨rfl, _, hwrite⟩

/-- What a service starts from is written beside the files that record processes. -/
theorem quiet_prepare {spec : LaunchSpec} (hapart : ∀ path ∈ paths, Apart here spec.dataDir path) :
    Quiet o m here paths (Handle.prepare spec) := by
  refine quiet_bind (quiet_createDirs _) fun _ => ?_
  have hrest : ∀ genesis : Option String, Quiet o m here paths (do
      let _ ← Effect.withDisk fun disk => writeCheckpoints disk spec.dataDir
      Effect.onDisk (·.writeText (Path.join spec.dataDir stdoutFile) "")
      Effect.onDisk (·.writeText (Path.join spec.dataDir stderrFile) "")
      return genesis) := by
    intro genesis
    refine quiet_bind (quiet_withDisk fun disk path disk' hhere h => ?_) fun _ => ?_
    · subst hhere
      exact spares_dataFile (by simp [dataFiles]) hapart (writeCheckpoints_eq_ok h)
    · exact quiet_bind (quiet_dataFile (by simp [dataFiles]) hapart _) fun _ =>
        quiet_bind (quiet_dataFile (by simp [dataFiles]) hapart _) fun _ => quiet_pure _
  split
  · refine quiet_bind (quiet_withDisk fun disk path disk' hhere h => ?_) fun path => ?_
    · subst hhere
      obtain ⟨-, text, hwrite⟩ := writeGenesis_eq_ok h
      exact spares_dataFile (by simp [dataFiles]) hapart hwrite
    · rw [pure_bind]
      exact hrest (some path)
  · exact hrest none

end Quiet

/-! ## Owners -/

/-- What a run starts from. -/
structure Origin where
  /-- The directory that relative paths start from. -/
  here : String
  /-- The number of the first process that is launched. -/
  first : Nat
  /-- The paths of the files that record processes. -/
  paths : List String
  /-- The files at the paths. -/
  before : String → Option (Content × Bool)
  meddling : Meddling
  endsInPid : ∀ path ∈ paths, Path.EndsInPid (Path.place here path)

/-- The handle records its process where the path leads. -/
def Origin.Records (r : Origin) (h : Handle) (path : String) : Prop :=
  Path.place r.here h.spec.pidFile = Path.place r.here path

/-- The handles own what there is of the run: all other processes that have been launched have ended, and the only other
files at the paths are what others may have made of those that were there before. The file of a handle can be removed. -/
structure Owns (o : Outside σ) (r : Origin) (hs : List Handle) (w : World σ) : Prop where
  here_eq : w.disk.here = r.here
  ended : ∀ pid, r.first ≤ pid → pid < w.nextProcess → Ended o pid w.outside ∨ ∃ h ∈ hs, h.child = some pid
  held : ∀ h ∈ hs, h.child.isSome = true ∧ h.spec.pidFile ∈ r.paths
  file : ∀ path ∈ r.paths, w.disk.fileOf? path = none ∨
    (r.meddling.may (r.before path) (w.disk.fileOf? path) ∧ ∀ h ∈ hs, ¬ r.Records h path) ∨
    ∃ h ∈ hs, r.Records h path ∧ w.disk.Removable h.spec.pidFile

section Owners

variable {r : Origin} {h : Handle} {hs hs' : List Handle}

/-- It only counts which handles there are. -/
theorem Owns.congr (hw : Owns o r hs w) (hmem : ∀ h, h ∈ hs' ↔ h ∈ hs) : Owns o r hs' w where
  here_eq := hw.here_eq
  ended := by
    simp only [hmem]
    exact hw.ended
  held h hh := hw.held h ((hmem h).1 hh)
  file := by
    simp only [hmem]
    exact hw.file

/-- Where the world is undisturbed, the owners stay. -/
theorem Owns.keep (hw : Owns o r hs w) (h : Undisturbed o r.meddling r.paths w w') : Owns o r hs w' where
  here_eq := h.here_eq.trans hw.here_eq
  ended pid hfirst hnext := (hw.ended pid hfirst (h.next_eq ▸ hnext)).imp_left (h.ended pid)
  held := hw.held
  file path hpath := by
    have hmay := (h.allows path hpath).file
    rcases hw.file path hpath with hnone | ⟨hbefore, hnobody⟩ | ⟨handle, hmem, hrecords, hremovable⟩
    · exact .inl (r.meddling.create _ (hnone ▸ hmay))
    · exact .inr (.inl ⟨r.meddling.trans _ _ _ hbefore hmay, hnobody⟩)
    · exact .inr (.inr ⟨handle, hmem, hrecords, (h.allows _ (hw.held handle hmem).2).removable hremovable⟩)

/-- Where nothing has been launched yet, there is nothing to own. -/
theorem owns_nil (hhere : w.disk.here = r.here) (hfirst : r.first = w.nextProcess)
    (hbefore : ∀ path ∈ r.paths, w.disk.fileOf? path = r.before path) : Owns o r [] w where
  here_eq := hhere
  ended _ hle hlt := absurd (hfirst ▸ hle) (Nat.not_le_of_lt hlt)
  held _ hmem := absurd hmem List.not_mem_nil
  file path hpath := .inr (.inl ⟨hbefore path hpath ▸ r.meddling.leave _, fun _ hmem => absurd hmem List.not_mem_nil⟩)

/-! ## Ending a process -/

theorem left_dropPidFile_of_ok {disk : Disk} (hremove : w.disk.removeFile h.spec.pidFile = .ok disk) :
    Plan.left (h.dropPidFile w) = { w with disk } := by
  show Plan.left (h.dropPidFile.run w) = _
  rw [Handle.dropPidFile, EStateM.run_modify]
  simp only [hremove]
  rfl

theorem left_dropPidFile_of_error {e : FileError} (hremove : w.disk.removeFile h.spec.pidFile = .error e) :
    Plan.left (h.dropPidFile w) = w := by
  show Plan.left (h.dropPidFile.run w) = _
  rw [Handle.dropPidFile, EStateM.run_modify]
  simp only [hremove]
  rfl

theorem undisturbed_dropPidFile (hplace : Path.place w.disk.here h.spec.pidFile ≠ []) :
    Undisturbed o m paths w (Plan.left (h.dropPidFile w)) := by
  cases hremove : w.disk.removeFile h.spec.pidFile with
  | ok disk =>
    rw [left_dropPidFile_of_ok hremove]
    have hspares := spares_removeFile hremove hplace
    exact .of_disk (hspares h.spec.pidFile).here_eq fun path _ => hspares path
  | error e =>
    rw [left_dropPidFile_of_error hremove]
    exact .refl o m paths w

/-- The file that records a process is gone afterwards, if it can be removed. -/
theorem fileOf?_dropPidFile (hplace : Path.place w.disk.here h.spec.pidFile ≠ [])
    (hremovable : w.disk.Removable h.spec.pidFile) :
    (Plan.left (h.dropPidFile w)).disk.fileOf? h.spec.pidFile = none := by
  cases hremove : w.disk.removeFile h.spec.pidFile with
  | ok disk =>
    rw [left_dropPidFile_of_ok hremove]
    exact fileOf?_removeFile hremove hplace
  | error e =>
    rw [left_dropPidFile_of_error hremove]
    refine Classical.byContradiction fun hthere => ?_
    obtain ⟨disk, hok⟩ := hremovable hthere
    cases hok.symm.trans hremove

/-- A handle whose process has ended owns nothing any more once its file is dropped. -/
theorem Owns.drop (hw : Owns o r (h :: hs) w) (hended : ∀ pid, h.child = some pid → Ended o pid w.outside) :
    Owns o r hs (Plan.left (h.dropPidFile w)) := by
  obtain ⟨-, hpath⟩ := hw.held h List.mem_cons_self
  have hplace : Path.place w.disk.here h.spec.pidFile ≠ [] := hw.here_eq ▸ (r.endsInPid _ hpath).ne_nil
  have hcalm : Undisturbed o r.meddling r.paths w (Plan.left (h.dropPidFile w)) := undisturbed_dropPidFile hplace
  have hkept := hw.keep hcalm
  refine ⟨hkept.here_eq, fun pid hfirst hnext => ?_, fun handle hmem => hw.held handle (List.mem_cons_of_mem _ hmem), ?_⟩
  · rcases hkept.ended pid hfirst hnext with hdone | ⟨handle, hmem, hchild⟩
    · exact .inl hdone
    · rcases List.mem_cons.1 hmem with rfl | hmem
      · exact .inl (hcalm.ended pid (hended pid hchild))
      · exact .inr ⟨handle, hmem, hchild⟩
  · intro path hmempath
    have hmay := (hcalm.allows path hmempath).file
    rcases hw.file path hmempath with hnone | ⟨hbefore, hnobody⟩ | ⟨handle, hmem, hrecords, hremovable⟩
    · exact .inl (r.meddling.create _ (hnone ▸ hmay))
    · refine .inr (.inl ⟨r.meddling.trans _ _ _ hbefore hmay, fun handle hmem => ?_⟩)
      exact hnobody handle (List.mem_cons_of_mem _ hmem)
    · rcases List.mem_cons.1 hmem with rfl | hmem
      · -- both paths lead to the file that has been removed
        have hgone := fileOf?_dropPidFile hplace hremovable
        rw [Disk.fileOf?, hkept.here_eq, hrecords, ← hkept.here_eq] at hgone
        exact .inl hgone
      · exact .inr (.inr ⟨handle, hmem, hrecords,
          (hcalm.allows _ (hw.held handle (List.mem_cons_of_mem _ hmem)).2).removable hremovable⟩)

/-- A process that is killed is not owned any more, nor is its file. -/
theorem Owns.release (ho : Settles o) (hw : Owns o r (h :: hs) w) : Owns o r hs (Plan.left (h.release o w)) := by
  obtain ⟨hchild, -⟩ := hw.held h List.mem_cons_self
  obtain ⟨pid, hpid⟩ := Option.isSome_iff_exists.1 hchild
  have hrelease : Plan.left (h.release o w) = Plan.left (h.dropPidFile { w with outside := o.kill pid w.outside }) := by
    rw [Handle.release, hpid]
    rfl
  rw [hrelease]
  refine (hw.keep (.of_outside fun other => ho.kill_other other pid _)).drop fun other hother => ?_
  obtain rfl : pid = other := Option.some.inj (hpid.symm.trans hother)
  exact ho.kill pid _

/-- Whoever waits for a process to end leaves the world undisturbed, and is only told of its end if it has ended. -/
theorem exists_awaitExit (ho : Settles o) (hothers : SparedByOthers o m w.disk.here paths) (pid interval n : Nat) :
    ∃ told w', Handle.awaitExit o pid interval n w = .ok told w' ∧ Undisturbed o m paths w w' ∧
      (told = true → Ended o pid w'.outside) := by
  induction n generalizing w with
  | zero => exact ⟨_, w, rfl, .refl o m paths w, id⟩
  | succ n ih =>
    by_cases hended : (o.status pid w.outside).isSome = true
    · refine ⟨true, w, ?_, .refl o m paths w, fun _ => hended⟩
      show (Handle.awaitExit o pid interval (n + 1)).run w = _
      rw [Handle.awaitExit, EStateM.run_bind, EStateM.run_get]
      dsimp only
      rw [if_pos hended]
      rfl
    · have hpass := Undisturbed.of_pass (w := w) ho hothers interval (w.now + interval)
      obtain ⟨told, w', hrun, hcalm, htold⟩ := ih (hpass.here_eq ▸ hothers)
      refine ⟨told, w', ?_, hpass.trans hcalm, htold⟩
      show (Handle.awaitExit o pid interval (n + 1)).run w = _
      rw [Handle.awaitExit, EStateM.run_bind, EStateM.run_get]
      dsimp only
      rw [if_neg hended]
      exact hrun

/-- A process that is stopped ends, at the latest when it is killed. -/
theorem exists_stop (ho : Settles o) (hothers : SparedByOthers o m w.disk.here paths) {pid : Nat}
    (hpid : h.child = some pid) :
    ∃ w', Undisturbed o m paths w w' ∧ Ended o pid w'.outside ∧
      h.stop o w = .ok { h with child := none } (Plan.left (h.dropPidFile w')) := by
  have hstop : h.stop o w = (h.stop o).run w := rfl
  rw [hstop, Handle.stop, hpid]
  dsimp only
  rw [EStateM.run_bind, EStateM.run_get]
  dsimp only
  -- asked first, and killed only if it has not ended in the time given to it
  by_cases hrunning : (o.status pid w.outside).isNone = true
  · have hasked : Undisturbed o m paths w { w with outside := o.terminate pid w.outside } :=
      .of_outside fun other => ho.terminate other pid _
    have hterminate : EStateM.run (Effect.outside (o.terminate pid)) w =
        .ok () { w with outside := o.terminate pid w.outside } := rfl
    obtain ⟨told, w₁, hawait, hcalm, htold⟩ := exists_awaitExit
      (w := { w with outside := o.terminate pid w.outside }) ho hothers pid (Nat.min pollInterval h.spec.stopGrace) _
    rw [if_pos hrunning, EStateM.run_bind, hterminate]
    dsimp only
    rw [EStateM.run_bind, Handle.awaitExitFor, EStateM.run, hawait]
    cases told with
    | true => exact ⟨w₁, hasked.trans hcalm, htold rfl, rfl⟩
    | false =>
      have hkilled : Undisturbed o m paths w₁ { w₁ with outside := o.kill pid w₁.outside } :=
        .of_outside fun other => ho.kill_other other pid _
      have hothers' : SparedByOthers o m w₁.disk.here paths := hcalm.here_eq.symm ▸ hothers
      have hkill : EStateM.run (Effect.outside (o.kill pid)) w₁ =
          .ok () { w₁ with outside := o.kill pid w₁.outside } := rfl
      obtain ⟨told', w₂, hawait', hcalm', -⟩ := exists_awaitExit
        (w := { w₁ with outside := o.kill pid w₁.outside }) ho hothers' pid (Nat.min pollInterval h.spec.stopGrace) _
      refine ⟨w₂, ((hasked.trans hcalm).trans hkilled).trans hcalm', hcalm'.ended pid (ho.kill pid _), ?_⟩
      dsimp only
      rw [Bool.not_false, if_pos rfl, EStateM.run_bind, hkill]
      dsimp only
      rw [EStateM.run_bind, EStateM.run, hawait']
      rfl
  · rw [if_neg hrunning]
    exact ⟨w, .refl o m paths w, Option.isSome_iff_ne_none.2 fun hnone => hrunning (by rw [hnone]; rfl), rfl⟩

/-- A process that is stopped is not owned any more, nor is its file. -/
theorem Owns.stop (ho : Settles o) (hothers : SparedByOthers o r.meddling r.here r.paths) (hw : Owns o r (h :: hs) w) :
    Owns o r hs (Plan.left (h.stop o w)) := by
  obtain ⟨hchild, -⟩ := hw.held h List.mem_cons_self
  obtain ⟨pid, hpid⟩ := Option.isSome_iff_exists.1 hchild
  obtain ⟨w', hcalm, hended, hstop⟩ := exists_stop ho (hw.here_eq.symm ▸ hothers) hpid
  rw [hstop]
  refine (hw.keep hcalm).drop fun other hother => ?_
  obtain rfl : pid = other := Option.some.inj (hpid.symm.trans hother)
  exact hended

/-! ## Launching a process -/

/-- A process is launched under the next number and in the data directory, if it is. -/
theorem launch_cases (o : Outside σ) (spec : LaunchSpec) (genesis : Option String) (w : World σ) :
    (∃ message, Handle.launch o spec genesis w = .error (.processStart message) w) ∨
    ∃ launched s, (launched.directory = spec.dataDir ∧ launched.args = spec.args genesis) ∧
      o.launch w.nextProcess launched w.disk w.outside = .ok s ∧ Handle.launch o spec genesis w =
        .ok w.nextProcess { w with outside := s, nextProcess := w.nextProcess + 1 } := by
  have hrun : Handle.launch o spec genesis w = (Handle.launch o spec genesis).run w := rfl
  rw [hrun, Handle.launch, EStateM.run_bind, EStateM.run_get]
  dsimp only
  split
  · exact .inl ⟨_, rfl⟩
  · rename_i s hlaunch
    exact .inr ⟨_, s, ⟨rfl, rfl⟩, hlaunch, rfl⟩

theorem tryCatch_of_ok {x : Effect σ α} {handle : Fault → Effect σ α} {a : α} (h : x w = .ok a w') :
    (tryCatch x handle : Effect σ α) w = .ok a w' := by
  show EStateM.tryCatch x handle w = _
  rw [EStateM.tryCatch, h]

theorem tryCatch_of_error {x : Effect σ α} {handle : Fault → Effect σ α} {f : Fault} (h : x w = .error f w') :
    (tryCatch x handle : Effect σ α) w = handle f w' := by
  show EStateM.tryCatch x handle w = _
  rw [EStateM.tryCatch, h]
  rfl

/-- What writing the file that records the process of this number makes of a disk. -/
structure Recorded (pid : Nat) (disk disk' : Disk) (path : String) : Prop where
  here_eq : disk'.here = disk.here
  file : ∃ x, disk'.fileOf? path = some (.text (toString pid ++ "\n"), x)
  removable : disk'.Removable path
  spares : ∀ other, Path.place disk.here other ≠ Path.place disk.here path → Disk.Spares disk disk' other

/-- The number of a process is written to its file, or the process is killed. -/
theorem recordPid_cases (o : Outside σ) (spec : LaunchSpec) (pid : Nat)
    (hplace : Path.place w.disk.here spec.pidFile ≠ []) :
    (∃ disk, Handle.recordPid o spec pid w = .ok () { w with disk } ∧ Recorded pid w.disk disk spec.pidFile) ∨
    ∃ (e : FileError) (disk : Disk),
      Handle.recordPid o spec pid w = .error (.io e.message) { w with disk, outside := o.kill pid w.outside } ∧
      disk.here = w.disk.here ∧ ∀ path, Disk.Spares w.disk disk path := by
  -- the directory of the file is there, or has just been created
  have hwrite : ∀ disk : Disk, disk.here = w.disk.here → (∀ path, Disk.Spares w.disk disk path) →
      (∃ disk', Effect.onDisk (·.writeText spec.pidFile (toString pid ++ "\n")) { w with disk } =
        .ok () { w with disk := disk' } ∧ Recorded pid w.disk disk' spec.pidFile) ∨
      ∃ e : FileError, Effect.onDisk (·.writeText spec.pidFile (toString pid ++ "\n")) { w with disk } =
        .error (.io e.message) { w with disk } := by
    intro disk hhere hspares
    cases hwritten : disk.writeText spec.pidFile (toString pid ++ "\n") with
    | error e => exact .inr ⟨_, Plan.onDisk_of_error hwritten⟩
    | ok disk' =>
      refine .inl ⟨disk', Plan.onDisk_of_ok hwritten, ?_, fileOf?_writeText hwritten (hhere.symm ▸ hplace),
        removable_writeText hwritten, fun path hother => ?_⟩
      · obtain ⟨-, -, x, rfl⟩ := writeText_eq_ok hwritten
        exact hhere
      · exact (hspares path).trans (spares_writeText hwritten (hhere.symm ▸ hplace) (by rwa [hhere]))
  have hkill : ∀ (f : Fault) (disk : Disk), EStateM.run (do
      Effect.outside (o.kill pid)
      throw f : Effect σ Unit) { w with disk } = .error f { w with disk, outside := o.kill pid w.outside } :=
    fun _ _ => rfl
  rw [Handle.recordPid]
  dsimp only
  split
  · rename_i dir _
    cases hcreate : w.disk.createDirs dir with
    | error e =>
      have hbody : (Effect.onDisk (·.createDirs dir) >>= fun _ =>
          Effect.onDisk (·.writeText spec.pidFile (toString pid ++ "\n"))) w = .error (.io e.message) w :=
        bind_of_error (Plan.onDisk_of_error hcreate)
      exact .inr ⟨_, w.disk, (tryCatch_of_error hbody).trans (hkill _ w.disk), rfl, fun path => .refl _ _⟩
    | ok disk =>
      have hbody : (Effect.onDisk (·.createDirs dir) >>= fun _ =>
          Effect.onDisk (·.writeText spec.pidFile (toString pid ++ "\n"))) w =
          Effect.onDisk (·.writeText spec.pidFile (toString pid ++ "\n")) { w with disk } :=
        bind_of_ok (Plan.onDisk_of_ok hcreate)
      have hhere : disk.here = w.disk.here := (spares_createDirs hcreate dir).here_eq
      rcases hwrite disk hhere (spares_createDirs hcreate) with ⟨disk', hok, hrecorded⟩ | ⟨e, herror⟩
      · exact .inl ⟨disk', tryCatch_of_ok (hbody.trans hok), hrecorded⟩
      · exact .inr ⟨e, disk, (tryCatch_of_error (hbody.trans herror)).trans (hkill _ disk), hhere,
          spares_createDirs hcreate⟩
  · rcases hwrite w.disk rfl fun path => .refl _ _ with ⟨disk', hok, hrecorded⟩ | ⟨e, herror⟩
    · exact .inl ⟨disk', tryCatch_of_ok hok, hrecorded⟩
    · exact .inr ⟨e, w.disk, (tryCatch_of_error herror).trans (hkill _ w.disk), rfl, fun path => .refl _ _⟩

/-- A process that has been launched and recorded is owned by its handle. -/
theorem Owns.launched (hw : Owns o r hs w) {s : σ} {disk : Disk} (hpath : h.spec.pidFile ∈ r.paths)
    (hchild : h.child = some w.nextProcess)
    (hbefore : ∀ pid, pid ≠ w.nextProcess → Ended o pid w.outside → Ended o pid s)
    (hrecorded : Recorded w.nextProcess w.disk disk h.spec.pidFile) :
    Owns o r (h :: hs) { w with disk, outside := s, nextProcess := w.nextProcess + 1 } := by
  refine ⟨hrecorded.here_eq.trans hw.here_eq, fun pid hfirst hnext => ?_,
    List.forall_mem_cons.2 ⟨⟨hchild ▸ rfl, hpath⟩, hw.held⟩, fun path hmempath => ?_⟩
  · by_cases hlast : pid = w.nextProcess
    · exact .inr ⟨h, List.mem_cons_self, hlast ▸ hchild⟩
    · rcases hw.ended pid hfirst (Nat.lt_of_le_of_ne (Nat.le_of_lt_succ hnext) hlast) with hended | ⟨handle, hmem, hpid⟩
      · exact .inl (hbefore pid hlast hended)
      · exact .inr ⟨handle, List.mem_cons_of_mem _ hmem, hpid⟩
  · by_cases hsame : r.Records h path
    · exact .inr (.inr ⟨h, List.mem_cons_self, hsame, hrecorded.removable⟩)
    · -- the file of another place is as it was
      have hspares : ∀ other, Path.place r.here other = Path.place r.here path → Disk.Spares w.disk disk other := by
        intro other hother
        refine hrecorded.spares other fun heq => hsame ?_
        rw [hw.here_eq] at heq
        exact heq.symm.trans hother
      rcases (hspares path rfl).file with hnone | hfile
      · exact .inl hnone
      · dsimp only
        rw [hfile]
        rcases hw.file path hmempath with hnone | ⟨hbefore, hnobody⟩ | ⟨handle, hmem, hrecords, hremovable⟩
        · exact .inl hnone
        · exact .inr (.inl ⟨hbefore, List.forall_mem_cons.2 ⟨hsame, hnobody⟩⟩)
        · exact .inr (.inr ⟨handle, List.mem_cons_of_mem _ hmem, hrecords, (hspares _ hrecords).removable hremovable⟩)

/-- A handle that is started owns its process. If starting it fails, there is no process that is not owned. -/
theorem Owns.start (ho : Settles o) (hw : Owns o r hs w) {spec : LaunchSpec} (hpath : spec.pidFile ∈ r.paths) :
    (∃ handle w', Handle.start o { spec } w = .ok handle w' ∧ Owns o r (handle :: hs) w') ∨
    ∃ f w', Handle.start o { spec } w = .error f w' ∧ Owns o r hs w' := by
  have hquiet : Undisturbed o r.meddling r.paths w (Plan.left (Handle.prepare spec w)) :=
    quiet_prepare (fun path hpath => apart_of_endsInPid (r.endsInPid path hpath) spec.dataDir) w hw.here_eq
  have hstart : Handle.start o { spec } = (do
      let genesis ← Handle.prepare spec
      let pid ← Handle.launch o spec genesis
      Handle.recordPid o spec pid
      return { spec, child := some pid, pid := some pid }) := rfl
  rw [hstart]
  cases hprepare : Handle.prepare spec w with
  | error f w₁ =>
    rw [hprepare] at hquiet
    exact .inr ⟨f, w₁, bind_of_error hprepare, hw.keep hquiet⟩
  | ok genesis w₁ =>
    rw [hprepare] at hquiet
    have hw₁ : Owns o r hs w₁ := hw.keep hquiet
    rw [bind_of_ok hprepare]
    rcases launch_cases o spec genesis w₁ with ⟨message, hlaunch⟩ | ⟨launched, s, -, hlaunched, hlaunch⟩
    · exact .inr ⟨_, w₁, bind_of_error hlaunch, hw₁⟩
    · rw [bind_of_ok hlaunch]
      have hbefore : ∀ pid, pid ≠ w₁.nextProcess → Ended o pid w₁.outside → Ended o pid s :=
        fun pid hne => ho.launch pid _ _ _ _ _ hlaunched hne
      have hplace : Path.place w₁.disk.here spec.pidFile ≠ [] := hw₁.here_eq ▸ (r.endsInPid _ hpath).ne_nil
      rcases recordPid_cases (w := { w₁ with outside := s, nextProcess := w₁.nextProcess + 1 }) o spec w₁.nextProcess
        hplace with ⟨disk, hrecord, hrecorded⟩ | ⟨e, disk, hrecord, hhere, hspares⟩
      · exact .inl ⟨_, _, bind_of_ok hrecord, hw₁.launched hpath rfl hbefore hrecorded⟩
      · refine .inr ⟨_, _, bind_of_error hrecord, ?_⟩
        -- launching may take up a number that had been in use, but the kill ends it again
        have hkilled : Undisturbed o r.meddling r.paths w₁ { w₁ with disk, outside := o.kill w₁.nextProcess s } := by
          refine ⟨hhere, rfl, fun pid hpid => ?_, fun path _ => Meddling.allows_of_spares (hspares path)⟩
          by_cases hlast : pid = w₁.nextProcess
          · exact hlast ▸ ho.kill _ s
          · exact ho.kill_other _ _ s (hbefore pid hlast hpid)
        have hkept := hw₁.keep hkilled
        refine ⟨hkept.here_eq, fun pid hfirst hnext => ?_, hkept.held, hkept.file⟩
        by_cases hlast : pid = w₁.nextProcess
        · exact .inl (hlast ▸ ho.kill _ s)
        · exact hkept.ended pid hfirst (Nat.lt_of_le_of_ne (Nat.le_of_lt_succ hnext) hlast)

end Owners

end Conformance.Runs
