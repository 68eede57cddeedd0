import Conformance.Proofs.Runs.Teardown

/-!
# The life of a handle

A handle is started and stopped any number of times, and its process may end in between. Whatever has been done with it,
it owns a process if and only if there is a file that records one, and the file then holds the number of that process;
all others that it has launched have ended (`Tied`). One operation keeps this (`Tied.start`, `Tied.stop`, `Tied.pass`),
and so does any number of them (`Tied.performAll`).
-/
namespace Conformance.Runs

open Files Service

variable {σ α β : Type} {o : Outside σ} {w w' : World σ} {h : Handle} {spec : LaunchSpec} {here path : String}
  {first : Nat}

/-! ## What is done with a handle -/

/-- What happens to a handle. -/
inductive Event where
  | start
  | stop
  /-- So many milliseconds pass, in which its process may end. -/
  | pass (ms : Nat)

/-- The handle and the world behind an operation. One that fails leaves the handle as it is. -/
def behind (h : Handle) (r : EStateM.Result Fault (World σ) Handle) : Handle × World σ :=
  match r with
  | .ok h' w' => (h', w')
  | .error _ w' => (h, w')

/-- The handle and the world behind an event. -/
def Event.perform (o : Outside σ) (s : Handle × World σ) (e : Event) : Handle × World σ :=
  match e with
  | start => behind s.1 (s.1.start o s.2)
  | stop => behind s.1 (s.1.stop o s.2)
  | pass ms => (s.1, Plan.left (Effect.pass o ms s.2))

/-- The handle and the world behind events. -/
def performAll (o : Outside σ) (events : List Event) (s : Handle × World σ) : Handle × World σ :=
  events.foldl (Event.perform o) s

/-- While time passes, the file at the path is left alone: it stays as it is, and it can be removed if it could be. -/
def LeftAlone (o : Outside σ) (here path : String) : Prop :=
  ∀ ms disk s, disk.here = here → (o.pass ms disk s).1.here = here ∧
    (o.pass ms disk s).1.fileOf? path = disk.fileOf? path ∧
      (disk.Removable path → (o.pass ms disk s).1.Removable path)

theorem LeftAlone.spared (h : LeftAlone o here path) : SparedByOthers o .removing here [path] := by
  intro ms disk s hhere
  obtain ⟨hhere', hfile, hremovable⟩ := h ms disk s hhere
  exact ⟨hhere', List.forall_mem_singleton.2 ⟨.inr hfile, hremovable⟩⟩

/-! ## Faults of an operation -/

/-- The effect does not fail for a process that has been started already. -/
def NotStarted (e : Effect σ α) : Prop := ∀ w name w', e w ≠ .error (.alreadyStarted name) w'

theorem notStarted_pure (a : α) : NotStarted (pure a : Effect σ α) := by
  intro w name w' h
  cases h

theorem NotStarted.bind {x : Effect σ α} {f : α → Effect σ β} (hx : NotStarted x) (hf : ∀ a, NotStarted (f a)) :
    NotStarted (x >>= f) := by
  intro w name w' h
  cases hrun : x w with
  | ok a w₁ =>
    rw [bind_of_ok hrun] at h
    exact hf a w₁ name w' h
  | error fault w₁ =>
    rw [bind_of_error hrun] at h
    cases h
    exact hx w name w' hrun

theorem notStarted_onDisk (f : Disk → Except FileError Disk) : NotStarted (Effect.onDisk f : Effect σ Unit) := by
  intro w name w' h
  cases hf : f w.disk with
  | ok disk =>
    rw [Plan.onDisk_of_ok hf] at h
    cases h
  | error e =>
    rw [Plan.onDisk_of_error hf] at h
    cases h

theorem notStarted_withDisk {f : Disk → Except Fault (α × Disk)}
    (hf : ∀ disk name, f disk ≠ .error (.alreadyStarted name)) : NotStarted (Effect.withDisk f : Effect σ α) := by
  intro w name w' h
  cases hrun : f w.disk with
  | ok done =>
    rw [withDisk_of_ok hrun] at h
    cases h
  | error fault =>
    rw [withDisk_of_error hrun] at h
    cases h
    exact hf w.disk name hrun

theorem writeCheckpoints_ne (disk : Disk) (dir name : String) :
    writeCheckpoints disk dir ≠ .error (.alreadyStarted name) := by
  intro h
  rw [writeCheckpoints] at h
  cases hwrite : disk.writeText (Path.join dir checkpointsFile) bypassCheckpoints with
  | ok written =>
    rw [hwrite] at h
    cases h
  | error e =>
    rw [hwrite] at h
    cases h

theorem writeGenesis_ne (disk : Disk) (base dir addressPrefix : String) (known : List String) (name : String) :
    writeGenesis disk base dir addressPrefix known ≠ .error (.alreadyStarted name) := by
  intro h
  rw [writeGenesis] at h
  split at h
  · cases h
  · split at h
    · cases h
    · rename_i genesis _
      dsimp only at h
      let content := (rewritePrefixes addressPrefix known genesis).1.indented
      cases hwrite : disk.writeText (Path.join dir genesisFile) content with
      | ok written =>
        rw [hwrite] at h
        cases h
      | error e =>
        rw [hwrite] at h
        cases h

theorem notStarted_prepare (spec : LaunchSpec) : NotStarted (Handle.prepare spec : Effect σ (Option String)) := by
  refine (notStarted_onDisk _).bind fun _ => ?_
  have hrest : ∀ genesis : Option String, NotStarted (do
      let _ ← Effect.withDisk fun disk => writeCheckpoints disk spec.dataDir
      Effect.onDisk (·.writeText (Path.join spec.dataDir stdoutFile) "")
      Effect.onDisk (·.writeText (Path.join spec.dataDir stderrFile) "")
      return genesis : Effect σ (Option String)) := fun genesis =>
    (notStarted_withDisk fun disk name => writeCheckpoints_ne disk _ name).bind fun _ =>
      (notStarted_onDisk _).bind fun _ => (notStarted_onDisk _).bind fun _ => notStarted_pure genesis
  split
  · refine (notStarted_withDisk fun disk name => writeGenesis_ne disk _ _ _ _ name).bind fun path => ?_
    rw [pure_bind]
    exact hrest (some path)
  · exact hrest none

/-! ## What holds between operations -/

/-- The handle and the world are tied to each other: a process that has been launched has ended or is owned, and the
file that records a process is there if and only if one is owned, holds its number and can be removed. -/
structure Tied (o : Outside σ) (here : String) (first : Nat) (spec : LaunchSpec) (h : Handle) (w : World σ) : Prop where
  spec_eq : h.spec = spec
  here_eq : w.disk.here = here
  ended : ∀ pid, first ≤ pid → pid < w.nextProcess → Ended o pid w.outside ∨ h.child = some pid
  owned : ∀ pid, h.child = some pid →
    (∃ x, w.disk.fileOf? spec.pidFile = some (.text (toString pid ++ "\n"), x)) ∧ w.disk.Removable spec.pidFile
  free : h.child = none → w.disk.fileOf? spec.pidFile = none

/-- Before anything is done, nothing is owned. -/
theorem tied_fresh (habsent : w.disk.fileOf? spec.pidFile = none) :
    Tied o w.disk.here w.nextProcess spec { spec } w where
  spec_eq := rfl
  here_eq := rfl
  ended _ hle hlt := absurd hle (Nat.not_le_of_lt hlt)
  owned _ hchild := by cases hchild
  free _ := habsent

/-- Where nothing is owned, an undisturbed world has nothing to own. -/
theorem Tied.keep (ht : Tied o here first spec h w) (hchild : h.child = none)
    (hu : Undisturbed o .removing [spec.pidFile] w w') : Tied o here first spec h w' where
  spec_eq := ht.spec_eq
  here_eq := hu.here_eq.trans ht.here_eq
  ended pid hle hlt := (ht.ended pid hle (hu.next_eq ▸ hlt)).imp_left (hu.ended pid)
  owned _ hpid := by rw [hchild] at hpid; cases hpid
  free _ := Meddling.removing.create _ (ht.free hchild ▸ (hu.allows _ (List.mem_singleton_self _)).file)

/-! ## One operation -/

theorem start_of_isSome (hchild : h.child.isSome = true) :
    h.start o w = .error (.alreadyStarted h.spec.name) w := by
  show (h.start o).run w = _
  rw [Handle.start, if_pos hchild]
  rfl

theorem start_of_none (hchild : h.child = none) : h.start o = (do
    let genesis ← Handle.prepare h.spec
    let pid ← Handle.launch o h.spec genesis
    Handle.recordPid o h.spec pid
    return { h with child := some pid, pid := some pid }) := by
  rw [Handle.start, hchild]
  rfl

/-- Where nothing is owned, all that has been launched has ended. -/
theorem Tied.all_ended (ht : Tied o here first spec h w) (hchild : h.child = none) :
    ∀ pid, first ≤ pid → pid < w.nextProcess → Ended o pid w.outside := by
  intro pid hle hlt
  refine (ht.ended pid hle hlt).resolve_right fun hpid => ?_
  rw [hchild] at hpid
  cases hpid

section Launched

variable {s : σ} {disk : Disk}

/-- A process that has been launched is owned once it is recorded. -/
theorem Tied.recorded (ht : Tied o here first spec h w)
    (hended : ∀ pid, first ≤ pid → pid < w.nextProcess → Ended o pid s)
    (hrecorded : Recorded w.nextProcess w.disk disk spec.pidFile) :
    Tied o here first spec { spec, child := some w.nextProcess, pid := some w.nextProcess }
      { w with disk, outside := s, nextProcess := w.nextProcess + 1 } where
  spec_eq := rfl
  here_eq := hrecorded.here_eq.trans ht.here_eq
  ended pid hle hlt := by
    rcases Nat.lt_succ_iff_lt_or_eq.1 hlt with hlt | rfl
    · exact .inl (hended pid hle hlt)
    · exact .inr rfl
  owned pid hpid := by
    obtain rfl := Option.some.inj hpid
    exact ⟨hrecorded.file, hrecorded.removable⟩
  free hnone := by cases hnone

/-- One that cannot be recorded is killed, and nothing is owned as before. -/
theorem Tied.killed (ho : Settles o) (ht : Tied o here first spec h w) (hchild : h.child = none)
    (hended : ∀ pid, first ≤ pid → pid < w.nextProcess → Ended o pid s) (hhere : disk.here = w.disk.here)
    (hspares : Disk.Spares w.disk disk spec.pidFile) :
    Tied o here first spec h
      { w with disk, outside := o.kill w.nextProcess s, nextProcess := w.nextProcess + 1 } where
  spec_eq := ht.spec_eq
  here_eq := hhere.trans ht.here_eq
  ended pid hle hlt := by
    rcases Nat.lt_succ_iff_lt_or_eq.1 hlt with hlt | rfl
    · exact .inl (ho.kill_other _ _ s (hended pid hle hlt))
    · exact .inl (ho.kill _ s)
  owned pid hpid := by rw [hchild] at hpid; cases hpid
  free _ := by
    rcases hspares.file with hnone | hsame
    · exact hnone
    · exact hsame.trans (ht.free hchild)

end Launched

/-- A handle that owns nothing owns the process that it has launched and recorded. Otherwise it owns nothing still. -/
theorem Tied.start (ho : Settles o) (hapart : Apart here spec.dataDir spec.pidFile) (ht : Tied o here first spec h w)
    (hchild : h.child = none) :
    (∃ pid w', h.start o w = .ok { h with child := some pid, pid := some pid } w' ∧
      Tied o here first spec { h with child := some pid, pid := some pid } w') ∨
    ∃ f w', h.start o w = .error f w' ∧ (∀ name, f ≠ .alreadyStarted name) ∧ Tied o here first spec h w' := by
  have hquiet : Undisturbed o .removing [spec.pidFile] w (Plan.left (Handle.prepare spec w)) :=
    quiet_prepare (List.forall_mem_singleton.2 hapart) w ht.here_eq
  rw [start_of_none hchild, ht.spec_eq]
  cases hprepare : Handle.prepare spec w with
  | error f w₁ =>
    rw [hprepare] at hquiet
    refine .inr ⟨f, w₁, bind_of_error hprepare, ?_, ht.keep hchild hquiet⟩
    rintro name rfl
    exact notStarted_prepare spec w name w₁ hprepare
  | ok genesis w₁ =>
    rw [hprepare] at hquiet
    have ht₁ : Tied o here first spec h w₁ := ht.keep hchild hquiet
    have hplace : Path.place w₁.disk.here spec.pidFile ≠ [] := ht₁.here_eq.symm ▸ hapart.ne_root
    rw [bind_of_ok hprepare]
    rcases launch_cases o spec genesis w₁ with ⟨message, hlaunch⟩ | ⟨launched, s, -, hlaunched, hlaunch⟩
    · exact .inr ⟨_, w₁, bind_of_error hlaunch, fun _ => Fault.noConfusion, ht₁⟩
    · -- The process is running from here on: it is recorded and owned, or it is killed.
      have hended : ∀ pid, first ≤ pid → pid < w₁.nextProcess → Ended o pid s := fun pid hle hlt =>
        ho.launch pid _ _ _ _ _ hlaunched (Nat.ne_of_lt hlt) (ht₁.all_ended hchild pid hle hlt)
      rw [bind_of_ok hlaunch]
      rcases recordPid_cases (w := { w₁ with outside := s, nextProcess := w₁.nextProcess + 1 }) o spec w₁.nextProcess
        hplace with ⟨disk, hrecord, hrecorded⟩ | ⟨e, disk, hrecord, hhere, hspares⟩
      · exact .inl ⟨w₁.nextProcess, _, bind_of_ok hrecord, ht₁.recorded hended hrecorded⟩
      · exact .inr ⟨_, _, bind_of_error hrecord, fun _ => Fault.noConfusion,
          ht₁.killed ho hchild hended hhere (hspares spec.pidFile)⟩

/-- Where there is no file that records a process, a handle that owns nothing is stopped without any change. -/
theorem stop_of_none (hchild : h.child = none) (habsent : w.disk.fileOf? h.spec.pidFile = none) :
    h.stop o w = .ok h w := by
  have hstop : h.stop o w = .ok h (Plan.left (h.dropPidFile w)) := by
    show (h.stop o).run w = _
    rw [Handle.stop, hchild]
    rfl
  rw [hstop]
  cases hremove : w.disk.removeFile h.spec.pidFile with
  | ok disk => exact absurd habsent (removeFile_eq_ok_iff.1 hremove).2.1
  | error e => rw [left_dropPidFile_of_error hremove]

/-- A handle that is stopped owns nothing any more, and stopping never fails. -/
theorem Tied.stop (ho : Settles o) (hothers : LeftAlone o here spec.pidFile)
    (hplace : Path.place here spec.pidFile ≠ []) (ht : Tied o here first spec h w) :
    ∃ w', h.stop o w = .ok { h with child := none } w' ∧ Tied o here first spec { h with child := none } w' := by
  cases hchild : h.child with
  | none =>
    have hsame : { h with child := none } = h := by rw [← hchild]
    rw [hsame]
    exact ⟨w, stop_of_none hchild (ht.spec_eq.symm ▸ ht.free hchild), ht⟩
  | some pid =>
    have hothers' : SparedByOthers o .removing w.disk.here [spec.pidFile] := ht.here_eq.symm ▸ hothers.spared
    obtain ⟨w₁, hu, hended, hstop⟩ := exists_stop ho hothers' hchild
    obtain ⟨-, hremovable⟩ := ht.owned pid hchild
    have hplace₁ : Path.place w₁.disk.here h.spec.pidFile ≠ [] := by
      rw [hu.here_eq, ht.here_eq, ht.spec_eq]
      exact hplace
    have hremovable₁ : w₁.disk.Removable h.spec.pidFile := by
      rw [ht.spec_eq]
      exact (hu.allows _ (List.mem_singleton_self _)).removable hremovable
    -- the process has ended by now, and only its pid file is still to go
    have hdropped : Undisturbed o .removing [spec.pidFile] w₁ (Plan.left (h.dropPidFile w₁)) :=
      undisturbed_dropPidFile hplace₁
    refine ⟨_, hstop, ht.spec_eq, (hdropped.here_eq.trans hu.here_eq).trans ht.here_eq, fun other hle hlt => .inl ?_,
      fun other hother => ?_, fun _ => ?_⟩
    · rw [hdropped.next_eq, hu.next_eq] at hlt
      rcases ht.ended other hle hlt with hother | hother
      · exact hdropped.ended other (hu.ended other hother)
      · obtain rfl := Option.some.inj (hchild.symm.trans hother)
        exact hdropped.ended pid hended
    · cases hother
    · have hgone := fileOf?_dropPidFile hplace₁ hremovable₁
      rwa [ht.spec_eq] at hgone

/-- Passing time changes nothing of what is owned, whether the process ends or not. -/
theorem Tied.pass (ho : Settles o) (hothers : LeftAlone o here spec.pidFile) (ht : Tied o here first spec h w)
    (ms : Nat) :
    Tied o here first spec h (Plan.left (Effect.pass o ms w)) := by
  obtain ⟨hhere, hfile, hremovable⟩ := hothers ms w.disk w.outside ht.here_eq
  refine ⟨ht.spec_eq, hhere, fun pid hle hlt => (ht.ended pid hle hlt).imp_left (ho.pass pid ms _ _),
    fun pid hpid => ?_, fun hnone => hfile.trans (ht.free hnone)⟩
  obtain ⟨⟨x, hx⟩, hr⟩ := ht.owned pid hpid
  exact ⟨⟨x, hfile.trans hx⟩, hremovable hr⟩

/-! ## Any number of operations -/

section Lifecycle

variable (ho : Settles o) (hothers : LeftAlone o here spec.pidFile) (hapart : Apart here spec.dataDir spec.pidFile)
include ho hothers hapart

theorem Tied.perform (e : Event) {s : Handle × World σ} (ht : Tied o here first spec s.1 s.2) :
    Tied o here first spec (e.perform o s).1 (e.perform o s).2 := by
  cases e with
  | start =>
    show Tied o here first spec (behind s.1 (s.1.start o s.2)).1 (behind s.1 (s.1.start o s.2)).2
    cases hchild : s.1.child with
    | some pid =>
      rw [start_of_isSome (by rw [hchild]; rfl)]
      exact ht
    | none =>
      rcases ht.start ho hapart hchild with ⟨pid, w', hstart, ht'⟩ | ⟨f, w', hstart, -, ht'⟩
      · rw [hstart]
        exact ht'
      · rw [hstart]
        exact ht'
  | stop =>
    show Tied o here first spec (behind s.1 (s.1.stop o s.2)).1 (behind s.1 (s.1.stop o s.2)).2
    obtain ⟨w', hstop, ht'⟩ := ht.stop ho hothers hapart.ne_root
    rw [hstop]
    exact ht'
  | pass ms => exact ht.pass ho hothers ms

theorem Tied.performAll (events : List Event) {s : Handle × World σ} (ht : Tied o here first spec s.1 s.2) :
    Tied o here first spec (Runs.performAll o events s).1 (Runs.performAll o events s).2 := by
  induction events generalizing s with
  | nil => exact ht
  | cons e events ih => exact ih (ht.perform ho hothers hapart e)

end Lifecycle

/-! ## What holds at any time -/

section Tied

variable (hapart : Apart here spec.dataDir spec.pidFile)

theorem Tied.recorded_iff (ht : Tied o here first spec h w) :
    w.disk.fileOf? spec.pidFile ≠ none ↔ h.child.isSome = true := by
  cases hchild : h.child with
  | none =>
    refine ⟨fun hthere => absurd (ht.free hchild) hthere, fun hnone => ?_⟩
    cases hnone
  | some pid =>
    obtain ⟨⟨x, hx⟩, -⟩ := ht.owned pid hchild
    rw [hx]
    exact ⟨fun _ => rfl, fun _ => Option.some_ne_none _⟩

include hapart

/-- Starting a handle fails as started already only if it owns a process. -/
theorem Tied.isSome_child (ho : Settles o) (ht : Tied o here first spec h w) {name : String}
    (hfails : h.start o w = .error (.alreadyStarted name) w') : h.child.isSome = true := by
  cases hchild : h.child with
  | some pid => rfl
  | none =>
    rcases ht.start ho hapart hchild with ⟨pid, w₁, hstart, -⟩ | ⟨f, w₁, hstart, hother, -⟩
    · rw [hstart] at hfails
      cases hfails
    · rw [hstart] at hfails
      cases hfails
      exact absurd rfl (hother name)

/-- If starting a handle fails otherwise, nothing is owned, running or recorded. -/
theorem Tied.start_error (ho : Settles o) (ht : Tied o here first spec h w) {f : Fault}
    (hfails : h.start o w = .error f w') (hother : ∀ name, f ≠ .alreadyStarted name) :
    h.child = none ∧ (∀ pid, first ≤ pid → pid < w'.nextProcess → Ended o pid w'.outside) ∧
      w'.disk.fileOf? spec.pidFile = none := by
  cases hchild : h.child with
  | some pid =>
    rw [start_of_isSome (by rw [hchild]; rfl)] at hfails
    cases hfails
    exact absurd rfl (hother _)
  | none =>
    rcases ht.start ho hapart hchild with ⟨pid, w₁, hstart, -⟩ | ⟨f₁, w₁, hstart, -, ht'⟩
    · rw [hstart] at hfails
      cases hfails
    · rw [hstart] at hfails
      cases hfails
      exact ⟨rfl, ht'.all_ended hchild, ht'.free hchild⟩

end Tied

/-- Whatever is done with a new handle whose file there is none yet, and whenever its process ends, the following holds
then. Killing a process has to take effect, others have to leave the file alone, and it has to be none of the files that
are written to the data directory.

* Starting fails as started already exactly if a process is owned, and then changes nothing.
* If starting fails otherwise, no process is owned or running, and none is recorded.
* A process is owned exactly if there is the file that records one, and the file holds the number of that process.
* Stopping never fails and leaves no process owned. To stop once more changes nothing, and to start goes as for a new
  handle. -/
theorem handle_lifecycle (o : Outside σ) (spec : LaunchSpec) (w₀ : World σ) (ho : Settles o)
    (hothers : LeftAlone o w₀.disk.here spec.pidFile) (hapart : Apart w₀.disk.here spec.dataDir spec.pidFile)
    (habsent : w₀.disk.fileOf? spec.pidFile = none) (events : List Event) (h : Handle) (w : World σ)
    (hreached : performAll o events ({ spec }, w₀) = (h, w)) :
    ((∃ name w', h.start o w = .error (.alreadyStarted name) w') ↔ h.child.isSome = true) ∧
    (h.child.isSome = true → h.start o w = .error (.alreadyStarted spec.name) w) ∧
    (∀ f w', h.start o w = .error f w' → (∀ name, f ≠ .alreadyStarted name) →
      h.child = none ∧ (∀ pid, w₀.nextProcess ≤ pid → pid < w'.nextProcess → Ended o pid w'.outside) ∧
        w'.disk.fileOf? spec.pidFile = none) ∧
    (w.disk.fileOf? spec.pidFile ≠ none ↔ h.child.isSome = true) ∧
    (∀ pid, h.child = some pid → ∃ x, w.disk.fileOf? spec.pidFile = some (.text (toString pid ++ "\n"), x)) ∧
    ∃ h' w', h.stop o w = .ok h' w' ∧ h'.child = none ∧ h'.stop o w' = .ok h' w' ∧
      h'.start o w' = Handle.start o { spec } w' := by
  have ht : Tied o w₀.disk.here w₀.nextProcess spec h w := by
    have hall := Tied.performAll ho hothers hapart events (s := ({ spec }, w₀)) (tied_fresh habsent)
    rwa [hreached] at hall
  have hstarted : h.child.isSome = true → h.start o w = .error (.alreadyStarted spec.name) w := by
    intro hchild
    rw [start_of_isSome hchild, ht.spec_eq]
  have howned : (∃ name w', h.start o w = .error (.alreadyStarted name) w') → h.child.isSome = true := by
    rintro ⟨name, w', hfails⟩
    exact ht.isSome_child hapart ho hfails
  obtain ⟨w', hstop, ht'⟩ := ht.stop ho hothers hapart.ne_root
  refine ⟨⟨howned, fun hchild => ⟨spec.name, w, hstarted hchild⟩⟩, hstarted,
    fun f w' hfails hother => ht.start_error hapart ho hfails hother, ht.recorded_iff,
    fun pid hpid => (ht.owned pid hpid).1, { h with child := none }, w', hstop, rfl,
    stop_of_none rfl (ht'.spec_eq.symm ▸ ht'.free rfl), ?_⟩
  rw [start_of_none rfl, start_of_none rfl, ht'.spec_eq]

/-- A service with its data directory and its file side by side. -/
def loneService : LaunchSpec :=
  { name := "al", executable := "svc", dataDir := "out/al", pidFile := "out/al.pid", ports := ⟨1, 2, 3⟩,
    username := "u", password := "p", genesis := none, addressPrefix := "XTS", knownPrefixes := [],
    debugStop := false, extraArgs := [], stopGrace := 500 }

/-- A handle that is started, started once more, stopped and started again. -/
theorem handle_lifecycle_restarted :
    (performAll stubborn [.start, .start, .pass 100, .stop, .start] ({ spec := loneService }, blankWorld)).1.child =
      some 1001 ∧
    (performAll stubborn [.start, .start, .pass 100, .stop, .start]
        ({ spec := loneService }, blankWorld)).2.disk.fileOf? "out/al.pid" = some (.text "1001\n", false) ∧
    (performAll stubborn [.start] ({ spec := loneService }, blankWorld)).1.start stubborn
        (performAll stubborn [.start] ({ spec := loneService }, blankWorld)).2 =
      .error (.alreadyStarted "al") (performAll stubborn [.start] ({ spec := loneService }, blankWorld)).2 ∧
    ∃ h' w', (performAll stubborn [.start] ({ spec := loneService }, blankWorld)).1.stop stubborn
        (performAll stubborn [.start] ({ spec := loneService }, blankWorld)).2 = .ok h' w' ∧ h'.child = none ∧
      h'.stop stubborn w' = .ok h' w' ∧ h'.start stubborn w' = Handle.start stubborn { spec := loneService } w' := by
  have hothers : LeftAlone stubborn "/" "out/al.pid" := fun _ _ _ hhere => ⟨hhere, rfl, id⟩
  have hapart : Apart "/" "out/al" "out/al.pid" := apart_of_endsInPid ⟨"al", by decide +kernel⟩ _
  obtain ⟨-, hstarted, -, -, -, hstopped⟩ := handle_lifecycle stubborn loneService blankWorld settles_stubborn hothers
    hapart rfl [.start] _ _ (Prod.eta (performAll stubborn [.start] ({ spec := loneService }, blankWorld))).symm
  exact ⟨by decide +kernel, by decide +kernel, hstarted (by decide +kernel), hstopped⟩

end Conformance.Runs
