import Conformance.Cli.Command
import Conformance.Machine.Outside
import Conformance.Proofs.Runs.Lifecycle

/-!
# The paths that a service is launched with

A service is told by paths where its data directory and its genesis are. They are the paths that these have been prepared
by, but the service starts in its data directory and follows them from there. A path goes up out of its start and then
down (`bearing`), so it leads to the same place from where it leads itself only if it goes down as far as it has gone up
(`place_join_self_iff`). Hence a service finds what has been prepared for it if its data directory is an absolute path,
and does not if that is relative and below where it is followed from, as it usually is.
-/
namespace Conformance.Files.Path

/-! ## Up and down -/

/-- How many directories names lead up out of their start, and the names that they lead down from there. -/
def bearing (names : List String) : Nat × List String :=
  names.foldl step (0, [])
where
  step (b : Nat × List String) (name : String) : Nat × List String :=
    if name = "." then b
    else if name = ".." then if b.2 = [] then (b.1 + 1, []) else (b.1, b.2.dropLast)
    else (b.1, b.2 ++ [name])

theorem bearing_concat (names : List String) (name : String) :
    bearing (names ++ [name]) = bearing.step (bearing names) name := by
  rw [bearing, List.foldl_append]
  rfl

/-- Up first, then down. Nothing is above the root. -/
theorem walk_eq (place names : List String) :
    walk place names = place.take (place.length - (bearing names).1) ++ (bearing names).2 := by
  induction names using List.reverseRecOn with
  | nil => exact (List.take_length (l := place)).symm.trans (List.append_nil _).symm
  | append_singleton names name ih =>
    have hstep : walk place (names ++ [name]) = resolved.step (walk place names) name := by
      rw [walk, List.foldl_append]
      rfl
    rw [hstep, ih, bearing_concat, resolved.step, bearing.step]
    -- one name more changes what has been led down to, or goes one up where that is used up
    by_cases hdot : name = "."
    · rw [if_pos hdot, if_pos hdot]
    · rw [if_neg hdot, if_neg hdot]
      by_cases hup : name = ".."
      · rw [if_pos hup, if_pos hup]
        by_cases hdown : (bearing names).2 = []
        · rw [if_pos hdown, hdown, List.append_nil, List.append_nil, List.dropLast_eq_take, List.take_take,
            List.length_take]
          congr 1
          omega
        · rw [if_neg hdown, List.dropLast_append_of_ne_nil hdown]
      · rw [if_neg hup, if_neg hup, List.append_assoc]

theorem bearing_of_climb? {done names l : List String} (h : climb? done names = some l) (up : Nat) :
    names.foldl bearing.step (up, done) = (up, l) := by
  induction names generalizing done with
  | nil =>
    obtain rfl := Option.some.inj h
    rfl
  | cons name rest ih =>
    rw [climb?] at h
    rw [List.foldl_cons, bearing.step]
    split at h
    · rename_i hdot
      rw [if_pos hdot]
      exact ih h
    · rename_i hdot
      rw [if_neg hdot]
      split at h
      · rename_i hup
        rw [if_pos hup]
        split at h
        · cases h
        · rename_i hne
          rw [if_neg hne]
          exact ih h
      · rename_i hup
        rw [if_neg hup]
        exact ih h

/-- Followed once more from where it leads, the path leads there again: it is absolute, it goes down as far as it has gone
up, or it goes up to the root and down no farther than it could have gone up. -/
def LeadsBack (here path : String) : Prop :=
  isAbsolute path = true ∨ (bearing (names path)).2.length = (bearing (names path)).1 ∨
    (resolved here).length ≤ (bearing (names path)).1 ∧ (bearing (names path)).2.length ≤ (bearing (names path)).1

theorem place_join_self_iff (here path : String) : place (join here path) path = place here path ↔ LeadsBack here path := by
  rw [LeadsBack, place_eq_walk (join here path)]
  cases habs : isAbsolute path with
  | true =>
    rw [place_eq_walk here, habs]
    simp
  | false =>
    have hplace : place here path = walk (resolved here) (names path) := by
      rw [place_eq_walk, habs]
      rfl
    have hagain : walk (if false = true then [] else resolved (join here path)) (names path) =
        walk (place here path) (names path) := rfl
    rw [hagain, hplace, walk_eq _ (names path), walk_eq (resolved here) (names path), List.append_left_inj]
    generalize resolved here = start
    obtain ⟨up, down⟩ := bearing (names path)
    have hlength : (start.take (start.length - up)).length = start.length - up := by
      rw [List.length_take]
      omega
    dsimp only
    constructor
    · intro h
      have hfront := congrArg List.length h
      rw [List.length_take, List.length_append, hlength] at hfront
      right
      omega
    · rintro (h | h)
      · cases h
      · -- what is left behind going up is as long as what the first part had left
        have hleft : (start.take (start.length - up) ++ down).length - up = (start.take (start.length - up)).length := by
          rw [List.length_append, hlength]
          omega
        rw [hleft, List.take_left]

/-- A file in the directory that the path leads to is found by this path if the directory is. -/
theorem place_join_file_iff {name : String} (h : Plain name) (here path : String) :
    place (join here path) (join path name) = place here (join path name) ↔ LeadsBack here path := by
  rw [place_join_of_plain h, place_join_of_plain h, List.append_left_inj, place_join_self_iff]

/-- A path that does not leave its start leads back only if it stays there. -/
theorem leadsBack_iff_of_inner? {path : String} {l : List String} (h : inner? path = some l) (here : String) :
    LeadsBack here path ↔ l = [] := by
  rw [inner?] at h
  split at h
  · cases h
  · rename_i hrel
    have hbearing : bearing (names path) = (0, l) := bearing_of_climb? h 0
    rw [LeadsBack, hbearing, or_iff_right hrel]
    simp only [Nat.le_zero, List.length_eq_zero_iff]
    exact or_iff_left_of_imp And.right

/-- A way below a start is the same below a directory. -/
theorem climb?_below {done names l : List String} (h : climb? done names = some l) (dir : List String) :
    climb? (dir ++ done) names = some (dir ++ l) := by
  induction names generalizing done with
  | nil =>
    obtain rfl := Option.some.inj h
    rfl
  | cons name rest ih =>
    rw [climb?] at h ⊢
    split at h
    · rename_i hdot
      rw [if_pos hdot]
      exact ih h
    · rename_i hdot
      rw [if_neg hdot]
      split at h
      · rename_i hup
        rw [if_pos hup]
        split at h
        · cases h
        · rename_i hne
          rw [if_neg (List.append_ne_nil_of_right_ne_nil dir hne), List.dropLast_append_of_ne_nil hne]
          exact ih h
      · rename_i hup
        rw [if_neg hup, List.append_assoc]
        exact ih h

theorem inner?_join {path more : String} {l m : List String} (hl : inner? path = some l) (hm : inner? more = some m) :
    inner? (join path more) = some (l ++ m) := by
  rw [inner?] at hl hm
  split at hl
  · cases hl
  · rename_i hpath
    split at hm
    · cases hm
    · rename_i hmore
      have hrel : ¬ isAbsolute (join path more) = true := by
        rw [isAbsolute_join, Bool.or_eq_true]
        exact not_or.2 ⟨hmore, hpath⟩
      have hbelow := climb?_below hm l
      rw [List.append_nil] at hbelow
      rw [inner?, if_neg hrel, names_join_of_relative (Bool.not_eq_true _ ▸ hmore), climb?_append, hl]
      exact hbelow

end Conformance.Files.Path

namespace Conformance.Runs

open Files Service

variable {σ : Type} {w w' : World σ} {spec : LaunchSpec}

/-! ## What is prepared -/

/-- The options of the command line that tell a service where something has been prepared for it, with the paths. -/
def pathOptions (spec : LaunchSpec) : List (String × String) :=
  (spec.genesis.map fun _ => ("--genesis-config", Path.join spec.dataDir genesisFile)).toList ++
    [("--data-dir", spec.dataDir)]

/-- What the path of an option leads to is there, for those who follow it from where the path was prepared. -/
def AllThere (disk : Disk) (spec : LaunchSpec) : Prop :=
  ∀ option ∈ pathOptions spec, ∃ entry, disk.root.at? (Path.place disk.here option.2) = some entry

theorem plain_genesisFile : Path.Plain genesisFile := (plain_of_mem_dataFiles (by simp [dataFiles])).1

/-- One file of a directory stays as it is when another one is written. -/
theorem fileOf?_writeBeside {d d' : Disk} {dir name other text : String} (hname : Path.Plain name)
    (hother : Path.Plain other) (hne : name ≠ other) (h : d.writeText (Path.join dir name) text = .ok d') :
    d'.here = d.here ∧ d'.fileOf? (Path.join dir other) = d.fileOf? (Path.join dir other) := by
  obtain ⟨-, -, x, rfl⟩ := writeText_eq_ok h
  refine ⟨rfl, Option.ext fun f => ?_⟩
  rw [fileOf?_eq_some, fileOf?_eq_some]
  dsimp only
  refine at?_setAt_of_not_below ?_ _ _ _ _
  rw [Path.place_join_of_plain hname, Path.place_join_of_plain hother, List.prefix_append_right_inj]
  intro habove
  exact hne (List.cons.inj (habove.eq_of_length rfl)).1

theorem hasDir_of_writeText {d d' : Disk} {dir name text : String} (hname : Path.Plain name)
    (h : d.writeText (Path.join dir name) text = .ok d') : d'.root.HasDir (Path.place d'.here dir) := by
  have hne : Path.place d.here (Path.join dir name) ≠ [] := by
    rw [Path.place_join_of_plain hname]
    exact List.concat_ne_nil _ _
  obtain ⟨x, hfile⟩ := fileOf?_writeText h hne
  rw [fileOf?_eq_some, Path.place_join_of_plain hname] at hfile
  exact hasDir_of_at?_append hfile (List.cons_ne_nil _ _)

theorem onDisk_eq_ok {f : Disk → Except FileError Disk} {u : Unit} (h : Effect.onDisk f w = .ok u w') :
    ∃ disk, f w.disk = .ok disk ∧ w' = { w with disk } := by
  cases hf : f w.disk with
  | ok disk =>
    rw [Plan.onDisk_of_ok hf] at h
    cases h
    exact ⟨disk, rfl, rfl⟩
  | error e =>
    rw [Plan.onDisk_of_error hf] at h
    cases h

theorem withDisk_eq_ok {α : Type} {f : Disk → Except Fault (α × Disk)} {a : α} (h : Effect.withDisk f w = .ok a w') :
    ∃ disk, f w.disk = .ok (a, disk) ∧ w' = { w with disk } := by
  cases hf : f w.disk with
  | ok done =>
    rw [withDisk_of_ok hf] at h
    cases h
    exact ⟨done.2, rfl, rfl⟩
  | error fault =>
    rw [withDisk_of_error hf] at h
    cases h

/-- What is prepared behind the genesis. -/
def prepareRest (spec : LaunchSpec) (genesis : Option String) : Effect σ (Option String) := do
  let _ ← Effect.withDisk fun disk => writeCheckpoints disk spec.dataDir
  Effect.onDisk (·.writeText (Path.join spec.dataDir stdoutFile) "")
  Effect.onDisk (·.writeText (Path.join spec.dataDir stderrFile) "")
  return genesis

/-- The files behind the genesis are written beside it, and their directory is there then. -/
theorem prepareRest_eq_ok {genesis genesis' : Option String} (h : prepareRest spec genesis w = .ok genesis' w') :
    genesis' = genesis ∧ w'.disk.here = w.disk.here ∧ w'.disk.root.HasDir (Path.place w'.disk.here spec.dataDir) ∧
      w'.disk.fileOf? (Path.join spec.dataDir genesisFile) = w.disk.fileOf? (Path.join spec.dataDir genesisFile) := by
  have hplain : ∀ name ∈ dataFiles, Path.Plain name := fun name h => (plain_of_mem_dataFiles h).1
  obtain ⟨path, w₁, hrun₁, h⟩ := Script.run_bind_eq_ok h
  obtain ⟨u, w₂, hrun₂, h⟩ := Script.run_bind_eq_ok h
  obtain ⟨v, w₃, hrun₃, h⟩ := Script.run_bind_eq_ok h
  cases h
  obtain ⟨disk₁, hcheckpoints, rfl⟩ := withDisk_eq_ok hrun₁
  obtain ⟨disk₂, hstdout, rfl⟩ := onDisk_eq_ok hrun₂
  obtain ⟨disk₃, hstderr, rfl⟩ := onDisk_eq_ok hrun₃
  obtain ⟨hhere₁, hfile₁⟩ := fileOf?_writeBeside (hplain checkpointsFile (by simp [dataFiles])) plain_genesisFile
    (by decide) (writeCheckpoints_eq_ok hcheckpoints)
  obtain ⟨hhere₂, hfile₂⟩ := fileOf?_writeBeside (hplain stdoutFile (by simp [dataFiles])) plain_genesisFile
    (by decide) hstdout
  obtain ⟨hhere₃, hfile₃⟩ := fileOf?_writeBeside (hplain stderrFile (by simp [dataFiles])) plain_genesisFile
    (by decide) hstderr
  exact ⟨rfl, (hhere₃.trans hhere₂).trans hhere₁,
    hasDir_of_writeText (hplain stderrFile (by simp [dataFiles])) hstderr, (hfile₃.trans hfile₂).trans hfile₁⟩

/-- When the data directory has been prepared, what the command line tells of is there. -/
theorem prepare_eq_ok {genesis : Option String} (h : Handle.prepare spec w = .ok genesis w') :
    genesis = (spec.genesis.map fun _ => Path.join spec.dataDir genesisFile) ∧ w'.disk.here = w.disk.here ∧
      AllThere w'.disk spec := by
  obtain ⟨u, w₁, hrun₁, h⟩ := Script.run_bind_eq_ok h
  obtain ⟨disk₁, hcreate, rfl⟩ := onDisk_eq_ok hrun₁
  have hhere₁ : disk₁.here = w.disk.here := (spares_createDirs hcreate spec.dataDir).here_eq
  cases hbase : spec.genesis with
  | none =>
    rw [hbase] at h
    have hrest : prepareRest spec none { w with disk := disk₁ } = .ok genesis w' := h
    obtain ⟨rfl, hhere, ⟨entries, hdir⟩, -⟩ := prepareRest_eq_ok hrest
    refine ⟨rfl, hhere.trans hhere₁, fun option hoption => ?_⟩
    rw [pathOptions, hbase] at hoption
    obtain rfl := List.mem_singleton.1 hoption
    exact ⟨_, hdir⟩
  | some base =>
    rw [hbase] at h
    -- the genesis is written first, and is there still when the rest has been written beside it
    obtain ⟨path, w₂, hrun₂, h⟩ := Script.run_bind_eq_ok h
    obtain ⟨disk₂, hgenesis, rfl⟩ := withDisk_eq_ok hrun₂
    obtain ⟨rfl, text, hwrite⟩ := writeGenesis_eq_ok hgenesis
    have hrest : prepareRest spec (some (Path.join spec.dataDir genesisFile)) { w with disk := disk₂ } =
      .ok genesis w' := h
    obtain ⟨rfl, hhere, ⟨entries, hdir⟩, hfile⟩ := prepareRest_eq_ok hrest
    have hne : Path.place disk₁.here (Path.join spec.dataDir genesisFile) ≠ [] := by
      rw [Path.place_join_of_plain plain_genesisFile]
      exact List.concat_ne_nil _ _
    obtain ⟨x, hwritten⟩ := fileOf?_writeText hwrite hne
    have hhere₂ : disk₂.here = disk₁.here := by
      obtain ⟨-, -, y, rfl⟩ := writeText_eq_ok hwrite
      rfl
    refine ⟨rfl, (hhere.trans hhere₂).trans hhere₁, fun option hoption => ?_⟩
    rw [pathOptions, hbase] at hoption
    rcases List.mem_cons.1 hoption with rfl | hoption
    · exact ⟨_, fileOf?_eq_some.1 (hfile.trans hwritten)⟩
    · obtain rfl := List.mem_singleton.1 hoption
      exact ⟨_, hdir⟩

/-! ## What is launched -/

/-- The options stand on the command line one behind the other. -/
theorem pathOptions_infix_args (spec : LaunchSpec) :
    (pathOptions spec).flatMap (fun option => [option.1, option.2]) <:+:
      spec.args (spec.genesis.map fun _ => Path.join spec.dataDir genesisFile) := by
  refine ⟨(spec.args none).take 16, ["--server"] ++ (if spec.debugStop then ["--debug-stop"] else []) ++ spec.extraArgs, ?_⟩
  unfold pathOptions LaunchSpec.args
  cases spec.genesis with
  | none => simp
  | some base => simp

/-- Each path leads to the same place from the data directory exactly if the data directory leads back. -/
theorem place_option_iff {option : String × String} (h : option ∈ pathOptions spec) (here : String) :
    Path.place (Path.join here spec.dataDir) option.2 = Path.place here option.2 ↔ Path.LeadsBack here spec.dataDir := by
  rw [pathOptions] at h
  rcases List.mem_append.1 h with h | h
  · obtain ⟨base, -, rfl⟩ := Option.map_eq_some_iff.1 (Option.mem_toList.1 h)
    exact Path.place_join_file_iff plain_genesisFile here spec.dataDir
  · obtain rfl := List.mem_singleton.1 h
    exact Path.place_join_self_iff here spec.dataDir

/-- The data directory of a service leads back if the output directory is an absolute path, and does not if that is
relative and does not leave its start. -/
theorem leadsBack_dataDir (p : Plan) (c : Cases.ClientSpec) (here : String) :
    (Path.isAbsolute p.settings.runner.outDir = true → Path.LeadsBack here (p.dataDir c)) ∧
    ((Path.inner? p.settings.runner.outDir).isSome = true → Path.Inner p.case.name → (Path.inner? c.name).isSome = true →
      ¬ Path.LeadsBack here (p.dataDir c)) := by
  constructor
  · intro habs
    refine .inl ?_
    rw [Plan.dataDir, Plan.testDir, testOutDir]
    simp only [Path.isAbsolute_join, habs, Bool.or_true]
  · rintro hout ⟨m, hm, hcase⟩ hclient
    obtain ⟨l, hout⟩ := Option.isSome_iff_exists.1 hout
    obtain ⟨n, hclient⟩ := Option.isSome_iff_exists.1 hclient
    have hdata : Path.inner? (p.dataDir c) = some (l ++ m ++ n) :=
      Path.inner?_join (Path.inner?_join hout hcase) hclient
    rw [Path.leadsBack_iff_of_inner? hdata]
    simp [hm]

/-- A service that has been started was launched with the paths of its data directory and of the genesis, if there is one,
which were there as seen from where the program works. The service follows them from its data directory. So it finds what
has been prepared for it exactly if the path of its data directory leads back: if that is absolute, or goes down as far as
it has gone up, or goes up to the root and down no farther than that. With an absolute output directory it does, and with
one that is relative and does not leave its start, as the usual one, it does not. -/
theorem launch_paths_found_iff (o : Outside σ) (h h' : Handle) (w w' : World σ) (hstart : h.start o w = .ok h' w') :
    ∃ (w₁ : World σ) (launched : Launch) (s : σ), o.launch w₁.nextProcess launched w₁.disk w₁.outside = .ok s ∧ w₁.disk.here = w.disk.here ∧
      launched.directory = h.spec.dataDir ∧
      (pathOptions h.spec).flatMap (fun option => [option.1, option.2]) <:+: launched.args ∧
      (∀ option ∈ pathOptions h.spec, ∃ entry, w₁.disk.root.at? (Path.place w.disk.here option.2) = some entry) ∧
      (∀ option ∈ pathOptions h.spec,
        Path.place (Path.join w.disk.here launched.directory) option.2 = Path.place w.disk.here option.2 ↔
          Path.LeadsBack w.disk.here h.spec.dataDir) ∧
      ∀ (p : Plan) (c : Cases.ClientSpec) (executable : String) (ports : ServicePorts),
        h.spec = p.launchSpec c executable ports →
        (Path.isAbsolute p.settings.runner.outDir = true → Path.LeadsBack w.disk.here h.spec.dataDir) ∧
        ((Path.inner? p.settings.runner.outDir).isSome = true → Path.Inner p.case.name →
          (Path.inner? c.name).isSome = true → ¬ Path.LeadsBack w.disk.here h.spec.dataDir) := by
  cases hchild : h.child with
  | some pid =>
    rw [start_of_isSome (by rw [hchild]; rfl)] at hstart
    cases hstart
  | none =>
    rw [start_of_none hchild] at hstart
    obtain ⟨genesis, w₁, hprepare, hstart⟩ := Script.run_bind_eq_ok hstart
    obtain ⟨pid, w₂, hlaunch, -⟩ := Script.run_bind_eq_ok hstart
    obtain ⟨rfl, hhere, hthere⟩ := prepare_eq_ok hprepare
    rcases launch_cases o h.spec (h.spec.genesis.map fun _ => Path.join h.spec.dataDir genesisFile) w₁ with
      ⟨message, hfails⟩ | ⟨launched, s, ⟨hdirectory, hargs⟩, hlaunched, -⟩
    · cases hfails.symm.trans hlaunch
    · refine ⟨w₁, launched, s, hlaunched, hhere, hdirectory, hargs.symm ▸ pathOptions_infix_args h.spec,
        hhere ▸ hthere, fun option hoption => ?_, ?_⟩
      · rw [hdirectory]
        exact place_option_iff hoption _
      · intro p c executable ports hspec
        rw [hspec]
        exact leadsBack_dataDir p c w.disk.here

/-- A service with a relative data directory does not find it. -/
theorem launch_paths_found_iff_lone_service :
    ∃ h' w', Handle.start stubborn { spec := loneService } blankWorld = .ok h' w' ∧
      ∃ (w₁ : World (List Nat)) (launched : Launch) (s : List Nat),
        stubborn.launch w₁.nextProcess launched w₁.disk w₁.outside = .ok s ∧
        launched.directory = loneService.dataDir ∧
        (∃ entry, w₁.disk.root.at? (Path.place blankWorld.disk.here loneService.dataDir) = some entry) ∧
        Path.place (Path.join blankWorld.disk.here launched.directory) loneService.dataDir ≠
          Path.place blankWorld.disk.here loneService.dataDir := by
  have hok : (match Handle.start stubborn { spec := loneService } blankWorld with
    | .ok _ _ => true
    | .error _ _ => false) = true := by decide +kernel
  cases hstart : Handle.start stubborn { spec := loneService } blankWorld with
  | error f w' =>
    rw [hstart] at hok
    cases hok
  | ok h' w' =>
    obtain ⟨w₁, launched, s, hlaunched, -, hdirectory, -, hthere, hfound, -⟩ :=
      launch_paths_found_iff stubborn { spec := loneService } h' blankWorld w' hstart
    have hoption : ("--data-dir", loneService.dataDir) ∈ pathOptions loneService := List.mem_singleton_self _
    have hinner : Path.inner? loneService.dataDir = some ["out", "al"] := by decide +kernel
    have hmissed : ¬ Path.LeadsBack blankWorld.disk.here loneService.dataDir :=
      mt (Path.leadsBack_iff_of_inner? hinner blankWorld.disk.here).1 (List.cons_ne_nil _ _)
    have hprepared := hthere _ hoption
    have hlost := mt (hfound _ hoption).1 hmissed
    dsimp only at hprepared hlost
    exact ⟨h', w', rfl, w₁, launched, s, hlaunched, hdirectory, hprepared, hlost⟩

/-- With the usual settings a service that tells by its exit code whether there are checkpoints in its data directory, 3
if there are and 4 if there are none, ends with 4. The checkpoints are there. -/
theorem checkpoints_missed :
    let o : Cli.RunOptions := { paths := ["t"], client := some "/svc.sh" }
    let script := "#!/bin/sh\nif [ -e \"$\x7b18\x7d/checkpoints.json\" ]; then exit 3; fi\nexit 4\n"
    let w : World Machine.Machine :=
      { disk := ⟨.dir [("t", .dir [("testenv.yaml", .file (.text "clients:\n  - name: al\n") false),
            ("01.btstest", .file (.text "") false)]),
          ("svc.sh", .file (.text script) true), ("bin", .dir [("sh", .file (.text "") true)])], "/"⟩
        outside := {} }
    let r := Cli.runTests Machine.outside (fun _ => "") none o w
    let fault := "Failed to start service process: 'al' exited before answering RPC (exit status: 4), " ++
      "see btstests/out/t/al/stderr.txt\n"
    r.1.stdout = "Running 1 test (1 at a time)\n✗ t : " ++ fault ++ "\nAborted t\n  " ++ fault ++
        "\n✗ 0 passed, 1 failed\n" ∧
      r.2.disk.isFile "btstests/out/t/al/checkpoints.json" = true ∧
      Path.place (Path.join "/" "btstests/out/t/al") "btstests/out/t/al" =
        ["btstests", "out", "t", "al", "btstests", "out", "t", "al"] ∧
      Path.place "/" "btstests/out/t/al" = ["btstests", "out", "t", "al"] := by
  decide +kernel

end Conformance.Runs
