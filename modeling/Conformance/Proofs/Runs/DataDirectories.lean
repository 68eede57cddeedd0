import Conformance.Proofs.Files.Places
import Conformance.Runs.Run
import Mathlib.Data.List.Nodup

/-!
# Where a run keeps the data of its clients

The data directory of a client is cleared before its service is launched. It lies below the output directory of every
test, and so do the files beside it, exactly if the name of the client is an inner path (`contained_iff`), and nothing of
that is asked when an environment is read. A name that climbs out of the output directory has the files of somebody else
removed (`stray_name_clears_outside`). If the names are plain, the places of a test differ unless a name is that of the
transcript or of another client's pid file.
-/
namespace Conformance.Runs

open Files Cases Service

/-! ## Accepted environments -/

theorem checkClients_ok {seen : List String} {clients : List ClientSpec}
    (h : Environment.checkClients seen clients = .ok ()) :
    (clients.map (·.name)).Nodup ∧ ∀ c ∈ clients, c.name ∉ seen := by
  induction clients generalizing seen with
  | nil => exact ⟨List.nodup_nil, fun _ hc => absurd hc List.not_mem_nil⟩
  | cons c r ih =>
    rw [Environment.checkClients] at h
    split at h
    · cases h
    · rename_i hseen
      split at h
      · cases h
      · obtain ⟨hnodup, hfresh⟩ := ih h
        have hc : c.name ∉ seen := by simpa using hseen
        refine ⟨List.nodup_cons.2 ⟨fun hmem => ?_, hnodup⟩, List.forall_mem_cons.2 ⟨hc, fun d hd => ?_⟩⟩
        · obtain ⟨d, hd, hname⟩ := List.mem_map.1 hmem
          exact hfresh d hd (hname ▸ List.mem_cons_self)
        · exact fun hmem => hfresh d hd (List.mem_cons_of_mem _ hmem)

theorem validate_ok {e e' : Environment} (h : e.validate = .ok e') :
    e' = e ∧ Environment.checkClients [] e.clients = .ok () := by
  cases hcheck : Environment.checkClients [] e.clients with
  | error f =>
    rw [Environment.validate, hcheck] at h
    cases h
  | ok u =>
    refine ⟨?_, rfl⟩
    rw [Environment.validate, hcheck] at h
    cases hactive : e.active with
    | none =>
      simp only [hactive] at h
      exact (Except.ok.inj h).symm
    | some active =>
      simp only [hactive] at h
      split at h
      · exact (Except.ok.inj h).symm
      · cases h

/-- The clients of an accepted environment have different names. -/
theorem nodup_names {e : Environment} (h : e.validate = .ok e) : (e.clients.map (·.name)).Nodup :=
  (checkClients_ok (validate_ok h).2).1

/-- What is loaded is accepted. -/
theorem validate_of_load {disk : Disk} {dir : String} {e : Environment} (h : Environment.load disk dir = .ok e) :
    e.validate = .ok e := by
  unfold Environment.load at h
  dsimp only at h
  split at h
  · cases h
  · rw [Environment.read] at h
    split at h
    · cases h
    · rename_i e' _
      obtain rfl := (validate_ok h).1
      exact h

/-! ## The places of a run -/

theorem suffix_pid : Path.Suffix ".pid" := ⟨by decide, by decide⟩

theorem plain_transcriptFile : Path.Plain transcriptFile := ⟨by decide, by decide, by decide, by decide⟩

namespace Plan

/-- The clients whose services are launched. -/
def spawned (p : Plan) : List ClientSpec := p.case.environment.clients.filter (·.spawn)

/-- The places of a run: the data directories, the files that record processes, and the transcript. -/
def places (p : Plan) (here : String) : List (List String) :=
  p.spawned.map (fun c => Path.place here (p.dataDir c)) ++
    p.spawned.map (fun c => Path.place here (pidFile p.testDir c.name)) ++
    [Path.place here (Path.join p.testDir transcriptFile)]

/-- The places of a run with these clients as they are seen from the output directory of the test, if they are inside. -/
def innerPlaces (clients : List ClientSpec) : List (Option (List String)) :=
  clients.map (fun c => Path.inner? c.name) ++ clients.map (fun c => Path.inner? (c.name ++ ".pid")) ++
    [Path.inner? transcriptFile]

variable (p : Plan) (here : String)

theorem below_dataDir {c : ClientSpec} (h : Path.Inner c.name) :
    Path.Below (Path.place here p.testDir) (Path.place here (p.dataDir c)) :=
  h.below here p.testDir

theorem below_pidFile {c : ClientSpec} (h : Path.Inner c.name) :
    Path.Below (Path.place here p.testDir) (Path.place here (pidFile p.testDir c.name)) := by
  obtain ⟨l, -, hl⟩ := h
  exact (Path.inner_append suffix_pid (Option.isSome_iff_exists.2 ⟨l, hl⟩)).below here p.testDir

theorem isSome_of_mem_innerPlaces {clients : List ClientSpec} (h : ∀ c ∈ clients, Path.Inner c.name) :
    ∀ o ∈ innerPlaces clients, o.isSome = true := by
  have hsome : ∀ {path : String}, Path.Inner path → (Path.inner? path).isSome = true := by
    rintro path ⟨l, -, hl⟩
    exact Option.isSome_iff_exists.2 ⟨l, hl⟩
  intro o ho
  rcases List.mem_append.1 ho with ho | ho
  · rcases List.mem_append.1 ho with ho | ho
    · obtain ⟨c, hc, rfl⟩ := List.mem_map.1 ho
      exact hsome (h c hc)
    · obtain ⟨c, hc, rfl⟩ := List.mem_map.1 ho
      exact hsome (Path.inner_append suffix_pid (hsome (h c hc)))
  · rw [List.mem_singleton.1 ho]
    exact hsome plain_transcriptFile.inner

/-- The places are those that are seen from the output directory. -/
theorem places_eq_map (h : ∀ c ∈ p.spawned, Path.Inner c.name) :
    p.places here = (innerPlaces p.spawned).map fun o => Path.place here p.testDir ++ o.getD [] := by
  have hplace : ∀ {path : String}, Path.Inner path →
      Path.place here (Path.join p.testDir path) = Path.place here p.testDir ++ (Path.inner? path).getD [] := by
    rintro path ⟨l, -, hl⟩
    rw [Path.place_join_of_inner? hl, hl]
    rfl
  have hdata : ∀ c ∈ p.spawned, Path.place here (p.dataDir c) =
      Path.place here p.testDir ++ (Path.inner? c.name).getD [] := by
    intro c hc
    rw [dataDir, hplace (h c hc)]
  have hpid : ∀ c ∈ p.spawned, Path.place here (pidFile p.testDir c.name) =
      Path.place here p.testDir ++ (Path.inner? (c.name ++ ".pid")).getD [] := by
    intro c hc
    obtain ⟨l, -, hl⟩ := h c hc
    rw [pidFile, hplace (Path.inner_append suffix_pid (Option.isSome_iff_exists.2 ⟨l, hl⟩))]
  rw [places, innerPlaces, List.map_congr_left hdata, List.map_congr_left hpid, hplace plain_transcriptFile.inner]
  simp only [List.map_append, List.map_map, List.map_cons, List.map_nil]
  rfl

/-- Places below the output directory differ exactly if they differ as they are seen from there. -/
theorem nodup_places_iff (h : ∀ c ∈ p.spawned, Path.Inner c.name) :
    (p.places here).Nodup ↔ (innerPlaces p.spawned).Nodup := by
  rw [places_eq_map p here h]
  refine ⟨List.Nodup.of_map _, fun hnodup => hnodup.map_on fun a ha b hb heq => ?_⟩
  obtain ⟨l, rfl⟩ := Option.isSome_iff_exists.1 (isSome_of_mem_innerPlaces h a ha)
  obtain ⟨m, rfl⟩ := Option.isSome_iff_exists.1 (isSome_of_mem_innerPlaces h b hb)
  exact congrArg some (List.append_cancel_left heq)

theorem append_pid_ne_transcriptFile (name : String) : name ++ ".pid" ≠ transcriptFile := by
  intro h
  have hlast := congrArg (fun s => s.toList.getLast?) h
  simp only [String.toList_append] at hlast
  rw [show ".pid".toList = ['.', 'p', 'i'] ++ ['d'] by decide, ← List.append_assoc, List.getLast?_concat] at hlast
  exact absurd hlast (by decide)

/-- The places of clients with plain names differ unless one is the transcript or the pid file of another one. -/
theorem nodup_innerPlaces_iff {clients : List ClientSpec} (hnames : (clients.map (·.name)).Nodup)
    (h : ∀ c ∈ clients, Path.Plain c.name) :
    (innerPlaces clients).Nodup ↔ ∀ c ∈ clients, c.name ≠ transcriptFile ∧ ∀ d ∈ clients, c.name ≠ d.name ++ ".pid" := by
  have hpids : (clients.map fun c => c.name ++ ".pid").Nodup := by
    rw [show (clients.map fun c => c.name ++ ".pid") = (clients.map (·.name)).map (· ++ ".pid") by simp]
    exact hnames.map fun a b heq => String.append_left_inj _ |>.1 heq
  -- plain names are places of their own, so that names are compared in place of places
  have hplaces : innerPlaces clients = (clients.map (·.name) ++ clients.map (fun c => c.name ++ ".pid") ++
      [transcriptFile]).map fun name => some [name] := by
    rw [innerPlaces, List.map_append, List.map_append, List.map_map, List.map_map, List.map_singleton,
      plain_transcriptFile.inner?]
    congr 2
    · exact List.map_congr_left fun c hc => (h c hc).inner?
    · exact List.map_congr_left fun c hc => (suffix_pid.plain (h c hc).no_slash).inner?
  have hinj : Function.Injective fun name : String => some [name] := by
    intro a b heq
    exact (List.cons.inj (Option.some.inj heq)).1
  rw [hplaces, List.nodup_map_iff hinj, List.nodup_append, List.nodup_append]
  constructor
  · rintro ⟨⟨-, -, hpid⟩, -, htranscript⟩ c hc
    have hmem : c.name ∈ clients.map (·.name) := List.mem_map.2 ⟨c, hc, rfl⟩
    refine ⟨htranscript _ (List.mem_append_left _ hmem) _ (List.mem_singleton_self _), fun d hd => ?_⟩
    exact hpid _ hmem _ (List.mem_map.2 ⟨d, hd, rfl⟩)
  · intro hdiffer
    refine ⟨⟨hnames, hpids, fun a ha b hb => ?_⟩, List.nodup_singleton _, fun a ha b hb => ?_⟩
    · obtain ⟨c, hc, rfl⟩ := List.mem_map.1 ha
      obtain ⟨d, hd, rfl⟩ := List.mem_map.1 hb
      exact (hdiffer c hc).2 d hd
    · rw [List.mem_singleton.1 hb]
      rcases List.mem_append.1 ha with ha | ha
      · obtain ⟨c, hc, rfl⟩ := List.mem_map.1 ha
        exact (hdiffer c hc).1
      · obtain ⟨c, -, rfl⟩ := List.mem_map.1 ha
        exact append_pid_ne_transcriptFile c.name

/-- All that belongs to the clients of the run lies below the output directory of the test, in places that differ. -/
def Contained (p : Plan) (here : String) : Prop :=
  (∀ c ∈ p.spawned, Path.Below (Path.place here p.testDir) (Path.place here (p.dataDir c)) ∧
    Path.Below (Path.place here p.testDir) (Path.place here (pidFile p.testDir c.name))) ∧
  (p.places here).Nodup

/-- The runs in an environment are contained, wherever they put their output, exactly if the names of the clients are
inner paths that lead to different places. -/
theorem contained_iff (e : Environment) :
    (∀ (p : Plan) (here : String), p.case.environment = e → p.Contained here) ↔
      (∀ c ∈ e.clients.filter (·.spawn), Path.Inner c.name) ∧ (innerPlaces (e.clients.filter (·.spawn))).Nodup := by
  constructor
  · intro h
    have hinner : ∀ c ∈ e.clients.filter (·.spawn), Path.Inner c.name := by
      intro c hc
      refine Classical.byContradiction fun hstray => ?_
      obtain ⟨test, -, hout⟩ := Path.exists_not_below hstray
      -- the test of this name puts its output to a directory that the name of the client leads out of
      let p : Plan := { settings := { runner := { outDir := "/" } }, case := { name := test, dir := "", environment := e } }
      exact hout "/" ((h p "/" rfl).1 c hc).1
    let p : Plan := { settings := {}, case := { name := "test", dir := "", environment := e } }
    exact ⟨hinner, (p.nodup_places_iff "/" hinner).1 (h p "/" rfl).2⟩
  · rintro ⟨hinner, hnodup⟩ p here rfl
    exact ⟨fun c hc => ⟨p.below_dataDir here (hinner c hc), p.below_pidFile here (hinner c hc)⟩,
      (p.nodup_places_iff here hinner).2 hnodup⟩

/-! ## Clearing -/

/-- The world that an effect leaves. -/
def left {σ α : Type} : EStateM.Result Fault (World σ) α → World σ
  | .ok _ w => w
  | .error _ w => w

theorem onDisk_of_ok {σ : Type} {f : Disk → Except FileError Disk} {w : World σ} {disk : Disk}
    (h : f w.disk = .ok disk) : Effect.onDisk f w = .ok () { w with disk } := by
  show (Effect.onDisk f).run w = _
  rw [Effect.onDisk, EStateM.run_bind, EStateM.run_get]
  simp only [h]
  rfl

theorem onDisk_of_error {σ : Type} {f : Disk → Except FileError Disk} {w : World σ} {e : FileError}
    (h : f w.disk = .error e) : Effect.onDisk f w = .error (.io e.message) w := by
  show (Effect.onDisk f).run w = _
  rw [Effect.onDisk, EStateM.run_bind, EStateM.run_get]
  simp only [h]
  rfl

/-- Clearing a directory takes no file with it that is not below it. -/
theorem clear_spares {σ : Type} (dir : String) (w : World σ) {place : List String}
    (hplace : ¬ Path.place w.disk.here dir <+: place) (content : Content) (executable : Bool) :
    (left (clear dir w)).disk.root.at? place = some (.file content executable) ↔
      w.disk.root.at? place = some (.file content executable) := by
  have hclear : clear dir w =
      (if w.disk.exists? dir = true then Effect.onDisk (fun disk => disk.removeDir dir) else pure ()) w := rfl
  rw [hclear]
  split
  · cases hremove : w.disk.removeDir dir with
    | ok disk =>
      rw [onDisk_of_ok hremove]
      exact removeDir_spares hremove hplace content executable
    | error e =>
      rw [onDisk_of_error hremove]
      exact Iff.rfl
  · exact Iff.rfl

/-- Clearing the data directory of a client with an inner name takes no file with it that is not below the output
directory of the test. -/
theorem clear_dataDir_spares {σ : Type} (p : Plan) {c : ClientSpec} (h : Path.Inner c.name) (w : World σ)
    {place : List String} (hplace : ¬ Path.Below (Path.place w.disk.here p.testDir) place) (content : Content)
    (executable : Bool) :
    (left (clear (p.dataDir c) w)).disk.root.at? place = some (.file content executable) ↔
      w.disk.root.at? place = some (.file content executable) := by
  refine clear_spares _ w (fun hdir => hplace ?_) content executable
  obtain ⟨habove, hne⟩ := p.below_dataDir w.disk.here h
  exact ⟨habove.trans hdir, fun heq => hne ((heq ▸ hdir).eq_of_length_le habove.length_le)⟩

end Plan

/-- What clients are called decides what is removed for them and written beside it. An environment is loaded if the names
of its clients differ; nothing else is asked of them. All that belongs to the clients lies below the output directory of
the test, whichever that is, and in places that differ, exactly if their names are inner paths and lead to different
places: with plain names, unless a client is called like the transcript or like the pid file of a client. Clearing the
data directory of a client with an inner name takes no file with it that is not below the output directory. -/
theorem data_stays_inside {disk : Disk} {dir : String} {e : Environment} (h : Environment.load disk dir = .ok e) :
    ((∀ (p : Plan) (here : String), p.case.environment = e → p.Contained here) ↔
      (∀ c ∈ e.clients.filter (·.spawn), Path.Inner c.name) ∧
        (Plan.innerPlaces (e.clients.filter (·.spawn))).Nodup) ∧
    ((∀ c ∈ e.clients.filter (·.spawn), Path.Plain c.name) →
      ((∀ (p : Plan) (here : String), p.case.environment = e → p.Contained here) ↔
        ∀ c ∈ e.clients.filter (·.spawn), c.name ≠ transcriptFile ∧
          ∀ d ∈ e.clients.filter (·.spawn), c.name ≠ d.name ++ ".pid")) ∧
    ∀ (p : Plan), p.case.environment = e → ∀ c ∈ p.spawned, Path.Inner c.name → ∀ (σ : Type) (w : World σ) place,
      ¬ Path.Below (Path.place w.disk.here p.testDir) place → ∀ content executable,
        ((Plan.left (Plan.clear (p.dataDir c) w)).disk.root.at? place = some (.file content executable) ↔
          w.disk.root.at? place = some (.file content executable)) := by
  have hnames : ((e.clients.filter (·.spawn)).map (·.name)).Nodup :=
    (nodup_names (validate_of_load h)).sublist (List.filter_sublist.map _)
  refine ⟨Plan.contained_iff e, fun hplain => ?_, ?_⟩
  · rw [Plan.contained_iff, Plan.nodup_innerPlaces_iff hnames hplain]
    exact and_iff_right fun c hc => (hplain c hc).inner
  · rintro p - c - hinner σ w place hplace content executable
    exact p.clear_dataDir_spares hinner w hplace content executable

/-- A disk with a test whose two clients have plain names. -/
def twoClients : Disk :=
  { root := .dir [("t", .dir [("testenv.yaml", .file (.text "clients:\n- name: alice\n- name: bob\n") false)])]
    here := "/" }

/-- The environment is loaded, and its runs are contained. -/
theorem data_stays_inside_two_clients :
    ∃ e, Environment.load twoClients "t" = .ok e ∧ e.clients.map (·.name) = ["alice", "bob"] ∧
      ∀ (p : Plan) (here : String), p.case.environment = e → p.Contained here := by
  have hload : (Environment.load twoClients "t").toOption.map (·.clients) =
      some [{ name := "alice" }, { name := "bob" }] := by decide +kernel
  cases he : Environment.load twoClients "t" with
  | error f =>
    rw [he] at hload
    cases hload
  | ok e =>
    rw [he] at hload
    have hclients : e.clients = [{ name := "alice" }, { name := "bob" }] := Option.some.inj hload
    obtain ⟨-, hcontained, -⟩ := data_stays_inside he
    rw [hclients] at hcontained
    have hplain : ∀ c ∈ [{ name := "alice" }, { name := "bob" }].filter (fun c : ClientSpec => c.spawn),
        Path.Plain c.name :=
      List.forall_mem_cons.2 ⟨⟨by decide, by decide, by decide, by decide⟩,
        List.forall_mem_cons.2 ⟨⟨by decide, by decide, by decide, by decide⟩, fun _ h => absurd h List.not_mem_nil⟩⟩
    exact ⟨e, rfl, by rw [hclients]; rfl, (hcontained hplain).2 (by decide)⟩

/-! ## A name that climbs out -/

/-- The environment whose only client is called `../keep`. -/
def strayEnvironment : Environment := { clients := [{ name := "../keep" }] }

/-- The test in that environment, whose output goes to `btstests/out/a`. -/
def strayPlan : Plan := { settings := {}, case := { name := "a", dir := "t/a", environment := strayEnvironment } }

/-- Files of somebody else beside the output directory of the test. -/
def strayWorld : World Unit :=
  { disk :=
      { root := .dir [("btstests", .dir [("out", .dir [("a", .dir []),
          ("keep", .dir [("notes.txt", .file (.text "mine") false)])])])]
        here := "/" }
    outside := () }

/-- The environment is accepted as it is read, and the file of somebody else is removed. -/
theorem stray_name_clears_outside :
    (Environment.read "t/a/testenv.yaml" "clients:\n- name: ../keep\n").toOption.map (·.clients) =
      some strayEnvironment.clients ∧
    strayEnvironment.validate = .ok strayEnvironment ∧
    Path.place "/" strayPlan.testDir = ["btstests", "out", "a"] ∧
    (strayPlan.spawned.map fun c => Path.place "/" (strayPlan.dataDir c)) = [["btstests", "out", "keep"]] ∧
    (strayWorld.disk.root.at? ["btstests", "out", "keep", "notes.txt"]).isSome = true ∧
    ∀ c ∈ strayPlan.spawned, ¬ Path.Below (Path.place "/" strayPlan.testDir) (Path.place "/" (strayPlan.dataDir c)) ∧
      ((Plan.left (Plan.clear (strayPlan.dataDir c) strayWorld)).disk.root.at?
        ["btstests", "out", "keep", "notes.txt"]).isSome = false :=
  ⟨by decide +kernel, rfl, by decide +kernel, by decide +kernel, by decide +kernel, by decide +kernel⟩

end Conformance.Runs
