import Conformance.Proofs.Files.Places
import Conformance.Runs.Batch
import Mathlib.Data.List.Forall2
import Mathlib.Data.List.Nodup

/-!
# Where tests put out what they do

Each test of a batch has an output directory, named like the test. Two tests share files exactly if the name of one leads
to the output directory of the other or into it (`share_iff`), so with plain names exactly if they have one name. Tests
that are found side by side have different names unless their environments name them (`nodup_nameOfDir`). Tests that are
found at different paths may have one name, and then one output directory (`same_name_same_directory`).
-/
namespace Conformance.Cases

open Files

/-! ## Tests that are found side by side -/

theorem mapM_eq_ok {α β : Type} {f : α → Except Fault β} {xs : List α} {ys : List β} (h : xs.mapM f = .ok ys) :
    List.Forall₂ (fun x y => f x = .ok y) xs ys := by
  induction xs generalizing ys with
  | nil =>
    obtain rfl : [] = ys := Except.ok.inj h
    exact .nil
  | cons x xs ih =>
    rw [List.mapM_cons] at h
    cases hx : f x with
    | error e =>
      rw [hx] at h
      cases h
    | ok y =>
      cases hxs : xs.mapM f with
      | error e =>
        rw [hx, hxs] at h
        cases h
      | ok rest =>
        rw [hx, hxs] at h
        obtain rfl : y :: rest = ys := Except.ok.inj h
        exact .cons hx (ih hxs)

theorem fileName?_join {name : String} (h : Path.Plain name) (path : String) :
    Path.fileName? (Path.join path name) = some name := by
  have hnames : Path.names (Path.join path name) = Path.names path ++ [name] := by
    rw [Path.names_join_of_relative (Path.isAbsolute_of_no_slash h.no_slash), h.names]
  have hlast : (Path.components (Path.join path name)).getLast? = some name := by
    rw [Path.components, hnames]
    cases Path.names path with
    | nil => simp [h.ne_dot]
    | cons n r =>
      simp only [List.cons_append]
      split
      · simp [h.ne_dot]
      · have hkept : [name].filter (· ≠ ".") = [name] := by simp [h.ne_dot]
        rw [List.filter_append, hkept, ← List.cons_append, List.getLast?_concat]
  rw [Path.fileName?, hlast]
  simp [h.ne_dot, h.ne_up]

theorem mem_names_of_mem_components {path n : String} (h : n ∈ Path.components path) : n ∈ Path.names path := by
  rw [Path.components] at h
  split at h
  · exact absurd h List.not_mem_nil
  · rename_i m r hnames
    rw [hnames]
    split at h
    · exact List.mem_cons_of_mem m (List.mem_filter.1 h).1
    · rcases List.mem_cons.1 h with rfl | h
      · exact List.mem_cons_self
      · exact List.mem_cons_of_mem m (List.mem_filter.1 h).1

theorem plain_of_fileName? {path name : String} (h : Path.fileName? path = some name) : Path.Plain name := by
  rw [Path.fileName?] at h
  split at h
  · rename_i n hlast
    split at h
    · cases h
    · rename_i hdots
      obtain rfl : n = name := Option.some.inj h
      rw [Bool.or_eq_true, decide_eq_true_eq, decide_eq_true_eq, not_or] at hdots
      obtain ⟨hempty, hslash⟩ := Path.of_mem_names (mem_names_of_mem_components (List.mem_of_getLast? hlast))
      exact ⟨hempty, hslash, hdots.2, hdots.1⟩
  · cases h

/-- A test is named by its environment, or else like its directory. -/
theorem name_of_load {disk : Disk} {dir : String} {t : TestCase} (h : TestCase.load disk dir = .ok t) :
    t.name = t.environment.name.getD ((Path.fileName? dir).getD "test") := by
  unfold TestCase.load at h
  cases hload : Environment.load disk dir with
  | error f =>
    rw [hload] at h
    cases h
  | ok e =>
    rw [hload] at h
    rw [← Except.ok.inj h]

/-- The name of the test in a directory, if its environment does not name it. -/
def nameOfDir (dir : String) : String := (Path.fileName? dir).getD "test"

theorem plain_nameOfDir (dir : String) : Path.Plain (nameOfDir dir) := by
  rw [nameOfDir]
  cases h : Path.fileName? dir with
  | none => exact ⟨by decide, by decide, by decide, by decide⟩
  | some name => exact plain_of_fileName? h

theorem names_of_load {disk : Disk} {dirs : List String} {cases : List TestCase}
    (h : dirs.mapM (TestCase.load disk) = .ok cases) (hnone : ∀ t ∈ cases, t.environment.name = none) :
    cases.map (·.name) = dirs.map nameOfDir := by
  have hloaded := mapM_eq_ok h
  clear h
  induction hloaded with
  | nil => rfl
  | cons hload _ ih =>
    obtain ⟨ht, hrest⟩ := List.forall_mem_cons.1 hnone
    rw [List.map_cons, List.map_cons, ih hrest, name_of_load hload, ht]
    rfl

/-- The directory, if there is one at the path, holds plain names, each of them once. -/
def ProperDirectory (disk : Disk) (path : String) : Prop :=
  ∀ names, disk.list path = .ok names → names.Nodup ∧ ∀ name ∈ names, Path.Plain name

theorem discover_singleton {disk : Disk} {path : String} {dirs : List String}
    (h : discover disk [path] = .ok dirs) : discoverAt disk path = .ok dirs := by
  unfold discover at h
  cases hat : discoverAt disk path with
  | error f =>
    rw [hat] at h
    cases h
  | ok found =>
    rw [hat] at h
    obtain rfl : found ++ [] = dirs := Except.ok.inj h
    rw [List.append_nil]

/-- Tests side by side are named differently by their directories. -/
theorem nodup_nameOfDir {disk : Disk} {path : String} (hdisk : ProperDirectory disk path) {dirs : List String}
    (h : discover disk [path] = .ok dirs) : (dirs.map nameOfDir).Nodup := by
  have hat := discover_singleton h
  unfold discoverAt at hat
  split at hat
  · obtain rfl := Except.ok.inj hat
    exact List.nodup_singleton _
  · split at hat
    · cases hat
    · split at hat
      · cases hat
      · rename_i names hlist
        obtain rfl := Except.ok.inj hat
        obtain ⟨hnodup, hplain⟩ := hdisk names hlist
        have hperm : (Script.sortedNames (names.filter (isFound disk path))).Perm (names.filter (isFound disk path)) :=
          List.mergeSort_perm _ _
        -- a directory found below the path gives back the name it has there
        have hnames : (Script.sortedNames (names.filter (isFound disk path))).map (nameOfDir ∘ Path.join path) =
            Script.sortedNames (names.filter (isFound disk path)) := by
          refine (List.map_congr_left fun name hname => ?_).trans (List.map_id _)
          have hfound : Path.Plain name := hplain name (List.mem_filter.1 (hperm.mem_iff.1 hname)).1
          rw [Function.comp, nameOfDir, fileName?_join hfound]
          rfl
        rw [List.map_map, hnames]
        exact hperm.nodup_iff.2 (hnodup.filter _)

end Conformance.Cases

namespace Conformance.Runs

open Files Cases Config

/-! ## Output directories -/

/-- The output directory of a test. -/
def outputPlace (s : Settings) (here : String) (t : TestCase) : List String := Path.place here (Plan.testDir ⟨s, t⟩)

section Places

variable (s : Settings) (here : String) {t u : TestCase}

theorem outputPlace_eq {l : List String} (h : Path.inner? t.name = some l) :
    outputPlace s here t = Path.place here s.runner.outDir ++ l :=
  Path.place_join_of_inner? h here s.runner.outDir

/-- Output directories differ exactly if the names lead to different places. -/
theorem nodup_outputPlaces_iff {cases : List TestCase} (h : ∀ t ∈ cases, Path.Inner t.name) :
    (cases.map (outputPlace s here)).Nodup ↔ (cases.map fun t => Path.inner? t.name).Nodup := by
  have hplaces : cases.map (outputPlace s here) = (cases.map fun t => Path.inner? t.name).map fun o =>
      Path.place here s.runner.outDir ++ o.getD [] := by
    rw [List.map_map]
    refine List.map_congr_left fun t ht => ?_
    obtain ⟨l, -, hl⟩ := h t ht
    rw [outputPlace_eq s here hl, Function.comp, hl]
    rfl
  rw [hplaces]
  refine ⟨List.Nodup.of_map _, fun hnodup => hnodup.map_on fun a ha b hb heq => ?_⟩
  obtain ⟨t, ht, rfl⟩ := List.mem_map.1 ha
  obtain ⟨u, hu, rfl⟩ := List.mem_map.1 hb
  obtain ⟨l, -, hl⟩ := h t ht
  obtain ⟨m, -, hm⟩ := h u hu
  rw [hl, hm] at heq ⊢
  exact congrArg some (List.append_cancel_left heq)

/-- Two tests share places exactly if the name of one leads to the output directory of the other or into it. -/
theorem share_iff {l m : List String} (hl : Path.inner? t.name = some l) (hm : Path.inner? u.name = some m) :
    (∃ place, Path.Below (outputPlace s here t) place ∧ Path.Below (outputPlace s here u) place) ↔
      l <+: m ∨ m <+: l := by
  rw [outputPlace_eq s here hl, outputPlace_eq s here hm]
  constructor
  · rintro ⟨place, ⟨ht, -⟩, hu, -⟩
    exact (List.prefix_or_prefix_of_prefix ht hu).imp (List.prefix_append_right_inj _).1
      (List.prefix_append_right_inj _).1
  · -- what stands in the inner one of the two directories belongs to both tests
    have hboth : ∀ {l m : List String}, l <+: m →
        ∃ place, Path.Below (Path.place here s.runner.outDir ++ l) place ∧
          Path.Below (Path.place here s.runner.outDir ++ m) place := by
      rintro l m ⟨r, rfl⟩
      refine ⟨Path.place here s.runner.outDir ++ (l ++ r) ++ [""], ?_, Path.below_append.2 (List.cons_ne_nil _ _)⟩
      rw [← List.append_assoc _ l r, List.append_assoc _ r]
      exact Path.below_append.2 (List.concat_ne_nil _ _)
    rintro (habove | habove)
    · exact hboth habove
    · obtain ⟨place, hu, ht⟩ := hboth habove
      exact ⟨place, ht, hu⟩

end Places

/-- No file belongs to two of the tests: none is below the output directories of both. -/
def Separate (s : Settings) (here : String) (cases : List TestCase) : Prop :=
  cases.Pairwise fun t u => ∀ place, Path.Below (outputPlace s here t) place → ¬ Path.Below (outputPlace s here u) place

/-- Neither name leads to where the other one leads, or further into it. -/
def LeadApart (a b : String) : Prop := ∀ l ∈ Path.inner? a, ∀ m ∈ Path.inner? b, ¬ (l <+: m ∨ m <+: l)

theorem separate_iff (s : Settings) (here : String) {cases : List TestCase} (h : ∀ t ∈ cases, Path.Inner t.name) :
    Separate s here cases ↔ cases.Pairwise fun t u => LeadApart t.name u.name := by
  refine List.Pairwise.iff_of_mem fun {t u} ht hu => ?_
  obtain ⟨l, -, hl⟩ := h t ht
  obtain ⟨m, -, hm⟩ := h u hu
  have hapart : LeadApart t.name u.name ↔ ¬ (l <+: m ∨ m <+: l) := by
    rw [LeadApart, hl, hm]
    simp only [Option.mem_def, Option.some.injEq, forall_eq']
  rw [hapart, ← share_iff s here hl hm]
  exact ⟨fun h ⟨place, ht, hu⟩ => h place ht hu, fun h place ht hu => h ⟨place, ht, hu⟩⟩

section Plain

variable (s : Settings) (here : String) {cases : List TestCase} (h : ∀ t ∈ cases, Path.Plain t.name)
include h

theorem nodup_outputPlaces_iff_names : (cases.map (outputPlace s here)).Nodup ↔ (cases.map (·.name)).Nodup := by
  have hinner : cases.map (fun t => Path.inner? t.name) = (cases.map (·.name)).map fun name => some [name] := by
    rw [List.map_map]
    exact List.map_congr_left fun t ht => (h t ht).inner?
  have hinj : Function.Injective fun name : String => some [name] := by
    intro a b heq
    exact (List.cons.inj (Option.some.inj heq)).1
  rw [nodup_outputPlaces_iff s here fun t ht => (h t ht).inner, hinner, List.nodup_map_iff hinj]

theorem separate_iff_names : Separate s here cases ↔ (cases.map (·.name)).Nodup := by
  rw [separate_iff s here fun t ht => (h t ht).inner, List.Nodup, List.pairwise_map]
  refine List.Pairwise.iff_of_mem fun {t u} ht hu => ?_
  rw [LeadApart, (h t ht).inner?, (h u hu).inner?]
  simp [eq_comm]

end Plain

/-- What tests are called decides whether they share an output directory, and nothing else is asked of their names. With
names that lead inside, the output directories of a batch differ exactly if the names lead to different places, and no
file belongs to two tests exactly if no name leads to the output directory of another test or into it. With plain names,
both come down to different names. Unless environments name their tests, the names are plain, and they are those of the
directories; these differ if all of the tests are found at one path. -/
theorem output_directories_differ {disk : Disk} {paths dirs : List String} {cases : List TestCase}
    (hdiscover : discover disk paths = .ok dirs) (hload : dirs.mapM (TestCase.load disk) = .ok cases) (s : Settings)
    (here : String) :
    ((∀ t ∈ cases, Path.Inner t.name) →
      ((cases.map (outputPlace s here)).Nodup ↔ (cases.map fun t => Path.inner? t.name).Nodup) ∧
      (Separate s here cases ↔ cases.Pairwise fun t u => LeadApart t.name u.name)) ∧
    ((∀ t ∈ cases, Path.Plain t.name) →
      ((cases.map (outputPlace s here)).Nodup ↔ (cases.map (·.name)).Nodup) ∧
      (Separate s here cases ↔ (cases.map (·.name)).Nodup)) ∧
    ((∀ t ∈ cases, t.environment.name = none) →
      ((cases.map (outputPlace s here)).Nodup ↔ (dirs.map nameOfDir).Nodup) ∧
      (Separate s here cases ↔ (dirs.map nameOfDir).Nodup)) ∧
    ∀ path, paths = [path] → ProperDirectory disk path → (dirs.map nameOfDir).Nodup := by
  refine ⟨fun h => ⟨nodup_outputPlaces_iff s here h, separate_iff s here h⟩,
    fun h => ⟨nodup_outputPlaces_iff_names s here h, separate_iff_names s here h⟩, fun hnone => ?_, ?_⟩
  · have hnames := names_of_load hload hnone
    have hplain : ∀ t ∈ cases, Path.Plain t.name := by
      intro t ht
      have hmem : t.name ∈ dirs.map nameOfDir := hnames ▸ List.mem_map.2 ⟨t, ht, rfl⟩
      obtain ⟨dir, -, hdir⟩ := List.mem_map.1 hmem
      exact hdir ▸ plain_nameOfDir dir
    rw [← hnames]
    exact ⟨nodup_outputPlaces_iff_names s here hplain, separate_iff_names s here hplain⟩
  · rintro path rfl hdisk
    exact nodup_nameOfDir hdisk hdiscover

/-- Two tests side by side. -/
def sideBySide : Disk :=
  { root := .dir [("t", .dir [("a", .dir [("testenv.yaml", .file (.text "clients: []") false)]),
      ("b", .dir [("testenv.yaml", .file (.text "clients: []") false)])])]
    here := "/" }

theorem properDirectory_sideBySide : ProperDirectory sideBySide "t" := by
  intro names h
  obtain rfl : ["a", "b"] = names := Except.ok.inj h
  exact ⟨by decide, List.forall_mem_cons.2 ⟨⟨by decide, by decide, by decide, by decide⟩,
    List.forall_mem_cons.2 ⟨⟨by decide, by decide, by decide, by decide⟩, fun _ h => absurd h List.not_mem_nil⟩⟩⟩

theorem discover_sideBySide : discover sideBySide ["t"] = .ok ["t/a", "t/b"] := by
  have hsorted : Script.sortedNames ["a", "b"] = ["a", "b"] := List.mergeSort_of_pairwise (by decide)
  have hfound : ["a", "b"].filter (isFound sideBySide "t") = ["a", "b"] := by decide +kernel
  have hdiscover : discover sideBySide ["t"] =
      .ok ((Script.sortedNames (["a", "b"].filter (isFound sideBySide "t"))).map (Path.join "t") ++ []) := by
    rfl
  rw [hdiscover, hfound, hsorted]
  rfl

/-- They are found, and their output directories are apart. -/
theorem output_directories_differ_side_by_side :
    ∃ cases, ["t/a", "t/b"].mapM (TestCase.load sideBySide) = .ok cases ∧ cases.map (·.name) = ["a", "b"] ∧
      (cases.map (outputPlace {} "/")).Nodup ∧ Separate {} "/" cases := by
  have hload : ((["t/a", "t/b"].mapM (TestCase.load sideBySide)).toOption.map fun cases =>
      cases.map fun t => (t.name, t.environment.name)) = some [("a", none), ("b", none)] := by decide +kernel
  cases hcases : ["t/a", "t/b"].mapM (TestCase.load sideBySide) with
  | error f =>
    rw [hcases] at hload
    cases hload
  | ok cases =>
    rw [hcases] at hload
    have hnames : (cases.map fun t => (t.name, t.environment.name)) = [("a", none), ("b", none)] := Option.some.inj hload
    have hnone : ∀ t ∈ cases, t.environment.name = none := by
      intro t ht
      have hmem : (t.name, t.environment.name) ∈ [("a", none), ("b", none)] :=
        hnames ▸ List.mem_map.2 ⟨t, ht, rfl⟩
      simp only [List.mem_cons, Prod.mk.injEq, List.not_mem_nil, or_false] at hmem
      exact hmem.elim And.right And.right
    have hfirst := congrArg (List.map Prod.fst) hnames
    rw [List.map_map] at hfirst
    obtain ⟨-, -, hdiffer, hdirs⟩ := output_directories_differ discover_sideBySide hcases {} "/"
    have hnodup : (["t/a", "t/b"].map nameOfDir).Nodup := hdirs "t" rfl properDirectory_sideBySide
    exact ⟨cases, rfl, hfirst, (hdiffer hnone).1.2 hnodup, (hdiffer hnone).2.2 hnodup⟩

/-! ## Tests of one name -/

/-- Two tests of one name in different directories. -/
def oneName : Disk :=
  { root := .dir [("p", .dir [("x", .dir [("testenv.yaml", .file (.text "clients: []") false)])]),
      ("q", .dir [("x", .dir [("testenv.yaml", .file (.text "clients: []") false)])])]
    here := "/" }

/-- Both tests are found and loaded, and both have the output directory `btstests/out/x`. -/
theorem same_name_same_directory :
    discover oneName ["p", "q"] = .ok ["p/x", "q/x"] ∧
    ((["p/x", "q/x"].mapM (TestCase.load oneName)).toOption.map fun cases => cases.map (outputPlace {} "/")) =
      some [["btstests", "out", "x"], ["btstests", "out", "x"]] :=
  ⟨by decide +kernel, by decide +kernel⟩

end Conformance.Runs
