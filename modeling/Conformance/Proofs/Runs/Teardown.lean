import Conformance.Proofs.Runs.Actions
import Conformance.Proofs.Runs.Ownership
import Conformance.Proofs.Script.Completion
import Mathlib.Data.List.Nodup

/-!
# What a run leaves behind

The handles of a bench own all that there is of a run (`Accounted`), from its start on, wherever its setup or its scripts
end (`accounted_setup`, `accounted_performed`): a process passes from the handle that launched it to the bench, and is
killed if it does not get there. So when all handles of the bench are stopped, nothing is left of the run
(`runCase_leaks_nothing`).
-/
namespace Conformance.Runs

open Files Service Cases

/-! ## Entries by name -/

section Entries

variable {α : Type} {name : String} {a : α} {entries : List (String × α)} {entry : String × α}

theorem mem_put (h : (entries.map (·.1)).Nodup) :
    entry ∈ put name a entries ↔ entry = (name, a) ∨ entry ∈ entries ∧ entry.1 ≠ name := by
  induction entries with
  | nil => simp [put]
  | cons first rest ih =>
    obtain ⟨n, b⟩ := first
    obtain ⟨hfresh, hrest⟩ := List.nodup_cons.1 h
    rw [put]
    split
    · rename_i hname
      have hother : entry ∈ rest → entry.1 ≠ name :=
        fun hmem heq => hfresh (List.mem_map.2 ⟨entry, hmem, heq.trans hname.symm⟩)
      rw [List.mem_cons, List.mem_cons, hname]
      constructor
      · rintro (h | h)
        · exact .inl h
        · exact .inr ⟨.inr h, hother h⟩
      · rintro (h | ⟨rfl | h, hne⟩)
        · exact .inl h
        · exact absurd rfl hne
        · exact .inr h
    · rename_i hname
      rw [List.mem_cons, List.mem_cons, ih hrest]
      constructor
      · rintro (rfl | h | ⟨h, hne⟩)
        · exact .inr ⟨.inl rfl, hname⟩
        · exact .inl h
        · exact .inr ⟨.inr h, hne⟩
      · rintro (h | ⟨h | h, hne⟩)
        · exact .inr (.inl h)
        · exact .inl h
        · exact .inr (.inr ⟨h, hne⟩)

theorem nodup_put (h : (entries.map (·.1)).Nodup) : ((put name a entries).map (·.1)).Nodup := by
  induction entries with
  | nil => exact List.nodup_singleton name
  | cons first rest ih =>
    obtain ⟨n, b⟩ := first
    obtain ⟨hfresh, hrest⟩ := List.nodup_cons.1 h
    rw [put]
    split
    · exact h
    · rename_i hname
      refine List.nodup_cons.2 ⟨fun hmem => ?_, ih hrest⟩
      obtain ⟨entry, hentry, heq⟩ := List.mem_map.1 hmem
      rcases (mem_put hrest).1 hentry with rfl | ⟨hold, -⟩
      · exact hname heq.symm
      · exact hfresh (List.mem_map.2 ⟨entry, hold, heq⟩)

/-- The entries are those of other names and, if there is one, the one of this name. -/
theorem mem_map_iff_of_lookup (h : (entries.map (·.1)).Nodup) (name : String) (a : α) :
    a ∈ entries.map (·.2) ↔ entries.lookup name = some a ∨ a ∈ (entries.filter (·.1 ≠ name)).map (·.2) := by
  induction entries with
  | nil => simp
  | cons first rest ih =>
    obtain ⟨n, b⟩ := first
    obtain ⟨hfresh, hrest⟩ := List.nodup_cons.1 h
    by_cases hname : n = name
    · subst hname
      have hothers : rest.filter (·.1 ≠ n) = rest :=
        List.filter_eq_self.2 fun entry hmem => decide_eq_true fun heq => hfresh (List.mem_map.2 ⟨entry, hmem, heq⟩)
      rw [List.lookup_cons_self, List.filter_cons_of_neg (by simp), hothers, List.map_cons, List.mem_cons, Option.some_inj]
      exact or_congr_left eq_comm
    · have hlookup : ((n, b) :: rest).lookup name = rest.lookup name := by
        rw [List.lookup_cons, beq_false_of_ne (Ne.symm hname)]
      rw [hlookup, List.filter_cons_of_pos (by simpa using hname), List.map_cons, List.map_cons, List.mem_cons,
        List.mem_cons, ih hrest]
      exact or_left_comm

/-- The entries with the one of this name set, or dropped. -/
def replace (name : String) : Option α → List (String × α) → List (String × α)
  | some a, entries => put name a entries
  | none, entries => entries.filter (·.1 ≠ name)

theorem nodup_replace (h : (entries.map (·.1)).Nodup) (set : Option α) :
    ((replace name set entries).map (·.1)).Nodup := by
  cases set with
  | some a => exact nodup_put h
  | none => exact h.sublist (List.filter_sublist.map _)

/-- The entries of other names stay. -/
theorem mem_map_replace_iff (h : (entries.map (·.1)).Nodup) (set : Option α) (a : α) :
    a ∈ (replace name set entries).map (·.2) ↔ a ∈ set.toList ++ (entries.filter (·.1 ≠ name)).map (·.2) := by
  cases set with
  | none => exact Iff.rfl
  | some b =>
    simp only [replace, List.mem_map, mem_put h, List.mem_append, List.mem_filter, decide_eq_true_eq, Option.toList_some,
      List.mem_singleton]
    constructor
    · rintro ⟨entry, rfl | hold, rfl⟩
      · exact .inl rfl
      · exact .inr ⟨entry, hold, rfl⟩
    · rintro (rfl | ⟨entry, hold, rfl⟩)
      · exact ⟨(name, a), .inl rfl, rfl⟩
      · exact ⟨entry, .inr hold, rfl⟩

end Entries

variable {σ α : Type} {o : Outside σ} {r : Origin} {pending : List Handle}

/-! ## Benches that own all there is -/

/-- The handles of the bench, each known under a name of its own, own what there is of the run, together with those that
the bench does not know yet. -/
structure Accounted (o : Outside σ) (r : Origin) (pending : List Handle) (b : Bench σ) : Prop where
  names : (b.handles.map (·.1)).Nodup
  owns : Owns o r (pending ++ b.handles.map (·.2)) b.world

namespace Accounted

variable {b b' : Bench σ}

theorem keep (h : Accounted o r pending b) (hhandles : b'.handles = b.handles)
    (hworld : Undisturbed o r.meddling r.paths b.world b'.world) : Accounted o r pending b' where
  names := hhandles ▸ h.names
  owns := hhandles ▸ h.owns.keep hworld

theorem same (h : Accounted o r pending b) (hhandles : b'.handles = b.handles) (hworld : b'.world = b.world) :
    Accounted o r pending b' := h.keep hhandles (hworld ▸ .refl _ _ _ _)

end Accounted

section Waiting

variable (ho : Settles o) (hothers : SparedByOthers o r.meddling r.here r.paths) {b : Bench σ}

include ho hothers

theorem accounted_passUntil (time : Nat) (h : Accounted o r pending b) :
    Accounted o r pending (b.passUntil o time) :=
  h.keep rfl (.of_pass ho (h.owns.here_eq.symm ▸ hothers) _ _)

omit ho hothers in
theorem accounted_look (h : Accounted o r pending b) : Accounted o r pending (b.look o) := by
  rw [Bench.look]
  split
  · exact h
  · split
    · exact h
    · exact h.same rfl rfl

theorem accounted_waitUntil (time n : Nat) (h : Accounted o r pending b) :
    Accounted o r pending (b.waitUntil o time n) := by
  induction n generalizing b with
  | zero => exact h
  | succ n ih =>
    rw [Bench.waitUntil]
    split
    · exact h
    · have hpassed := accounted_passUntil ho hothers
        (Nat.min (Nat.min time b.limit) ((b.watch.map (·.next)).getD time)) h
      dsimp only
      split
      · exact hpassed.same rfl rfl
      · exact ih (accounted_look hpassed)

theorem accounted_exchange (endpoint : Endpoint) (request : Request) (h : Accounted o r pending b) :
    Accounted o r pending (b.exchange o endpoint request).2 := by
  have hsent : Accounted o r pending
      { b with world := { b.world with outside := (o.exchange endpoint request b.world.outside).2.2 } } :=
    h.keep rfl (.of_outside fun pid => ho.exchange pid endpoint request _)
  rw [Bench.exchange]
  split
  · exact h
  · dsimp only
    have hwait := accounted_waitUntil ho hothers
      (b.world.now + Nat.min (o.exchange endpoint request b.world.outside).2.1 b.patience)
      (Nat.min (o.exchange endpoint request b.world.outside).2.1 b.patience / pollInterval + 2) hsent
    split
    · exact hwait
    · split
      · exact hwait
      · exact hwait

theorem accounted_awaitReady (schedule : Backoff) (caller : Service.Caller) (h : Accounted o r pending b) :
    Accounted o r pending (caller.awaitReady (Bench.carrier o) schedule b).2.2 :=
  Service.Caller.awaitReadyFrom_keeps (fun endpoint request _ => accounted_exchange ho hothers endpoint request)
    (fun _ _ => accounted_waitUntil ho hothers _ _) _ _ _ _ h

/-- Commands of scripts leave the owners as they are. -/
theorem accounted_send (name command : String) (h : Accounted o r pending b) :
    Accounted o r pending ((Bench.link o).send name command b).2 := by
  rw [Bench.link]
  dsimp only
  split
  · exact h
  · rename_i caller _
    have hcall : Accounted o r pending (caller.call (Bench.carrier o).toCarrier executeMethod [.str command] b).2.2 :=
      Service.Caller.call_keeps (fun endpoint request _ => accounted_exchange ho hothers endpoint request) _ _ caller h
    exact hcall.same rfl rfl

end Waiting

/-! ## Actions -/

/-- The handles of the bench own all there is, together with those that are pending. -/
abbrev InHand (o : Outside σ) (r : Origin) (pending : List Handle) (s : Script.Session (Bench σ)) : Prop :=
  Accounted o r pending s.link

variable {s : Script.Session (Bench σ)}

theorem inHand_setVariable (name : String) (value : Expr.Value) (failed : Script.Session (Bench σ) → Prop) :
    Upholds (InHand o r pending) failed (setVariable name value : Script.Action (Bench σ) Unit) :=
  upholds_modify fun _ hs => hs

theorem inHand_onWorld {e : Effect σ α} (he : Quiet o r.meddling r.here r.paths e) :
    Upholds (InHand o r pending) (InHand o r pending) (onWorld e) := by
  intro s hs
  have hquiet := he s.link.world hs.owns.here_eq
  refine leads_onWorld (fun a world h => ?_) fun f world h => ?_
  · rw [h] at hquiet
    exact hs.keep rfl hquiet
  · rw [h] at hquiet
    exact hs.keep rfl hquiet

/-- A handle that is started is pending. -/
theorem leads_launch (ho : Settles o) (hs : InHand o r [] s) {spec : LaunchSpec} (hpath : spec.pidFile ∈ r.paths) :
    Leads (onWorld (Handle.start o { spec })) s (fun handle s' => InHand o r [handle] s') (InHand o r []) := by
  rcases hs.owns.start ho hpath with ⟨handle, w', hstart, howns⟩ | ⟨f, w', hstart, howns⟩
  · refine leads_onWorld (fun a world h => ?_) fun f world h => ?_
    · cases hstart.symm.trans h
      exact ⟨hs.names, howns⟩
    · cases hstart.symm.trans h
  · refine leads_onWorld (fun a world h => ?_) fun f world h => ?_
    · cases hstart.symm.trans h
    · cases hstart.symm.trans h
      exact ⟨hs.names, howns⟩

/-- A handle that is released owns nothing any more. -/
theorem leads_release (ho : Settles o) {handle : Handle} {hs : List Handle}
    (howns : Owns o r (handle :: hs) s.link.world) {failed : Script.Session (Bench σ) → Prop} :
    Leads (onWorld (handle.release o)) s
      (fun _ s' => s'.link.handles = s.link.handles ∧ Owns o r hs s'.link.world) failed := by
  have hok : handle.release o s.link.world = .ok () (Plan.left (handle.release o s.link.world)) := by
    rw [Handle.release]
    cases handle.child <;> rfl
  refine leads_onWorld (fun _ _ h => ?_) fun _ _ h => ?_
  · cases hok.symm.trans h
    exact ⟨rfl, howns.release ho⟩
  · cases hok.symm.trans h

/-- A pending handle stays so if there is a caller for it, and is released if there is none. -/
theorem leads_openCaller (ho : Settles o) (p : Plan) (c : ClientSpec) (host : String) (port : UInt16)
    (handle : Option Handle) (hs : InHand o r handle.toList s) :
    Leads (p.openCaller o c host port handle) s (fun _ s' => InHand o r handle.toList s') (InHand o r []) := by
  refine leads_get_bind ?_
  dsimp only
  split
  · exact leads_of_ok rfl hs
  · cases handle with
    | none => exact leads_of_error rfl hs
    | some handle =>
      refine (leads_release ho hs.owns).bind ?_
      rintro - s' ⟨hhandles, howns⟩
      exact leads_of_error rfl ⟨hhandles ▸ hs.names, hhandles ▸ howns⟩

/-- A pending handle that is put on the bench takes the place of one that is owned no more. -/
theorem leads_place {name : String} (handle : Option Handle) {change : Bench σ → Bench σ}
    (hchange : ∀ b, (change b).handles = replace name handle b.handles) (hworld : ∀ b, (change b).world = b.world)
    (hnames : (s.link.handles.map (·.1)).Nodup)
    (howns : Owns o r (handle.toList ++ (s.link.handles.filter (·.1 ≠ name)).map (·.2)) s.link.world)
    {failed : Script.Session (Bench σ) → Prop} :
    Leads (do
      onBench change
      modify (·.register { name }) : Script.Action (Bench σ) Unit) s (fun _ s' => InHand o r [] s') failed := by
  refine leads_of_ok rfl ⟨?_, ?_⟩
  · exact (hchange s.link).symm ▸ nodup_replace hnames handle
  · show Owns o r ((change s.link).handles.map (·.2)) (change s.link).world
    rw [hchange, hworld]
    exact howns.congr (mem_map_replace_iff hnames handle)

/-- A pending handle gets to the bench. One of its name that is there already is released. -/
theorem leads_enlist_pending (ho : Settles o) (name : String) (caller : Service.Caller) (handle : Option Handle)
    (hs : InHand o r handle.toList s) {failed : Script.Session (Bench σ) → Prop} :
    Leads (Plan.enlist o name caller handle) s (fun _ s' => InHand o r [] s') failed := by
  have hmem := mem_map_iff_of_lookup hs.names name
  rw [enlist_eq]
  refine leads_get_bind ?_
  dsimp only
  split
  · rename_i earlier hlookup
    have hearlier : Owns o r (earlier :: (handle.toList ++ (s.link.handles.filter (·.1 ≠ name)).map (·.2)))
        s.link.world := by
      refine hs.owns.congr fun x => ?_
      rw [List.mem_cons, List.mem_append, List.mem_append, hmem, hlookup, Option.some_inj, eq_comm]
      exact or_left_comm
    refine (leads_release ho hearlier).bind ?_
    rintro - s' ⟨hhandles, howns⟩
    refine leads_place handle (fun b => ?_) ?_ (hhandles ▸ hs.names) (hhandles.symm ▸ howns)
    · cases handle <;> rfl
    · exact fun _ => rfl
  · rename_i hlookup
    refine leads_place handle (fun b => ?_) ?_ hs.names (hs.owns.congr fun x => ?_)
    · cases handle <;> rfl
    · exact fun _ => rfl
    · rw [List.mem_append, List.mem_append, hmem, hlookup]
      simp

theorem inHand_awaitService (ho : Settles o) (hothers : SparedByOthers o r.meddling r.here r.paths) (p : Plan)
    (caller : Service.Caller) (handle : Handle) (pid : Nat) :
    Upholds (InHand o r pending) (InHand o r pending) (p.awaitService o caller handle pid) := by
  intro s hs
  have hwatch : Accounted o r pending { s.link with watch := some { pid, next := s.link.world.now } } := hs.same rfl rfl
  obtain ⟨done, hdone, hcases⟩ := awaitService_cases o p caller handle pid s
  have hready : Accounted o r pending done.2.2 := by
    rw [hdone]
    exact accounted_awaitReady ho hothers p.schedule caller (accounted_look hwatch)
  rcases hcases with ⟨hok, -⟩ | ⟨fault, herror⟩
  · exact leads_of_ok hok (hready.same rfl rfl)
  · exact leads_of_error herror (hready.same rfl rfl)

/-- Clearing a directory puts no files anywhere. -/
theorem quiet_clear {m : Meddling} {here : String} {paths : List String} {dir : String}
    (h : ∀ disk disk' : Disk, disk.here = here → disk.removeDir dir = .ok disk' → ∀ path ∈ paths,
      disk.Removable path → disk'.Removable path) :
    Quiet o m here paths (Plan.clear dir) := by
  refine quiet_get_bind fun u => ?_
  split
  · refine quiet_onDisk fun disk disk' hhere hremove => ⟨(fileOf?_removeDir hremove dir).1, fun path hpath => ?_⟩
    obtain ⟨hsame, hfile⟩ := fileOf?_removeDir hremove path
    exact ⟨hsame, hfile, h disk disk' hhere hremove path hpath⟩
  · exact quiet_pure _

namespace Plan

/-- The paths of the files that record the processes of a run. -/
def pidFiles (p : Plan) : List String := p.spawned.map fun c => pidFile p.testDir c.name

/-- Where a data directory is cleared, removing the files that record processes goes on to succeed. -/
def ClearsAside (p : Plan) (here : String) : Prop :=
  ∀ c ∈ p.spawned, ∀ disk disk' : Disk, disk.here = here → disk.removeDir (p.dataDir c) = .ok disk' →
    ∀ path ∈ p.pidFiles, disk.Removable path → disk'.Removable path

section Setup

variable (p : Plan) (ho : Settles o) (hothers : SparedByOthers o r.meddling r.here r.paths)
  (hpaths : r.paths = p.pidFiles) (hclear : p.ClearsAside r.here)

include ho hothers hpaths hclear

/-- However launching a client ends, all there is of the run is on the bench. -/
theorem accounted_spawnClient {c : ClientSpec} (hc : c ∈ p.spawned) :
    Upholds (InHand o r []) (InHand o r []) (p.spawnClient o c) := by
  have htake : ∀ asked, Upholds (InHand o r []) (InHand o r []) (takePort o asked) := fun asked =>
    upholds_takePort o asked (fun _ _ hs => hs.same rfl rfl) fun _ hs => hs
  refine (htake _).bind fun p2p => (htake _).bind fun rpc => (htake _).bind fun http => upholds_get_bind fun u => ?_
  dsimp only
  split
  · rename_i path _
    rw [pure_bind]
    have hcleared : Quiet o r.meddling r.here r.paths (clear (p.dataDir c)) :=
      quiet_clear fun disk disk' hhere hremove path hpath => hclear c hc disk disk' hhere hremove path (hpaths ▸ hpath)
    refine (inHand_onWorld hcleared).bind fun _ s hs => ?_
    have hpath : (p.launchSpec c path ⟨p2p, rpc, http⟩).pidFile ∈ r.paths := hpaths ▸ List.mem_map.2 ⟨c, hc, rfl⟩
    refine (leads_launch ho hs hpath).bind fun handle s₁ hs₁ => ?_
    refine (leads_openCaller ho p c _ _ (some handle) hs₁).bind fun caller s₂ hs₂ => ?_
    refine (inHand_setVariable _ _ _ s₂ hs₂).bind fun _ s₃ hs₃ => ?_
    refine (inHand_setVariable _ _ _ s₃ hs₃).bind fun _ s₄ hs₄ => ?_
    refine (inHand_setVariable _ _ _ s₄ hs₄).bind fun _ s₅ hs₅ => ?_
    refine (leads_enlist_pending ho c.name caller (some handle) hs₅).bind fun _ s₆ hs₆ => ?_
    split
    · exact inHand_awaitService ho hothers p caller handle _ s₆ hs₆
    · exact leads_of_ok rfl hs₆
  · exact upholds_throw _ fun _ hs => hs

omit hothers hpaths hclear in
theorem accounted_connectClient (c : ClientSpec) : Upholds (InHand o r []) (InHand o r []) (p.connectClient o c) := by
  rw [connectClient]
  split
  · exact upholds_throw _ fun _ hs => hs
  · intro s hs
    refine (leads_openCaller ho p c _ _ none hs).bind fun caller s₁ hs₁ => ?_
    refine (inHand_setVariable _ _ _ s₁ hs₁).bind fun _ s₂ hs₂ => ?_
    exact leads_enlist_pending ho c.name caller none hs₂

theorem accounted_bringUp {clients : List ClientSpec} (h : clients ⊆ p.case.environment.clients) :
    Upholds (InHand o r []) (InHand o r []) (p.bringUp o clients) := by
  induction clients with
  | nil => exact upholds_pure ()
  | cons c rest ih =>
    obtain ⟨hc, hrest⟩ := List.cons_subset.1 h
    rw [bringUp]
    split
    · rename_i hspawn
      exact (p.accounted_spawnClient ho hothers hpaths hclear (List.mem_filter.2 ⟨hc, hspawn⟩)).bind fun _ => ih hrest
    · exact (p.accounted_connectClient ho c).bind fun _ => ih hrest

/-- Wherever a setup ends, all there is of the run is on the bench. -/
theorem accounted_setup : Upholds (InHand o r []) (InHand o r []) (p.setup o) := by
  refine (inHand_onWorld (quiet_createDirs _)).bind fun _ => ?_
  dsimp only
  split
  · rw [pure_bind]
    refine Upholds.bind (upholds_modify fun s hs => ?_) fun _ => (inHand_setVariable _ _ _).bind fun _ =>
      (inHand_setVariable _ _ _).bind fun _ =>
      (p.accounted_bringUp ho hothers hpaths hclear (List.Subset.refl _)).bind fun _ => ?_
    · exact hs
    · split
      · exact upholds_modify fun s hs => hs
      · exact upholds_pure ()
  · exact upholds_throw _ fun _ hs => hs

/-- Wherever the setup or the scripts end, all there is of the run is on the bench. -/
theorem accounted_performed (ports : Ports.Allocator) {w : World σ} (hw : Owns o r [] w) :
    InHand o r [] (p.performed o ports w).2 := by
  have hscripts : Upholds (InHand o r []) (InHand o r [])
      (Script.runDir (Bench.link o) (·.world.disk) p.case.dir p.settings.runner.scriptExtension) := by
    refine upholds_of_endOf fun s hs => ?_
    exact Script.link_runDir (Q := Accounted o r []) (fun name command _ => accounted_send ho hothers name command) _ _ hs
  have hperform : Upholds (InHand o r []) (InHand o r []) (p.perform o) :=
    (p.accounted_setup ho hothers hpaths hclear).bind fun _ => hscripts.bind fun _ => upholds_pure _
  have hstart : InHand o r [] { link := p.bench ports w } := ⟨List.nodup_nil, hw⟩
  have hleads := hperform _ hstart
  cases hrun : p.perform o { link := p.bench ports w } with
  | ok n s =>
    have hend : p.performed o ports w = (.ok n, s) := by
      unfold performed
      rw [hrun]
    exact hend ▸ hleads.of_ok n s hrun
  | error f s =>
    have hend : p.performed o ports w = (.error f, s) := by
      unfold performed
      rw [hrun]
    exact hend ▸ hleads.of_error f s hrun

end Setup

end Plan

/-! ## Stopping all services -/

theorem mem_byName {handles : List (String × Handle)} {h : Handle} : h ∈ byName handles ↔ h ∈ handles.map (·.2) := by
  rw [byName, List.mem_map, List.mem_map]
  exact exists_congr fun entry => and_congr_left fun _ => (List.mergeSort_perm _ _).mem_iff

/-- Nothing is owned any more when all handles have been stopped. -/
theorem Owns.stopAll (ho : Settles o) (hothers : SparedByOthers o r.meddling r.here r.paths) {hs : List Handle}
    {w : World σ} (hw : Owns o r hs w) : Owns o r [] (stopAll o w hs) := by
  induction hs generalizing w with
  | nil => exact hw
  | cons h rest ih =>
    have hstopped := hw.stop ho hothers
    rw [Runs.stopAll]
    cases hrun : h.stop o w with
    | ok handle w₁ =>
      rw [hrun] at hstopped
      exact ih hstopped
    | error f w₁ =>
      rw [hrun] at hstopped
      exact ih hstopped

/-- Nothing is owned any more when all handles have been released. -/
theorem Owns.releaseAll (ho : Settles o) {hs : List Handle} {w : World σ} (hw : Owns o r hs w) :
    Owns o r [] (releaseAll o w hs) := by
  induction hs generalizing w with
  | nil => exact hw
  | cons h rest ih =>
    have hreleased := hw.release ho
    rw [Runs.releaseAll]
    cases hrun : h.release o w with
    | ok u w₁ =>
      rw [hrun] at hreleased
      exact ih hreleased
    | error f w₁ =>
      rw [hrun] at hreleased
      exact ih hreleased

instance (r : Origin) (h : Handle) (path : String) : Decidable (r.Records h path) := inferInstanceAs (Decidable (_ = _))

/-- The origin with the files forgotten that these handles have taken the place of. -/
def Origin.without (r : Origin) (hs : List Handle) : Origin :=
  { r with before := fun path => if ∃ h ∈ hs, r.Records h path then none else r.before path }

theorem Origin.before_without_of_mem {hs : List Handle} {h : Handle} (hmem : h ∈ hs) :
    (r.without hs).before h.spec.pidFile = none :=
  if_pos ⟨h, hmem, rfl⟩

theorem Origin.before_without (r : Origin) (hs : List Handle) (path : String) :
    (r.without hs).before path = none ∨ (r.without hs).before path = r.before path := by
  by_cases hcovered : ∃ h ∈ hs, r.Records h path
  · exact .inl (if_pos hcovered)
  · exact .inr (if_neg hcovered)

theorem Owns.without {hs : List Handle} {w : World σ} (hw : Owns o r hs w) : Owns o (r.without hs) hs w where
  here_eq := hw.here_eq
  ended := hw.ended
  held := hw.held
  file path hpath := by
    rcases hw.file path hpath with hnone | ⟨hbefore, hnobody⟩ | hcovered
    · exact .inl hnone
    · refine .inr (.inl ⟨?_, hnobody⟩)
      have hsame : (r.without hs).before path = r.before path := by
        refine if_neg ?_
        rintro ⟨h, hmem, hrecords⟩
        exact hnobody h hmem hrecords
      exact hsame.symm ▸ hbefore
    · exact .inr (.inr hcovered)

namespace Plan

/-- The transcript is saved beside the files that record processes. -/
theorem undisturbed_saveTranscript {m : Meddling} {paths : List String} {w : World σ}
    (hpids : ∀ path ∈ paths, Path.EndsInPid (Path.place w.disk.here path)) (p : Plan) (transcript : String) :
    Undisturbed o m paths w { w with disk := (p.saveTranscript transcript w.disk).2 } := by
  rw [saveTranscript]
  split
  · exact .refl o m paths w
  · rename_i disk hcreate
    have hhere := (spares_createDirs hcreate p.testDir).here_eq
    have hcreated : Undisturbed o m paths w { w with disk } :=
      .of_disk hhere fun path _ => spares_createDirs hcreate path
    split
    · exact hcreated
    · rename_i disk' hwrite
      obtain ⟨hhere', hspares⟩ := spares_writeFile (hhere.symm ▸ hpids) plain_transcriptFile (by decide) hwrite
      exact hcreated.trans (.of_disk hhere' hspares)

/-- What a run starts from. -/
def origin (p : Plan) (m : Meddling) (w : World σ) : Origin where
  here := w.disk.here
  first := w.nextProcess
  paths := p.pidFiles
  before := w.disk.fileOf?
  meddling := m
  endsInPid path hpath := by
    obtain ⟨c, -, rfl⟩ := List.mem_map.1 hpath
    exact Path.endsInPid_join _ _ _

@[simp] theorem before_origin (p : Plan) (m : Meddling) (w : World σ) (path : String) :
    (p.origin m w).before path = w.disk.fileOf? path := by
  dsimp only [origin]

/-- A file that records a process can always be removed if its path does not climb. -/
theorem removable_pidFile (p : Plan) {c : ClientSpec} {disk : Disk} {here : String} (hhere : disk.here = here)
    (hclimb : ".." ∉ Path.names (Path.join here (pidFile p.testDir c.name))) :
    disk.Removable (pidFile p.testDir c.name) := by
  subst hhere
  exact removable_append suffix_pid hclimb

/-- All that there is of a run is gone behind it, whether it is reported on or the program breaks down. -/
theorem owns_runCase {m : Meddling} (p : Plan) (ho : Settles o) (ports : Ports.Allocator) {w : World σ}
    (hothers : SparedByOthers o m w.disk.here p.pidFiles) (hclear : p.ClearsAside w.disk.here) :
    (∀ entry ∈ (p.performed o ports w).2.link.handles, entry.2.spec.pidFile ∈ p.pidFiles) ∧
    Owns o ((p.origin m w).without ((p.performed o ports w).2.link.handles.map (·.2))) [] (p.runCase o ports w).2 := by
  have hperformed := p.accounted_performed (r := p.origin m w) ho hothers rfl hclear ports
    (owns_nil rfl rfl fun path _ => (p.before_origin m w path).symm)
  refine ⟨fun entry hentry => (hperformed.owns.held entry.2 (List.mem_map_of_mem hentry)).2, ?_⟩
  have hall : Owns o ((p.origin m w).without ((p.performed o ports w).2.link.handles.map (·.2)))
      (byName (p.performed o ports w).2.link.handles) (p.performed o ports w).2.link.world :=
    hperformed.owns.without.congr fun h => mem_byName
  rw [runCase]
  split
  · exact hall.releaseAll ho
  · have hstopped := hall.stopAll ho hothers
    exact hstopped.keep (undisturbed_saveTranscript (hstopped.here_eq ▸ (p.origin m w).endsInPid) p _)

end Plan

/-- A run leaks nothing, wherever its setup or its scripts end, and even if the program breaks down. A kill has to take
effect, and removing the files that record processes has to succeed. Then all processes that the run has launched have
ended. With the files that record processes nothing has happened but what others may do, so there is none where there was
none before; and those of the services that the scripts dealt with are gone in any case. -/
theorem runCase_leaks_nothing {σ : Type} (o : Outside σ) (m : Meddling) (p : Plan) (ports : Ports.Allocator) (w : World σ)
    (ho : Settles o) (hothers : SparedByOthers o m w.disk.here p.pidFiles) (hclear : p.ClearsAside w.disk.here) :
    (∀ pid, w.nextProcess ≤ pid → pid < (p.runCase o ports w).2.nextProcess →
      Ended o pid (p.runCase o ports w).2.outside) ∧
    (∀ path ∈ p.pidFiles, m.may (w.disk.fileOf? path) ((p.runCase o ports w).2.disk.fileOf? path)) ∧
    ∀ entry ∈ (p.performed o ports w).2.link.handles, entry.2.spec.pidFile ∈ p.pidFiles ∧
      (p.runCase o ports w).2.disk.fileOf? entry.2.spec.pidFile = none := by
  obtain ⟨hpaths, howns⟩ := p.owns_runCase ho ports hothers hclear
  have hfile : ∀ path ∈ p.pidFiles, m.may
      (((p.origin m w).without ((p.performed o ports w).2.link.handles.map (·.2))).before path)
      ((p.runCase o ports w).2.disk.fileOf? path) := by
    intro path hpath
    rcases howns.file path hpath with hnone | ⟨hbefore, -⟩ | ⟨h, hmem, -⟩
    · exact hnone ▸ m.remove _
    · exact hbefore
    · exact absurd hmem List.not_mem_nil
  refine ⟨fun pid hfirst hnext => ?_, fun path hpath => ?_, fun entry hentry => ⟨hpaths entry hentry, ?_⟩⟩
  · rcases howns.ended pid hfirst hnext with hended | ⟨h, hmem, -⟩
    · exact hended
    · exact absurd hmem List.not_mem_nil
  · have hmay := hfile path hpath
    rcases (p.origin m w).before_without ((p.performed o ports w).2.link.handles.map (·.2)) path with hforgot | hsame
    · rw [hforgot] at hmay
      rw [m.create _ hmay]
      exact m.remove _
    · rwa [hsame, Plan.before_origin] at hmay
  · have hmay := hfile _ (hpaths entry hentry)
    rw [Origin.before_without_of_mem (List.mem_map.2 ⟨entry, hentry, rfl⟩)] at hmay
    exact m.create _ hmay

/-! ## A service that does not answer -/

/-- Others leave files as they are, or remove them. -/
def Meddling.removing : Meddling where
  may f g := g = none ∨ g = f
  leave _ := .inr rfl
  remove _ := .inl rfl
  trans f g h hfg hgh := by
    rcases hgh with hgh | rfl
    · exact .inl hgh
    · exact hfg
  create f h := h.elim id id

/-- A service that never answers and does not end when it is asked to. What is remembered are the processes that have been
killed. -/
def stubborn : Outside (List Nat) where
  launch _ _ _ s := .ok s
  pass _ disk s := (disk, s)
  status pid s := if pid ∈ s then some (.killed 9) else none
  terminate _ s := s
  kill pid s := pid :: s
  exchange _ _ s := (.lost "connection refused", 1, s)
  listening _ := none
  searchPath := []

theorem settles_stubborn : Settles stubborn where
  kill pid s := by simp [Ended, stubborn]
  kill_other pid other s h := by
    simp only [Ended, stubborn] at h ⊢
    split at h
    · rename_i hmem
      rw [if_pos (List.mem_cons_of_mem _ hmem)]
      rfl
    · cases h
  terminate _ _ _ h := h
  pass _ _ _ _ h := h
  exchange _ _ _ _ h := h
  launch _ _ _ _ _ _ h _ hended := by
    cases h
    exact hended

/-- A test with one client, whose service is waited for a second. -/
def oneClient : Plan :=
  { settings := { timeouts := { ready := 1, stopGrace := 500 } }
    case := { name := "a", dir := "t/a", environment := { clients := [{ name := "al", executable := some "svc" }] } } }

def blankWorld : World (List Nat) := { disk := { root := .dir [], here := "/" }, outside := [] }

/-- Its process is killed, and the file that records it is removed. -/
theorem runCase_leaks_nothing_stubborn :
    (oneClient.runCase stubborn (.new 100 200) blankWorld).2.nextProcess = 1001 ∧
    Ended stubborn 1000 (oneClient.runCase stubborn (.new 100 200) blankWorld).2.outside ∧
    (oneClient.performed stubborn (.new 100 200) blankWorld).2.link.handles.map (·.2.spec.pidFile) =
      ["btstests/out/a/al.pid"] ∧
    ((oneClient.performed stubborn (.new 100 200) blankWorld).2.link.world.disk.fileOf? "btstests/out/a/al.pid").isSome =
      true ∧
    (oneClient.runCase stubborn (.new 100 200) blankWorld).2.disk.fileOf? "btstests/out/a/al.pid" = none := by
  have hremovable : ∀ path ∈ oneClient.pidFiles, ∀ disk : Disk, disk.here = "/" → disk.Removable path := by
    intro path hpath disk hhere
    obtain ⟨c, hc, rfl⟩ := List.mem_map.1 hpath
    obtain rfl := List.mem_singleton.1 hc
    exact oneClient.removable_pidFile hhere (by decide +kernel)
  have hothers : SparedByOthers stubborn .removing "/" oneClient.pidFiles :=
    fun _ disk _ hhere => ⟨hhere, fun path _ => .refl _ disk path⟩
  have hclear : oneClient.ClearsAside "/" :=
    fun c _ disk disk' hhere hremove path hpath _ =>
      hremovable path hpath disk' ((fileOf?_removeDir hremove path).1.trans hhere)
  obtain ⟨hended, -, hgone⟩ := runCase_leaks_nothing stubborn .removing oneClient (.new 100 200) blankWorld
    settles_stubborn hothers hclear
  obtain ⟨hnext, hhandles, hrecorded⟩ : (oneClient.runCase stubborn (.new 100 200) blankWorld).2.nextProcess = 1001 ∧
      (oneClient.performed stubborn (.new 100 200) blankWorld).2.link.handles.map (·.2.spec.pidFile) =
        ["btstests/out/a/al.pid"] ∧
      ((oneClient.performed stubborn (.new 100 200) blankWorld).2.link.world.disk.fileOf?
        "btstests/out/a/al.pid").isSome = true := by decide +kernel
  refine ⟨hnext, hended 1000 (Nat.le_refl _) (by rw [hnext]; decide), hhandles, hrecorded, ?_⟩
  obtain ⟨entry, hentry, hpath⟩ := List.mem_map.1 (hhandles ▸ List.mem_singleton_self "btstests/out/a/al.pid")
  exact hpath ▸ (hgone entry hentry).2

end Conformance.Runs
