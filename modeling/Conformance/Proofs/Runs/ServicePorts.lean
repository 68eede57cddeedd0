import Conformance.Proofs.Ports.Turns
import Conformance.Proofs.Runs.Actions
import Conformance.Proofs.Runs.DataDirectories

/-!
# The ports of the services of a run

A service is launched with three ports: those that its client is pinned to, and for the others those that the allocator
hands out in turn. What one client gets (`leads_spawnClient`) adds up to what a setup gives out, however it ends
(`leads_bringUp`). The allocator does not know which ports are pinned, so the ports of a run are different only if no
port that is handed out is pinned (`setup_ports`).
-/
namespace Conformance.Runs

open Service Cases Ports

/-! ## Ports that are asked for -/

/-- The ports that are asked for, with those that are left open filled in. -/
def fill : List (Option UInt16) → List UInt16 → List UInt16
  | [], _ => []
  | some port :: asks, handed => port :: fill asks handed
  | none :: asks, handed => handed.head?.toList ++ fill asks handed.tail

/-- The ports that are pinned. -/
def pinned (asks : List (Option UInt16)) : List UInt16 := asks.filterMap id

theorem fill_append {asks asks' : List (Option UInt16)} {handed handed' : List UInt16}
    (h : handed.length = asks.count none) :
    fill (asks ++ asks') (handed ++ handed') = fill asks handed ++ fill asks' handed' := by
  induction asks generalizing handed with
  | nil =>
    obtain rfl := List.eq_nil_of_length_eq_zero h
    rfl
  | cons ask asks ih =>
    cases ask with
    | some port =>
      rw [List.count_cons_of_ne (by simp)] at h
      simp only [List.cons_append, fill, ih h]
    | none =>
      rw [List.count_cons_self] at h
      cases handed with
      | nil => cases h
      | cons port handed =>
        have hlength : handed.length = asks.count none := Nat.succ.inj h
        simp [fill, ih hlength]

/-- What is filled in are the pinned ports and those handed out. -/
theorem fill_perm {asks : List (Option UInt16)} {handed : List UInt16} (h : handed.length = asks.count none) :
    (fill asks handed).Perm (pinned asks ++ handed) := by
  induction asks generalizing handed with
  | nil =>
    obtain rfl := List.eq_nil_of_length_eq_zero h
    exact List.Perm.refl _
  | cons ask asks ih =>
    cases ask with
    | some port =>
      rw [List.count_cons_of_ne (by simp)] at h
      exact (ih h).cons port
    | none =>
      rw [List.count_cons_self] at h
      cases handed with
      | nil => cases h
      | cons port handed =>
        have hlength : handed.length = asks.count none := Nat.succ.inj h
        exact ((ih hlength).cons port).trans List.perm_middle.symm

/-- Ports are given for what is asked from the turns behind `used` ones: those that are left open are filled in with the
ports of later and later turns, without a gap where nobody asks whether a port is in use. -/
structure Filled (a : Allocator) (used : Nat) (asks : List (Option UInt16)) (given : List UInt16) (turns : List Nat)
    (used' : Nat) : Prop where
  given_eq : given = fill asks (turns.map a.turn)
  count : turns.length = asks.count none
  increasing : turns.Pairwise (· < ·)
  bounds : ∀ t ∈ turns, used ≤ t ∧ t < used'
  le : used ≤ used'
  gapless : a.probe = false → turns = List.range' used turns.length ∧ used' = used + turns.length

namespace Filled

variable {a : Allocator} {used used' used'' : Nat} {asks asks' : List (Option UInt16)} {given given' : List UInt16}
  {turns turns' : List Nat}

theorem nil (a : Allocator) (used : Nat) : Filled a used [] [] [] used where
  given_eq := rfl
  count := rfl
  increasing := List.Pairwise.nil
  bounds _ h := absurd h List.not_mem_nil
  le := Nat.le_refl _
  gapless _ := ⟨rfl, rfl⟩

theorem pinned (a : Allocator) (used : Nat) (port : UInt16) : Filled a used [some port] [port] [] used where
  given_eq := rfl
  count := rfl
  increasing := List.Pairwise.nil
  bounds _ h := absurd h List.not_mem_nil
  le := Nat.le_refl _
  gapless _ := ⟨rfl, rfl⟩

theorem handed {i : Nat} (h : a.probe = false → i = 0) :
    Filled a used [none] [a.turn (used + i)] [used + i] (used + i + 1) where
  given_eq := rfl
  count := rfl
  increasing := List.pairwise_singleton _ _
  bounds t ht := by
    obtain rfl := List.mem_singleton.1 ht
    exact ⟨Nat.le_add_right _ _, Nat.lt_succ_self _⟩
  le := Nat.le_succ_of_le (Nat.le_add_right _ _)
  gapless hprobe := by
    rw [h hprobe]
    exact ⟨rfl, rfl⟩

theorem append (h : Filled a used asks given turns used') (h' : Filled a used' asks' given' turns' used'') :
    Filled a used (asks ++ asks') (given ++ given') (turns ++ turns') used'' where
  given_eq := by
    rw [h.given_eq, h'.given_eq, List.map_append, fill_append]
    rw [List.length_map, h.count]
  count := by rw [List.length_append, List.count_append, h.count, h'.count]
  increasing := by
    refine List.pairwise_append.2 ⟨h.increasing, h'.increasing, fun t ht t' ht' => ?_⟩
    exact Nat.lt_of_lt_of_le (h.bounds t ht).2 (h'.bounds t' ht').1
  bounds t ht := by
    rcases List.mem_append.1 ht with ht | ht
    · exact ⟨(h.bounds t ht).1, Nat.lt_of_lt_of_le (h.bounds t ht).2 h'.le⟩
    · exact ⟨Nat.le_trans h.le (h'.bounds t ht).1, (h'.bounds t ht).2⟩
  le := Nat.le_trans h.le h'.le
  gapless hprobe := by
    obtain ⟨hturns, hused⟩ := h.gapless hprobe
    obtain ⟨hturns', hused'⟩ := h'.gapless hprobe
    rw [List.length_append, ← Nat.add_assoc, ← hused]
    refine ⟨?_, hused'⟩
    rw [← List.range'_append_1, ← hturns, ← hused, ← hturns']

/-- Ports that are given differ exactly if the pinned ones do, none that is handed out is pinned, and no whole rounds lie
between two that are handed out. -/
theorem nodup_iff (h : Filled a used asks given turns used') (ha : a.Ready) :
    given.Nodup ↔ (Runs.pinned asks).Nodup ∧ (∀ t ∈ turns, a.turn t ∉ Runs.pinned asks) ∧
      turns.Pairwise fun i j => i % a.width ≠ j % a.width := by
  have hlength : (turns.map a.turn).length = asks.count none := (List.length_map _).trans h.count
  have hhanded : (turns.map a.turn).Nodup ↔ turns.Pairwise fun i j => i % a.width ≠ j % a.width := by
    rw [List.Nodup, List.pairwise_map]
    exact List.Pairwise.iff (fun i j => not_congr ha.turn_eq_iff)
  rw [h.given_eq, (fill_perm hlength).nodup_iff, List.nodup_append, hhanded]
  constructor
  · rintro ⟨hpinned, hturns, hapart⟩
    refine ⟨hpinned, fun t ht hmem => ?_, hturns⟩
    exact hapart _ hmem _ (List.mem_map.2 ⟨t, ht, rfl⟩) rfl
  · rintro ⟨hpinned, hapart, hturns⟩
    refine ⟨hpinned, hturns, fun port hport port' hport' heq => ?_⟩
    obtain ⟨t, ht, rfl⟩ := List.mem_map.1 hport'
    exact hapart t ht (heq ▸ hport)

/-- Where nobody asks whether ports are in use, the first turns are handed out. Their ports differ within one round. -/
theorem nodup_iff_of_gapless (h : Filled a 0 asks given turns used') (ha : a.Ready) (hprobe : a.probe = false) :
    given.Nodup ↔ (Runs.pinned asks).Nodup ∧ asks.count none ≤ a.width ∧
      ∀ t < asks.count none, a.turn t ∉ Runs.pinned asks := by
  have hturns : turns = List.range (asks.count none) := by
    rw [(h.gapless hprobe).1, h.count, List.range_eq_range']
  have hround : (turns.Pairwise fun i j => i % a.width ≠ j % a.width) ↔ asks.count none ≤ a.width := by
    rw [hturns]
    constructor
    · intro hpairwise
      refine Nat.le_of_not_lt fun hlt => ?_
      have hrel := List.pairwise_iff_getElem.1 hpairwise 0 a.width (by rw [List.length_range]; omega)
        (by rwa [List.length_range]) ha.width_pos
      rw [List.getElem_range, List.getElem_range, Nat.mod_self, Nat.zero_mod] at hrel
      exact hrel rfl
    · intro hle
      refine List.pairwise_lt_range.imp_of_mem fun {i j} hi hj hlt heq => ?_
      rw [List.mem_range] at hi hj
      rw [Nat.mod_eq_of_lt (by omega), Nat.mod_eq_of_lt (by omega)] at heq
      omega
  rw [h.nodup_iff ha, hround, hturns]
  simp only [List.mem_range]
  exact and_congr_right fun _ => and_comm

end Filled

/-! ## What a client adds -/

/-- The ports that a client asks for, in the order in which they are taken. -/
def asks (c : ClientSpec) : List (Option UInt16) := [c.p2pPort, c.rpcPort, c.httpPort]

/-- The ports of services, in the same order. -/
def portsOf (handles : List (String × Handle)) : List UInt16 :=
  handles.flatMap fun entry => [entry.2.spec.ports.p2p, entry.2.spec.ports.rpc, entry.2.spec.ports.http]

theorem put_of_fresh {α : Type} {name : String} {entries : List (String × α)} (a : α)
    (h : name ∉ entries.map (·.1)) : put name a entries = entries ++ [(name, a)] := by
  induction entries with
  | nil => rfl
  | cons entry entries ih =>
    obtain ⟨hne, hrest⟩ := not_or.1 (mt List.mem_cons.2 h)
    rw [put, if_neg (Ne.symm hne), ih hrest]
    rfl

theorem lookup_of_fresh {α : Type} {name : String} {entries : List (String × α)} (h : name ∉ entries.map (·.1)) :
    entries.lookup name = none := by
  rw [List.lookup_eq_none_iff]
  intro entry hentry
  exact bne_iff_ne.2 fun heq => h (List.mem_map.2 ⟨entry, hentry, heq.symm⟩)

section Spawning

open Bench

variable {σ : Type} (o : Outside σ) {s : Script.Session (Bench σ)}

/-- A port is the one that is asked for, or one of the turns to come. -/
theorem leads_takePort {a : Allocator} {used : Nat} (h : Allocator.After a used s.link.ports) (asked : Option UInt16) :
    Leads (Plan.takePort o asked) s
      (fun port s' => s'.link.handles = s.link.handles ∧ ∃ turns used', Filled a used [asked] [port] turns used' ∧
        Allocator.After a used' s'.link.ports)
      fun s' => s'.link.handles = s.link.handles := by
  cases asked with
  | some port => exact leads_of_ok rfl ⟨rfl, [], used, .pinned a used port, h⟩
  | none =>
    cases hnext : s.link.ports.nextPort (o.listening s.link.world.outside) with
    | mk given ports =>
      cases given with
      | error fault =>
        exact leads_of_error (takePort_of_error o hnext) rfl
      | ok port =>
        obtain ⟨i, hport, hafter, hprobe⟩ := h.ready.exists_turn_of_nextPort hnext
        refine leads_of_ok (takePort_of_ok o hnext) ⟨rfl, [used + i], used + i + 1, ?_, ?_⟩
        · rw [hport, h.turn_eq]
          exact .handed (h.probe_eq ▸ hprobe)
        · rw [Nat.add_assoc]
          exact h.trans hafter

/-- A handle keeps what it is to launch. -/
theorem spec_of_start {spec : LaunchSpec} {handle : Handle} {w w' : World σ}
    (h : Handle.start o { spec } w = .ok handle w') : handle.spec = spec := by
  obtain ⟨genesis, w₁, -, h⟩ := Script.run_bind_eq_ok h
  obtain ⟨pid, w₂, -, h⟩ := Script.run_bind_eq_ok h
  obtain ⟨u, w₃, -, h⟩ := Script.run_bind_eq_ok h
  cases h
  rfl

/-- A client of a new name is made known together with its service. -/
theorem leads_enlist {name : String} (hname : name ∉ s.link.handles.map (·.1)) (caller : Service.Caller)
    (handle : Option Handle) {failed : Script.Session (Bench σ) → Prop} :
    Leads (Plan.enlist o name caller handle) s
      (fun _ s' => s'.link.handles = s.link.handles ++ (handle.map (name, ·)).toList ∧ s'.link.ports = s.link.ports)
      failed := by
  rw [enlist_eq]
  refine leads_get_bind ?_
  dsimp only
  rw [lookup_of_fresh hname]
  refine leads_of_ok rfl ⟨?_, rfl⟩
  cases handle with
  | some handle => exact put_of_fresh handle hname
  | none =>
    refine (List.filter_eq_self.2 fun entry hentry => ?_).trans (List.append_nil _).symm
    exact decide_eq_true fun heq => hname (List.mem_map.2 ⟨entry, hentry, heq⟩)

theorem leads_start {b : Bench σ} (hs : SameServices b s.link) (spec : LaunchSpec) :
    Leads (onWorld (Handle.start o { spec })) s (fun handle s' => handle.spec = spec ∧ SameServices b s'.link)
      fun s' => SameServices b s'.link :=
  leads_onWorld (fun _ _ h => ⟨spec_of_start o h, hs.handles_eq, hs.ports_eq⟩) fun _ _ _ => ⟨hs.handles_eq, hs.ports_eq⟩

/-- The bench `b'` has the services of `b` and behind them one of this name on these ports. -/
def Adds (name : String) (ports : ServicePorts) (b b' : Bench σ) : Prop :=
  ∃ handle : Handle, handle.spec.ports = ports ∧ b'.handles = b.handles ++ [(name, handle)] ∧ b'.ports = b.ports

theorem Adds.trans {name : String} {ports : ServicePorts} {b b' b'' : Bench σ} (h : Adds name ports b b')
    (h' : SameServices b' b'') : Adds name ports b b'' := by
  obtain ⟨handle, hports, hhandles, hleft⟩ := h
  exact ⟨handle, hports, h'.handles_eq.trans hhandles, h'.ports_eq.trans hleft⟩

namespace Plan

/-- Launches the service of a client on the ports that it has got. -/
def launchOn (p : Plan) (c : ClientSpec) (ports : ServicePorts) (executable : String) :
    Script.Action (Bench σ) Unit := do
  onWorld (clear (p.dataDir c))
  let handle ← onWorld (Handle.start o { spec := p.launchSpec c executable ports })
  let caller ← p.openCaller o c p.settings.service.host ports.rpc (some handle)
  setVariable (c.name ++ "_rpc_port") (.int (Int64.ofNat ports.rpc.toNat))
  setVariable (c.name ++ "_p2p_port") (.int (Int64.ofNat ports.p2p.toNat))
  setVariable (c.name ++ "_http_port") (.int (Int64.ofNat ports.http.toNat))
  enlist o c.name caller (some handle)
  match handle.child with
  | some pid => p.awaitService o caller handle pid
  | none => pure ()

variable (p : Plan) {c : ClientSpec}

theorem leads_launchOn (hname : c.name ∉ s.link.handles.map (·.1)) (ports : ServicePorts) (executable : String) :
    Leads (p.launchOn o c ports executable) s (fun _ s' => Adds c.name ports s.link s'.link)
      fun s' => SameServices s.link s'.link ∨ Adds c.name ports s.link s'.link := by
  refine (keeps_onWorld _).bind_leads (.refl _) (fun _ => .inl) fun _ s₁ hs₁ => ?_
  refine ((leads_start o hs₁ _).mono (fun _ _ h => h) fun _ => .inl).bind ?_
  rintro handle s₂ ⟨hspec, hs₂⟩
  refine (keeps_openCaller o p c _ _ _).bind_leads hs₂ (fun _ => .inl) fun caller s₃ hs₃ => ?_
  refine (keeps_setVariable _ _).bind_leads hs₃ (fun _ => .inl) fun _ s₄ hs₄ => ?_
  refine (keeps_setVariable _ _).bind_leads hs₄ (fun _ => .inl) fun _ s₅ hs₅ => ?_
  refine (keeps_setVariable _ _).bind_leads hs₅ (fun _ => .inl) fun _ s₆ hs₆ => ?_
  refine (leads_enlist o (hs₆.handles_eq ▸ hname) _ (some handle)).bind ?_
  rintro - s₇ ⟨hhandles, hports⟩
  have hadds : Adds c.name ports s.link s₇.link := by
    refine ⟨handle, by rw [hspec]; rfl, ?_, hports.trans hs₆.ports_eq⟩
    rw [hhandles, hs₆.handles_eq]
    rfl
  split
  · exact (keeps_awaitService o p _ handle _ s₇.link s₇ (.refl _)).mono (fun _ _ h => hadds.trans h)
      fun _ h => .inr (hadds.trans h)
  · exact leads_of_ok rfl hadds

theorem leads_connectClient (hname : c.name ∉ s.link.handles.map (·.1)) :
    Leads (p.connectClient o c) s (fun _ s' => SameServices s.link s'.link) fun s' => SameServices s.link s'.link := by
  rw [connectClient]
  split
  · exact leads_of_error rfl (.refl _)
  · refine (keeps_openCaller o p c _ _ none).bind_leads (.refl _) (fun _ h => h) fun caller s₁ hs₁ => ?_
    refine (keeps_setVariable _ _).bind_leads hs₁ (fun _ h => h) fun _ s₂ hs₂ => ?_
    refine (leads_enlist o (hs₂.handles_eq ▸ hname) _ none).mono ?_ fun _ h => h
    rintro - s₃ ⟨hhandles, hports⟩
    exact ⟨(hhandles.trans (List.append_nil _)).trans hs₂.handles_eq, hports.trans hs₂.ports_eq⟩

end Plan

/-! ## What a setup gives out -/

/-- The bench has services for these clients behind the `earlier` ones. Their ports are those that the clients ask for
and those of turns from `used` to `used'`. -/
def Serves (a : Allocator) (used : Nat) (earlier : List (String × Handle)) (clients : List ClientSpec) (used' : Nat)
    (b : Bench σ) : Prop :=
  ∃ added turns, b.handles = earlier ++ added ∧ added.map (·.1) = clients.map (·.name) ∧
    Filled a used (clients.flatMap asks) (portsOf added) turns used'

namespace Serves

variable {a : Allocator} {used used' used'' : Nat} {earlier : List (String × Handle)} {clients clients' : List ClientSpec}
  {b b' : Bench σ}

theorem nil (h : b.handles = earlier) : Serves a used earlier [] used b :=
  ⟨[], [], h.trans (List.append_nil _).symm, rfl, .nil a used⟩

theorem of_adds {c : ClientSpec} {ports : ServicePorts} {turns : List Nat} (h : Adds c.name ports b b')
    (hfilled : Filled a used (asks c) [ports.p2p, ports.rpc, ports.http] turns used') :
    Serves a used b.handles [c] used' b' := by
  obtain ⟨handle, rfl, hhandles, -⟩ := h
  refine ⟨[(c.name, handle)], turns, hhandles, rfl, ?_⟩
  rw [List.flatMap_singleton]
  exact hfilled

theorem append (h : Serves a used earlier clients used' b) (h' : Serves a used' b.handles clients' used'' b') :
    Serves a used earlier (clients ++ clients') used'' b' := by
  obtain ⟨added, turns, hhandles, hnames, hfilled⟩ := h
  obtain ⟨added', turns', hhandles', hnames', hfilled'⟩ := h'
  refine ⟨added ++ added', turns ++ turns', ?_, ?_, ?_⟩
  · rw [hhandles', hhandles, List.append_assoc]
  · rw [List.map_append, List.map_append, hnames, hnames']
  · rw [List.flatMap_append, portsOf, List.flatMap_append]
    exact hfilled.append hfilled'

theorem names (h : Serves a used earlier clients used' b) :
    b.handles.map (·.1) = earlier.map (·.1) ++ clients.map (·.name) := by
  obtain ⟨added, -, hhandles, hnames, -⟩ := h
  rw [hhandles, List.map_append, hnames]

end Serves

namespace Plan

variable {a : Allocator} {used : Nat} (p : Plan)

/-- A client that is spawned gets a service on ports of its own, or none if it fails before. -/
theorem leads_spawnClient (h : Allocator.After a used s.link.ports) {c : ClientSpec}
    (hname : c.name ∉ s.link.handles.map (·.1)) :
    Leads (p.spawnClient o c) s
      (fun _ s' => ∃ used', Serves a used s.link.handles [c] used' s'.link ∧ Allocator.After a used' s'.link.ports)
      fun s' => ∃ launched used', launched <+: [c] ∧ Serves a used s.link.handles launched used' s'.link := by
  have hnone : ∀ s' : Script.Session (Bench σ), s'.link.handles = s.link.handles →
      ∃ launched used', launched <+: [c] ∧ Serves a used s.link.handles launched used' s'.link :=
    fun s' hs' => ⟨[], used, List.nil_prefix, .nil hs'⟩
  refine ((leads_takePort o h c.p2pPort).mono (fun _ _ h => h) hnone).bind ?_
  rintro p2p s₁ ⟨hs₁, turns₁, used₁, hp2p, h₁⟩
  refine ((leads_takePort o h₁ c.rpcPort).mono (fun _ _ h => h) fun s' hs' => hnone s' (hs'.trans hs₁)).bind ?_
  rintro rpc s₂ ⟨hs₂, turns₂, used₂, hrpc, h₂⟩
  replace hs₂ := hs₂.trans hs₁
  refine ((leads_takePort o h₂ c.httpPort).mono (fun _ _ h => h) fun s' hs' => hnone s' (hs'.trans hs₂)).bind ?_
  rintro http s₃ ⟨hs₃, turns₃, used₃, hhttp, h₃⟩
  replace hs₃ := hs₃.trans hs₂
  have hfilled : Filled a used (asks c) [p2p, rpc, http] _ used₃ := (hp2p.append hrpc).append hhttp
  refine leads_get_bind ?_
  dsimp only
  split
  · rename_i executable _
    refine (p.leads_launchOn o (hs₃ ▸ hname) ⟨p2p, rpc, http⟩ executable).mono (fun _ s' hadds => ?_) fun s' hs' => ?_
    · exact ⟨used₃, hs₃ ▸ .of_adds hadds hfilled, hadds.choose_spec.2.2 ▸ h₃⟩
    · rcases hs' with hs' | hadds
      · exact hnone s' (hs'.handles_eq.trans hs₃)
      · exact ⟨[c], used₃, List.prefix_rfl, hs₃ ▸ .of_adds hadds hfilled⟩
  · exact leads_of_error rfl (hnone s₃ hs₃)

/-- Clients of different names are brought up: those that are spawned get services, in order, up to the first one that
fails. -/
theorem leads_bringUp {clients : List ClientSpec} (h : Allocator.After a used s.link.ports)
    (hnames : (clients.map (·.name)).Nodup) (hfresh : ∀ c ∈ clients, c.name ∉ s.link.handles.map (·.1)) :
    Leads (p.bringUp o clients) s
      (fun _ s' => ∃ used', Serves a used s.link.handles (clients.filter (·.spawn)) used' s'.link)
      fun s' => ∃ launched used', launched <+: clients.filter (·.spawn) ∧
        Serves a used s.link.handles launched used' s'.link := by
  -- the ports in use grow from client to client, and the names of those behind stay unused
  induction clients generalizing s used with
  | nil => exact leads_of_ok rfl ⟨used, .nil rfl⟩
  | cons c rest ih =>
    obtain ⟨hnew, hrest⟩ := List.nodup_cons.1 hnames
    have hc := hfresh c List.mem_cons_self
    have hlater : ∀ d ∈ rest, d.name ∉ s.link.handles.map (·.1) := fun d hd => hfresh d (List.mem_cons_of_mem _ hd)
    rw [bringUp]
    dsimp only
    split
    · rename_i hspawn
      rw [List.filter_cons_of_pos hspawn]
      refine ((p.leads_spawnClient o h hc).mono (fun _ _ h => h) ?_).bind ?_
      · rintro s' ⟨launched, used', hlaunched, hserves⟩
        exact ⟨launched, used', hlaunched.trans (List.prefix_append [c] _), hserves⟩
      · rintro - s₁ ⟨used₁, hserves, hafter⟩
        have hfresh₁ : ∀ d ∈ rest, d.name ∉ s₁.link.handles.map (·.1) := by
          intro d hd hmem
          rw [hserves.names] at hmem
          rcases List.mem_append.1 hmem with hmem | hmem
          · exact hlater d hd hmem
          · exact hnew (List.mem_map.2 ⟨d, hd, List.mem_singleton.1 hmem⟩)
        refine (ih hafter hrest hfresh₁).mono ?_ ?_
        · rintro - s' ⟨used', hserves'⟩
          exact ⟨used', hserves.append hserves'⟩
        · rintro s' ⟨launched, used', hlaunched, hserves'⟩
          exact ⟨c :: launched, used', List.cons_prefix_cons.2 ⟨rfl, hlaunched⟩, hserves.append hserves'⟩
    · rename_i hspawn
      rw [List.filter_cons_of_neg hspawn]
      refine ((p.leads_connectClient o hc).mono (fun _ _ h => h) ?_).bind ?_
      · intro s' hs'
        exact ⟨[], used, List.nil_prefix, .nil hs'.handles_eq⟩
      · intro _ s₁ hs₁
        rw [← hs₁.handles_eq]
        exact ih (hs₁.ports_eq ▸ h) hrest (hs₁.handles_eq ▸ hlater)

/-- A setup gives services to the clients that are spawned, in order, up to the first one that fails. -/
theorem leads_setup (ha : a.Ready) (w : World σ) (he : p.case.environment.validate = .ok p.case.environment) :
    Leads (p.setup o) { link := p.bench a w }
      (fun _ s' => ∃ used', Serves a 0 [] p.spawned used' s'.link)
      fun s' => ∃ launched used', launched <+: p.spawned ∧ Serves a 0 [] launched used' s'.link := by
  have hnone : ∀ s' : Script.Session (Bench σ), SameServices (p.bench a w) s'.link →
      ∃ launched used', launched <+: p.spawned ∧ Serves a 0 [] launched used' s'.link :=
    fun s' hs' => ⟨[], 0, List.nil_prefix, .nil hs'.handles_eq⟩
  refine (keeps_onWorld _).bind_leads (.refl _) hnone fun _ s₁ hs₁ => ?_
  dsimp only
  split
  · rw [pure_bind]
    refine Keeps.bind_leads (keeps_modify fun _ => ?_) hs₁ hnone fun _ s₂ hs₂ => ?_
    · rfl
    refine (keeps_setVariable _ _).bind_leads hs₂ hnone fun _ s₃ hs₃ => ?_
    refine (keeps_setVariable _ _).bind_leads hs₃ hnone fun _ s₄ hs₄ => ?_
    have hempty : s₄.link.handles = [] := hs₄.handles_eq
    have hafter : Allocator.After a 0 s₄.link.ports := by
      have hports : s₄.link.ports = a := hs₄.ports_eq
      rw [hports]
      exact ha.after_zero
    have hbring := p.leads_bringUp o hafter (nodup_names he) (by rw [hempty]; exact fun _ _ => List.not_mem_nil)
    rw [hempty] at hbring
    refine hbring.bind fun _ s₅ hserves => ?_
    split
    · exact leads_of_ok rfl hserves
    · exact leads_of_ok rfl hserves
  · exact leads_of_error rfl (hnone s₁ hs₁)

/-- The services of a run behind its setup, however that ends. -/
def services (p : Plan) (a : Allocator) (w : World σ) : List (String × Handle) :=
  (Script.endOf (p.setup o) { link := p.bench a w }).link.handles

/-- However a setup ends, its services are those of the first clients that are spawned, and of all of them if it passes. -/
theorem exists_services (ha : a.Ready) (w : World σ) (he : p.case.environment.validate = .ok p.case.environment) :
    ∃ launched turns used, launched <+: p.spawned ∧
      (Script.resultOf (p.setup o) { link := p.bench a w } = .ok () → launched = p.spawned) ∧
      (p.services o a w).map (·.1) = launched.map (·.name) ∧
      Filled a 0 (launched.flatMap asks) (portsOf (p.services o a w)) turns used := by
  have hleads := p.leads_setup o ha w he
  rw [services, Script.endOf, Script.resultOf]
  cases hsetup : (p.setup o).run { link := p.bench a w } with
  | ok u s' =>
    obtain ⟨used, added, turns, hhandles, hnames, hfilled⟩ := hleads.of_ok u s' hsetup
    obtain rfl : s'.link.handles = added := hhandles
    exact ⟨p.spawned, turns, used, List.prefix_rfl, fun _ => rfl, hnames, hfilled⟩
  | error fault s' =>
    obtain ⟨launched, used, hlaunched, added, turns, hhandles, hnames, hfilled⟩ := hleads.of_error fault s' hsetup
    obtain rfl : s'.link.handles = added := hhandles
    exact ⟨launched, turns, used, hlaunched, (fun h => by cases h), hnames, hfilled⟩

end Plan

end Spawning

/-- A run that brings up services gets ports for them one after the other, whatever ports are pinned. However its setup
ends, the first services have three ports each: those pinned, and for the others those of later and later turns of the
allocator. These ports differ exactly if the pinned ones do, no port that is handed out is pinned, and no whole rounds
lie between two turns; for an allocator that does not ask which ports are in use, if the first turns fit into a round and
none of their ports is pinned. A port is refused only by an allocator that asks, when somebody listens on every port of
its range. -/
theorem setup_ports {σ : Type} (o : Outside σ) (p : Plan) {a : Allocator} (ha : a.Ready) (w : World σ)
    (he : p.case.environment.validate = .ok p.case.environment) :
    (∃ (launched : List ClientSpec) (turns : List Nat), launched <+: p.spawned ∧
      (Script.resultOf (p.setup o) { link := p.bench a w } = .ok () → launched = p.spawned) ∧
      (p.services o a w).map (·.1) = launched.map (·.name) ∧
      portsOf (p.services o a w) = fill (launched.flatMap asks) (turns.map a.turn) ∧
      turns.length = (launched.flatMap asks).count none ∧ turns.Pairwise (· < ·) ∧
      ((portsOf (p.services o a w)).Nodup ↔ (pinned (launched.flatMap asks)).Nodup ∧
        (∀ t ∈ turns, a.turn t ∉ pinned (launched.flatMap asks)) ∧
        turns.Pairwise fun i j => i % a.width ≠ j % a.width) ∧
      (a.probe = false → ((portsOf (p.services o a w)).Nodup ↔ (pinned (launched.flatMap asks)).Nodup ∧
        (launched.flatMap asks).count none ≤ a.width ∧
        ∀ t < (launched.flatMap asks).count none, a.turn t ∉ pinned (launched.flatMap asks)))) ∧
    ∀ (busy : Option (List UInt16)) (f : Fault), (a.nextPort busy).1 = .error f ↔
      f = .portsExhausted a.min a.max ∧ a.probe = true ∧
        ∃ listening, busy = some listening ∧ ∀ port, a.min ≤ port → port < a.max → port ∈ listening := by
  obtain ⟨launched, turns, used, hlaunched, hall, hnames, hfilled⟩ := p.exists_services o ha w he
  exact ⟨⟨launched, turns, hlaunched, hall, hnames, hfilled.given_eq, hfilled.count, hfilled.increasing,
    hfilled.nodup_iff ha, hfilled.nodup_iff_of_gapless ha⟩, fun _ _ => ha.nextPort_eq_error_iff⟩

/-! ## Runs on fixed ranges -/

/-- Services start and answer at once. -/
def promptServices : Outside Unit where
  launch _ _ _ _ := .ok ()
  pass _ disk _ := (disk, ())
  status _ _ := none
  terminate _ _ := ()
  kill _ _ := ()
  exchange _ _ _ := (.reply 200 "\x7b\"result\":\x7b\x7d,\"error\":null,\"id\":1\x7d", 1, ())
  listening _ := none
  searchPath := []

/-- A disk without files. -/
def bareWorld : World Unit := { disk := { root := .dir [], here := "/" }, outside := () }

/-- A test with two clients, one of which is pinned to a port behind those that are handed out. -/
def onePinned : Plan :=
  { settings := {}
    case :=
      { name := "a"
        dir := "t/a"
        environment :=
          { clients :=
              [{ name := "alice", executable := some "svc", rpcPort := some 190 },
                { name := "bob", executable := some "svc" }] } } }

/-- The second half of the ports from 100 to 200. -/
def secondHalf : Allocator := { min := 150, max := 200, next := 150, probe := false }

theorem slice_secondHalf : Allocator.slice { min := 100, max := 200, probe := false } 1 2 = .ok secondHalf := by
  decide +kernel

/-- The setup of the two clients passes, and their six ports differ. -/
theorem setup_ports_two_clients :
    Script.resultOf (onePinned.setup promptServices) { link := onePinned.bench secondHalf bareWorld } = .ok () ∧
    (portsOf (onePinned.services promptServices secondHalf bareWorld)).Nodup := by
  have hready : secondHalf.Ready := Allocator.ready_slice slice_secondHalf
  have hpasses : Script.resultOf (onePinned.setup promptServices) { link := onePinned.bench secondHalf bareWorld } =
      .ok () := by decide +kernel
  obtain ⟨⟨launched, turns, -, hall, -, -, -, -, -, hnodup⟩, -⟩ :=
    setup_ports promptServices onePinned hready bareWorld rfl
  obtain rfl := hall hpasses
  exact ⟨hpasses, (hnodup rfl).2 (by decide +kernel)⟩

/-- A test whose only client is pinned to the first port that is handed out. -/
def firstPinned : Plan :=
  { settings := {}
    case :=
      { name := "a"
        dir := "t/a"
        environment := { clients := [{ name := "al", executable := some "svc", rpcPort := some 100 }] } } }

/-- The environment is accepted as it is read, and the setup passes with a service that has one port twice. -/
theorem pinned_port_handed_out :
    (Environment.read "t/a/testenv.yaml" "clients:\n- name: al\n  executable: svc\n  rpc_port: 100\n").toOption.map
      (·.clients) = some firstPinned.case.environment.clients ∧
    firstPinned.case.environment.validate = .ok firstPinned.case.environment ∧
    (pinned (firstPinned.spawned.flatMap asks)).Nodup ∧
    Script.resultOf (firstPinned.setup promptServices) { link := firstPinned.bench (.new 100 200) bareWorld } = .ok () ∧
    portsOf (firstPinned.services promptServices (.new 100 200) bareWorld) = [100, 100, 101] :=
  ⟨by decide +kernel, rfl, by decide +kernel, by decide +kernel, by decide +kernel⟩

end Conformance.Runs
