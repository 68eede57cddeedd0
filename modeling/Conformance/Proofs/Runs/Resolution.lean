import Conformance.Proofs.Runs.ServicePorts
import Conformance.Proofs.Runs.SetupFaults

/-!
# Clients that a setup makes known

Each client that a setup brings up is registered under its name, the bench has a caller for it, and its variables hold its
ports (`Joins`); nothing that belongs to a client of another name changes, since no variable of the one is called like one
of the other (`portName_inj`). So what a setup leaves is right for all clients of an accepted environment, and the scripts
behind it find every client that they address (`setup_resolves`).
-/
namespace Conformance.Runs

open Service Cases Script

/-! ## Accepted environments -/

theorem ports_of_checkClients {seen : List String} {clients : List ClientSpec}
    (h : Environment.checkClients seen clients = .ok ()) : ∀ c ∈ clients, c.spawn = false → c.rpcPort.isSome := by
  induction clients generalizing seen with
  | nil => exact fun _ hc => absurd hc List.not_mem_nil
  | cons c r ih =>
    rw [Environment.checkClients] at h
    split at h
    · cases h
    · split at h
      · cases h
      · rename_i hport
        refine List.forall_mem_cons.2 ⟨fun hspawn => ?_, ih h⟩
        rw [hspawn] at hport
        simpa [Option.isSome_iff_ne_none] using hport

theorem active_of_validate {e : Environment} (h : e.validate = .ok e) {name : String} (hactive : e.active = some name) :
    name ∈ e.clients.map (·.name) := by
  rw [Environment.validate, (validate_ok h).2] at h
  simp only [hactive] at h
  split at h
  · rename_i hany
    obtain ⟨c, hc, hname⟩ := List.any_eq_true.1 hany
    exact List.mem_map.2 ⟨c, hc, of_decide_eq_true hname⟩
  · cases h

/-! ## Entries by name -/

section Entries

variable {α : Type} {entries : List (String × α)} {name other : String} {a : α}

theorem lookup_put_self : (put name a entries).lookup name = some a := by
  induction entries with
  | nil => exact List.lookup_cons_self
  | cons entry rest ih =>
    obtain ⟨n, b⟩ := entry
    rw [put]
    split
    · rename_i hname
      rw [hname, List.lookup_cons_self]
    · rename_i hname
      rw [List.lookup_cons, beq_false_of_ne (Ne.symm hname)]
      exact ih

theorem lookup_put_of_ne (h : other ≠ name) : (put name a entries).lookup other = entries.lookup other := by
  induction entries with
  | nil => rw [put, List.lookup_cons, beq_false_of_ne h]
  | cons entry rest ih =>
    obtain ⟨n, b⟩ := entry
    rw [put]
    split
    · rename_i hname
      rw [List.lookup_cons, List.lookup_cons, hname, beq_false_of_ne h]
    · rw [List.lookup_cons, List.lookup_cons, ih]

theorem lookup_filter_self : (entries.filter (·.1 ≠ name)).lookup name = none := by
  rw [List.lookup_eq_none_iff]
  intro entry hentry
  have hne := of_decide_eq_true (List.mem_filter.1 hentry).2
  exact bne_iff_ne.2 (Ne.symm hne)

theorem lookup_filter_of_ne (h : other ≠ name) : (entries.filter (·.1 ≠ name)).lookup other = entries.lookup other := by
  induction entries with
  | nil => rfl
  | cons entry rest ih =>
    obtain ⟨n, b⟩ := entry
    by_cases hname : n = name
    · rw [List.filter_cons_of_neg (by simpa using hname), List.lookup_cons, hname, beq_false_of_ne h]
      exact ih
    · rw [List.filter_cons_of_pos (by simpa using hname), List.lookup_cons, List.lookup_cons, ih]

end Entries

/-! ## The names of port variables -/

/-- The variables of a client that hold ports are called by its name and one of these. -/
def portSuffixes : List String := ["_rpc_port", "_p2p_port", "_http_port"]

/-- What a port variable is called tells the client and the port apart. -/
theorem portName_inj {name other kind kind' : String} (hkind : kind ∈ portSuffixes) (hkind' : kind' ∈ portSuffixes)
    (h : name ++ kind = other ++ kind') : name = other ∧ kind = kind' := by
  -- the last nine characters are enough to tell the suffixes apart
  have hlast : ∀ suffix ∈ portSuffixes, ∀ s : String,
      (s ++ suffix).toList.reverse.take 9 = suffix.toList.reverse.take 9 := by
    intro suffix hsuffix s
    have hlength : 9 ≤ suffix.toList.reverse.length := by
      revert suffix
      decide
    rw [String.toList_append, List.reverse_append, List.take_append_of_le_length hlength]
  have hsame := congrArg (fun s => s.toList.reverse.take 9) h
  rw [hlast kind hkind, hlast kind' hkind'] at hsame
  have hdiffer : ∀ kind ∈ portSuffixes, ∀ kind' ∈ portSuffixes,
      kind.toList.reverse.take 9 = kind'.toList.reverse.take 9 → kind = kind' := by decide
  obtain rfl := hdiffer kind hkind kind' hkind' hsame
  exact ⟨String.append_left_inj _ |>.1 h, rfl⟩

/-! ## What waiting leaves of callers -/

namespace Bench

variable {σ : Type} (o : Outside σ)

theorem callers_look (b : Bench σ) : (b.look o).callers = b.callers := by
  rw [look]
  split
  · rfl
  · split <;> rfl

theorem callers_waitUntil (time n : Nat) (b : Bench σ) : (b.waitUntil o time n).callers = b.callers := by
  induction n generalizing b with
  | zero => rfl
  | succ n ih =>
    rw [waitUntil]
    split
    · rfl
    · dsimp only
      split
      · rfl
      · rw [ih, callers_look]
        rfl

theorem callers_exchange (endpoint : Endpoint) (request : Request) (b : Bench σ) :
    (b.exchange o endpoint request).2.callers = b.callers := by
  have hwait : ∀ ms (b : Bench σ), (b.wait o ms).callers = b.callers := fun _ b => callers_waitUntil o _ _ b
  rw [exchange]
  split
  · rfl
  · dsimp only
    split
    · exact hwait _ _
    · split
      · exact hwait _ _
      · exact hwait _ _

theorem callers_awaitReady (schedule : Backoff) (caller : Caller) (b : Bench σ) :
    (caller.awaitReady (carrier o) schedule b).2.2.callers = b.callers :=
  Caller.awaitReadyFrom_keeps (P := fun b' : Bench σ => b'.callers = b.callers)
    (fun endpoint request b' h => (callers_exchange o endpoint request b').trans h)
    (fun _ b' h => (callers_waitUntil o _ _ b').trans h) _ _ _ _ rfl

end Bench

/-- Whoever waits for a service does so at one endpoint. -/
theorem endpoint_call {τ : Type} (carrier : Carrier τ) (method : String) (params : List Json) (caller : Caller) (t : τ) :
    (caller.call carrier method params t).2.1.endpoint = caller.endpoint := by
  have honce : ∀ (caller : Caller) (t : τ), (caller.callOnce carrier method params t).2.1.endpoint = caller.endpoint :=
    fun _ _ => rfl
  rw [Caller.call]
  split
  · rename_i hmismatch
    have hfirst := honce caller t
    rw [hmismatch] at hfirst
    exact (honce _ _).trans hfirst
  · exact honce caller t

theorem endpoint_awaitReadyFrom {τ : Type} (timed : TimedCarrier τ) (schedule : Backoff) (start n : Nat)
    (caller : Caller) (t : τ) : (caller.awaitReadyFrom timed schedule start n t).2.1.endpoint = caller.endpoint := by
  induction n generalizing caller t with
  | zero => rfl
  | succ n ih =>
    have hcall := endpoint_call timed.toCarrier statusMethod [] caller t
    rw [Caller.awaitReadyFrom]
    split
    · rename_i hreply
      rw [hreply] at hcall
      exact hcall
    · rename_i hreply
      rw [hreply] at hcall
      exact hcall
    · rename_i hreply
      rw [hreply] at hcall
      split
      · exact hcall
      · split
        · exact hcall
        · exact (ih _ _).trans hcall

/-! ## Actions that change nothing that scripts see -/

section Idle

variable {σ α β : Type}

/-- The sessions are the same but for the world and for the ports that have been handed out. -/
def Idle (s s' : Session (Bench σ)) : Prop := ∃ world ports, s' = { s with link := { s.link with world, ports } }

theorem Idle.refl (s : Session (Bench σ)) : Idle s s := ⟨_, _, rfl⟩

theorem Idle.trans {s s' s'' : Session (Bench σ)} (h : Idle s s') (h' : Idle s' s'') : Idle s s'' := by
  obtain ⟨_, _, rfl⟩ := h
  obtain ⟨world, ports, rfl⟩ := h'
  exact ⟨world, ports, rfl⟩

/-- However the action ends with a result, it has been idle. -/
def Idles (x : Action (Bench σ) α) : Prop := ∀ s, Leads x s (fun _ s' => Idle s s') fun _ => True

theorem idles_onWorld (e : Effect σ α) : Idles (onWorld e) :=
  fun _ => leads_onWorld (fun _ world _ => ⟨world, _, rfl⟩) fun _ _ _ => trivial

theorem idles_takePort (o : Outside σ) (asked : Option UInt16) : Idles (Plan.takePort o asked) := by
  intro s
  refine upholds_takePort o asked (I := fun s' => Idle s s') (fun s' ports h => ?_) (fun _ _ => trivial) s (.refl s)
  exact h.trans ⟨_, ports, rfl⟩

/-- What follows an idle action starts from a session that is the same to scripts. -/
theorem Idles.bind_leads {x : Action (Bench σ) α} {g : α → Action (Bench σ) β} {s : Session (Bench σ)}
    {done : β → Session (Bench σ) → Prop} (hx : Idles x)
    (hg : ∀ a s', Idle s s' → Leads (g a) s' done fun _ => True) : Leads (x >>= g) s done fun _ => True :=
  (hx s).bind hg

theorem leads_setVariable_bind {name : String} {value : Expr.Value} {g : Unit → Action (Bench σ) β}
    {s : Session (Bench σ)} {done : β → Session (Bench σ) → Prop} {failed : Session (Bench σ) → Prop}
    (h : Leads (g ()) { s with vars := s.vars.set name value } done failed) :
    Leads (setVariable name value >>= g) s done failed := ⟨h.of_ok, h.of_error⟩

theorem leads_openCaller_endpoint (o : Outside σ) (p : Plan) (c : ClientSpec) (host : String) (port : UInt16)
    (handle : Option Handle) (s : Session (Bench σ)) :
    Leads (p.openCaller o c host port handle) s
      (fun caller s' => Idle s s' ∧ caller.endpoint = p.endpoint c host port) fun _ => True := by
  refine leads_get_bind ?_
  dsimp only
  split
  · exact leads_of_ok rfl ⟨.refl s, rfl⟩
  · cases handle with
    | none => exact leads_of_error rfl trivial
    | some handle => exact (idles_onWorld _).bind_leads fun _ _ _ => leads_of_error rfl trivial

end Idle

/-! ## A client that joins -/

section Joining

variable {σ : Type} (o : Outside σ) (p : Plan) {s s' s'' : Session (Bench σ)}

/-- The variables with those set that hold the ports of a client. -/
def setPorts (name : String) (ports : List (String × UInt16)) (vars : Expr.Env) : Expr.Env :=
  ports.foldl (fun env port => env.set (name ++ port.1) (.int (Int64.ofNat port.2.toNat))) vars

/-- A client has become known: it is registered, there is a caller for it and perhaps a handle, and variables hold its
ports. Nothing else has changed that scripts see. -/
structure Joins (name : String) (endpoint : Endpoint) (handle : Option Handle) (ports : List (String × UInt16))
    (s s' : Session (Bench σ)) : Prop where
  vars_eq : s'.vars = setPorts name ports s.vars
  clients_eq : s'.clients = (s.register { name }).clients
  active_eq : s'.active = some (s.active.getD name)
  caller : ∃ caller : Caller, caller.endpoint = endpoint ∧ s'.link.callers.lookup name = some caller
  handle_eq : s'.link.handles.lookup name = handle
  callers : ∀ other, other ≠ name → s'.link.callers.lookup other = s.link.callers.lookup other
  handles : ∀ other, other ≠ name → s'.link.handles.lookup other = s.link.handles.lookup other

theorem Joins.of_idle {name : String} {endpoint : Endpoint} {handle : Option Handle} {ports : List (String × UInt16)}
    (hidle : Idle s s') (h : Joins name endpoint handle ports s' s'') : Joins name endpoint handle ports s s'' := by
  obtain ⟨world, given, rfl⟩ := hidle
  exact ⟨h.vars_eq, h.clients_eq, h.active_eq, h.caller, h.handle_eq, h.callers, h.handles⟩

theorem leads_enlist_joins (name : String) (caller : Caller) (handle : Option Handle) (s : Session (Bench σ)) :
    Leads (Plan.enlist o name caller handle) s (fun _ s' => Joins name caller.endpoint handle [] s s') fun _ => True := by
  rw [enlist_eq]
  -- whether or not a handle is replaced, the client is put in its place and registered
  have hplace : ∀ change : Bench σ → Bench σ, (∀ b, (change b).callers = put name caller b.callers) →
      (∀ b, (change b).handles = handle.elim (b.handles.filter (·.1 ≠ name)) (put name · b.handles)) →
      ∀ s, Leads (do
        onBench change
        modify (·.register { name }) : Action (Bench σ) Unit) s (fun _ s' => Joins name caller.endpoint handle [] s s')
          fun _ => True := by
    intro change hcallers hhandles s
    refine leads_of_ok rfl ⟨rfl, rfl, rfl, ⟨caller, rfl, ?_⟩, ?_, fun other hother => ?_, fun other hother => ?_⟩
    · show (change s.link).callers.lookup name = _
      rw [hcallers, lookup_put_self]
    · show (change s.link).handles.lookup name = _
      rw [hhandles]
      cases handle with
      | some h => exact lookup_put_self
      | none => exact lookup_filter_self
    · show (change s.link).callers.lookup other = _
      rw [hcallers, lookup_put_of_ne hother]
    · show (change s.link).handles.lookup other = _
      rw [hhandles]
      cases handle with
      | some h => exact lookup_put_of_ne hother
      | none => exact lookup_filter_of_ne hother
  refine leads_get_bind ?_
  dsimp only
  split
  · refine (idles_onWorld _).bind_leads fun _ s₁ hs₁ => ?_
    exact (hplace _ (fun _ => rfl) (fun _ => by cases handle <;> rfl) s₁).mono (fun _ _ h => h.of_idle hs₁) fun _ h => h
  · exact hplace _ (fun _ => rfl) (fun _ => by cases handle <;> rfl) s

/-- Waiting for a client changes nothing but the number of its next request. -/
theorem leads_awaitService_joins {caller : Caller} {handle : Handle} {ports : List (String × UInt16)} (pid : Nat)
    (h : Joins handle.spec.name caller.endpoint (some handle) ports s s') :
    Leads (p.awaitService o caller handle pid) s'
      (fun _ s'' => Joins handle.spec.name caller.endpoint (some handle) ports s s'') fun _ => True := by
  obtain ⟨done, hdone, ⟨hok, -⟩ | ⟨fault, herror⟩⟩ := awaitService_cases o p caller handle pid s'
  · have hcallers : done.2.2.callers = s'.link.callers := by
      rw [hdone, awaited, Bench.callers_awaitReady, Bench.callers_look]
    have hhandles : done.2.2.handles = s'.link.handles := by
      rw [hdone, awaited, (Bench.sameServices_awaitReady o _ _ _).handles_eq, (Bench.sameServices_look o _).handles_eq]
    have hendpoint : done.2.1.endpoint = caller.endpoint := by
      rw [hdone, awaited]
      exact endpoint_awaitReadyFrom _ _ _ _ caller _
    refine leads_of_ok hok ⟨h.vars_eq, h.clients_eq, h.active_eq, ⟨done.2.1, hendpoint, lookup_put_self⟩, ?_,
      fun other hother => ?_, fun other hother => ?_⟩
    · exact (congrArg (List.lookup handle.spec.name) hhandles).trans h.handle_eq
    · refine (lookup_put_of_ne hother).trans ?_
      rw [hcallers]
      exact h.callers other hother
    · exact (congrArg (List.lookup other) hhandles).trans (h.handles other hother)
  · exact leads_of_error herror trivial

theorem Joins.of_vars {name : String} {endpoint : Endpoint} {handle : Option Handle} {ports : List (String × UInt16)}
    (h : Joins name endpoint handle [] { s with vars := setPorts name ports s.vars } s') :
    Joins name endpoint handle ports s s' :=
  ⟨h.vars_eq, h.clients_eq, h.active_eq, h.caller, h.handle_eq, h.callers, h.handles⟩

/-- The ports of a service, by the names of the variables that hold them. -/
def portsByName (ports : ServicePorts) : List (String × UInt16) :=
  [("_rpc_port", ports.rpc), ("_p2p_port", ports.p2p), ("_http_port", ports.http)]

theorem leads_spawnClient_joins (c : ClientSpec) (s : Session (Bench σ)) :
    Leads (p.spawnClient o c) s
      (fun _ s' => ∃ handle : Handle, Joins c.name (p.endpoint c p.settings.service.host handle.spec.ports.rpc)
        (some handle) (portsByName handle.spec.ports) s s') fun _ => True := by
  rw [Plan.spawnClient]
  refine (idles_takePort o _).bind_leads fun p2p s₁ hs₁ => (idles_takePort o _).bind_leads fun rpc s₂ hs₂ =>
    (idles_takePort o _).bind_leads fun http s₃ hs₃ => leads_get_bind ?_
  dsimp only
  split
  · rename_i executable _
    rw [pure_bind]
    refine (idles_onWorld _).bind_leads fun _ s₄ hs₄ => ?_
    have hstart : Leads (onWorld (Handle.start o { spec := p.launchSpec c executable ⟨p2p, rpc, http⟩ })) s₄
        (fun handle s' => Idle s₄ s' ∧ handle.spec = p.launchSpec c executable ⟨p2p, rpc, http⟩) fun _ => True :=
      leads_onWorld (fun _ world h => ⟨⟨world, _, rfl⟩, spec_of_start o h⟩) fun _ _ _ => trivial
    refine hstart.bind ?_
    rintro handle s₅ ⟨hs₅, hspec⟩
    refine (leads_openCaller_endpoint o p c _ _ _ s₅).bind ?_
    rintro caller s₆ ⟨hs₆, hendpoint⟩
    have hidle : Idle s s₆ := ((((hs₁.trans hs₂).trans hs₃).trans hs₄).trans hs₅).trans hs₆
    have hname : handle.spec.name = c.name := congrArg LaunchSpec.name hspec
    have hports : handle.spec.ports = ⟨p2p, rpc, http⟩ := congrArg LaunchSpec.ports hspec
    have hdone : ∀ s', Joins handle.spec.name caller.endpoint (some handle) (portsByName handle.spec.ports) s s' →
        ∃ handle : Handle, Joins c.name (p.endpoint c p.settings.service.host handle.spec.ports.rpc) (some handle)
          (portsByName handle.spec.ports) s s' := by
      intro s' h
      have hrpc : handle.spec.ports.rpc = rpc := by rw [hports]
      rw [hname, hendpoint, ← hrpc] at h
      exact ⟨handle, h⟩
    -- the variables are set one after the other
    refine leads_setVariable_bind (leads_setVariable_bind (leads_setVariable_bind ?_))
    have henlist := leads_enlist_joins o c.name caller (some handle)
      { s₆ with vars := setPorts c.name (portsByName ⟨p2p, rpc, http⟩) s₆.vars }
    refine Leads.bind henlist fun _ s₇ hs₇ => ?_
    have hjoins : Joins handle.spec.name caller.endpoint (some handle) (portsByName handle.spec.ports) s s₇ := by
      rw [hname, hports]
      exact hs₇.of_vars.of_idle hidle
    split
    · exact (leads_awaitService_joins o p _ hjoins).mono (fun _ s' hs' => hdone s' hs') fun _ h => h
    · exact leads_of_ok rfl (hdone s₇ hjoins)
  · exact leads_of_error rfl trivial

theorem leads_connectClient_joins (c : ClientSpec) (s : Session (Bench σ)) :
    Leads (p.connectClient o c) s
      (fun _ s' => ∃ port, c.rpcPort = some port ∧
        Joins c.name (p.endpoint c (c.host.getD p.settings.service.host) port) none [("_rpc_port", port)] s s')
      fun _ => True := by
  rw [Plan.connectClient]
  cases hport : c.rpcPort with
  | none => exact leads_of_error rfl trivial
  | some port =>
    refine (leads_openCaller_endpoint o p c _ _ _ s).bind ?_
    rintro caller s₁ ⟨hs₁, hendpoint⟩
    have henlist := leads_enlist_joins o c.name caller none
      { s₁ with vars := setPorts c.name [("_rpc_port", port)] s₁.vars }
    refine leads_setVariable_bind (Leads.mono henlist (fun _ s' hs' => ?_) fun _ h => h)
    rw [hendpoint] at hs'
    exact ⟨port, rfl, hs'.of_vars.of_idle hs₁⟩

/-! ## What is known of a client -/

/-- The variable of the client holds this port. -/
def HoldsPort (s : Session (Bench σ)) (name kind : String) (port : UInt16) : Prop :=
  s.vars.get? (name ++ kind) = some (.int (Int64.ofNat port.toNat))

/-- The client is registered under its name, and its variables hold the ports that its service was launched with, or the
one at which the service is reached that runs already. -/
structure Resolves (s : Session (Bench σ)) (c : ClientSpec) : Prop where
  registered : s.client? c.name = some { name := c.name }
  launched : c.spawn = true → ∃ (handle : Handle) (caller : Caller), s.link.handles.lookup c.name = some handle ∧
    s.link.callers.lookup c.name = some caller ∧ caller.endpoint.port = handle.spec.ports.rpc ∧
    HoldsPort s c.name "_rpc_port" handle.spec.ports.rpc ∧ HoldsPort s c.name "_p2p_port" handle.spec.ports.p2p ∧
    HoldsPort s c.name "_http_port" handle.spec.ports.http
  connected : c.spawn = false → ∃ (port : UInt16) (caller : Caller), c.rpcPort = some port ∧
    s.link.handles.lookup c.name = none ∧ s.link.callers.lookup c.name = some caller ∧ caller.endpoint.port = port ∧
    HoldsPort s c.name "_rpc_port" port

/-- Nothing that belongs to the client of this name has changed. -/
structure SameFor (name : String) (s s' : Session (Bench σ)) : Prop where
  client : s'.client? name = s.client? name
  caller : s'.link.callers.lookup name = s.link.callers.lookup name
  handle : s'.link.handles.lookup name = s.link.handles.lookup name
  vars : ∀ kind ∈ portSuffixes, s'.vars.get? (name ++ kind) = s.vars.get? (name ++ kind)

theorem SameFor.trans {name : String} (h : SameFor name s s') (h' : SameFor name s' s'') : SameFor name s s'' :=
  ⟨h'.client.trans h.client, h'.caller.trans h.caller, h'.handle.trans h.handle,
    fun kind hkind => (h'.vars kind hkind).trans (h.vars kind hkind)⟩

/-- What is known of a client stays so as long as nothing changes for it. -/
theorem Resolves.of_same {c : ClientSpec} (h : Resolves s c) (hsame : SameFor c.name s s') : Resolves s' c := by
  have hvars : ∀ {kind : String} {port : UInt16}, kind ∈ portSuffixes → HoldsPort s c.name kind port →
      HoldsPort s' c.name kind port := fun hkind hport => (hsame.vars _ hkind).trans hport
  refine ⟨hsame.client.trans h.registered, fun hspawn => ?_, fun hspawn => ?_⟩
  · obtain ⟨handle, caller, hhandle, hcaller, hport, hrpc, hp2p, hhttp⟩ := h.launched hspawn
    exact ⟨handle, caller, hsame.handle.trans hhandle, hsame.caller.trans hcaller, hport, hvars (by decide) hrpc,
      hvars (by decide) hp2p, hvars (by decide) hhttp⟩
  · obtain ⟨port, caller, hasked, hhandle, hcaller, hport, hrpc⟩ := h.connected hspawn
    exact ⟨port, caller, hasked, hsame.handle.trans hhandle, hsame.caller.trans hcaller, hport, hvars (by decide) hrpc⟩

theorem get?_setPorts_of_ne {name key : String} {ports : List (String × UInt16)} {vars : Expr.Env}
    (h : ∀ port ∈ ports, key ≠ name ++ port.1) : (setPorts name ports vars).get? key = vars.get? key := by
  induction ports generalizing vars with
  | nil => rfl
  | cons port rest ih =>
    obtain ⟨hne, hrest⟩ := List.forall_mem_cons.1 h
    exact (ih hrest).trans (vars.get?_set_of_ne _ hne)

theorem get?_setPorts {name kind : String} {port : UInt16} {ports : List (String × UInt16)} {vars : Expr.Env}
    (hdiffer : (ports.map (·.1)).Nodup) (hport : (kind, port) ∈ ports) :
    (setPorts name ports vars).get? (name ++ kind) = some (.int (Int64.ofNat port.toNat)) := by
  induction ports generalizing vars with
  | nil => cases hport
  | cons first rest ih =>
    obtain ⟨hfirst, hrest⟩ := List.nodup_cons.1 hdiffer
    rcases List.mem_cons.1 hport with rfl | hport
    · -- none of the ports behind it is held by the same variable
      have hbehind : ∀ other ∈ rest, name ++ kind ≠ name ++ other.1 := by
        intro other hother heq
        rw [String.append_right_inj _ |>.1 heq] at hfirst
        exact hfirst (List.mem_map.2 ⟨other, hother, rfl⟩)
      have hset := vars.get?_set_self (name ++ kind) (.int (Int64.ofNat port.toNat))
      exact (get?_setPorts_of_ne hbehind).trans hset
    · exact ih hrest hport

section Joined

variable {name : String} {endpoint : Endpoint} {handle : Option Handle} {ports : List (String × UInt16)}

/-- A client that joins changes nothing for the others. -/
theorem Joins.sameFor (h : Joins name endpoint handle ports s s') (hkinds : ∀ port ∈ ports, port.1 ∈ portSuffixes)
    {other : String} (hother : other ≠ name) : SameFor other s s' := by
  refine ⟨?_, h.callers other hother, h.handles other hother, fun kind hkind => ?_⟩
  · rw [← Session.client?_register_of_ne s hother, Session.client?, h.clients_eq]
    rfl
  · rw [h.vars_eq, get?_setPorts_of_ne]
    intro port hport heq
    exact hother (portName_inj hkind (hkinds port hport) heq).1

theorem Joins.registered (h : Joins name endpoint handle ports s s') : s'.client? name = some { name } := by
  rw [← Session.client?_register_self s name, Session.client?, h.clients_eq]
  rfl

theorem Joins.holdsPort (h : Joins name endpoint handle ports s s') (hdiffer : (ports.map (·.1)).Nodup) {kind : String}
    {port : UInt16} (hport : (kind, port) ∈ ports) : HoldsPort s' name kind port := by
  rw [HoldsPort, h.vars_eq]
  exact get?_setPorts hdiffer hport

end Joined

/-- A client has been brought up. -/
def BringsUp (c : ClientSpec) (s s' : Session (Bench σ)) : Prop :=
  Resolves s' c ∧ (∀ other, other ≠ c.name → SameFor other s s') ∧ s'.active = some (s.active.getD c.name)

theorem leads_spawnClient_bringsUp {c : ClientSpec} (hspawn : c.spawn = true) (s : Session (Bench σ)) :
    Leads (p.spawnClient o c) s (fun _ s' => BringsUp c s s') fun _ => True := by
  refine (leads_spawnClient_joins o p c s).mono ?_ fun _ h => h
  rintro - s' ⟨handle, h⟩
  obtain ⟨caller, hendpoint, hcaller⟩ := h.caller
  have hdiffer : ((portsByName handle.spec.ports).map (·.1)).Nodup := (by decide : portSuffixes.Nodup)
  refine ⟨⟨h.registered, fun _ => ⟨handle, caller, h.handle_eq, hcaller, congrArg Endpoint.port hendpoint, ?_, ?_, ?_⟩,
    fun hconnected => ?_⟩, fun other hother => h.sameFor ?_ hother, h.active_eq⟩
  · exact h.holdsPort hdiffer (.head _)
  · exact h.holdsPort hdiffer (.tail _ (.head _))
  · exact h.holdsPort hdiffer (.tail _ (.tail _ (.head _)))
  · rw [hspawn] at hconnected
    cases hconnected
  · simp [portsByName, portSuffixes]

theorem leads_connectClient_bringsUp {c : ClientSpec} (hspawn : ¬ c.spawn = true) (s : Session (Bench σ)) :
    Leads (p.connectClient o c) s (fun _ s' => BringsUp c s s') fun _ => True := by
  refine (leads_connectClient_joins o p c s).mono ?_ fun _ h => h
  rintro - s' ⟨port, hport, h⟩
  obtain ⟨caller, hendpoint, hcaller⟩ := h.caller
  refine ⟨⟨h.registered, fun hlaunched => absurd hlaunched hspawn, fun _ => ⟨port, caller, hport, h.handle_eq, hcaller,
    congrArg Endpoint.port hendpoint, ?_⟩⟩, fun other hother => h.sameFor ?_ hother, h.active_eq⟩
  · exact h.holdsPort (List.nodup_singleton _) (.head _)
  · simp [portSuffixes]

/-- Clients have been brought up: what is known of each of them is right, and nothing has changed for other names. The
first one is active if none has been before. -/
structure Brought (clients : List ClientSpec) (s s' : Session (Bench σ)) : Prop where
  resolves : ∀ c ∈ clients, Resolves s' c
  others : ∀ name, name ∉ clients.map (·.name) → SameFor name s s'
  active_eq : s'.active = s.active.or (clients.head?.map (·.name))

theorem BringsUp.cons {c : ClientSpec} {rest : List ClientSpec} (hc : c.name ∉ rest.map (·.name))
    (h : BringsUp c s s') (hrest : Brought rest s' s'') : Brought (c :: rest) s s'' := by
  obtain ⟨hresolves, hothers, hactive⟩ := h
  refine ⟨List.forall_mem_cons.2 ⟨hresolves.of_same (hrest.others c.name hc), hrest.resolves⟩, fun name hname => ?_, ?_⟩
  · obtain ⟨hne, hnotin⟩ := not_or.1 (mt List.mem_cons.2 hname)
    exact (hothers name hne).trans (hrest.others name hnotin)
  · rw [hrest.active_eq, hactive]
    cases s.active <;> rfl

/-- Clients of different names can be brought up one after the other. -/
theorem leads_bringUp_brought {clients : List ClientSpec} (hnames : (clients.map (·.name)).Nodup)
    (s : Session (Bench σ)) : Leads (p.bringUp o clients) s (fun _ s' => Brought clients s s') fun _ => True := by
  induction clients generalizing s with
  | nil =>
    refine leads_of_ok rfl ⟨fun _ hc => absurd hc List.not_mem_nil, fun _ _ => ⟨rfl, rfl, rfl, fun _ _ => rfl⟩, ?_⟩
    exact (Option.or_none).symm
  | cons c rest ih =>
    obtain ⟨hc, hrest⟩ := List.nodup_cons.1 hnames
    have hnext : ∀ s', BringsUp c s s' → Leads (p.bringUp o rest) s' (fun _ s'' => Brought (c :: rest) s s'')
        fun _ => True := fun s' hs' => (ih hrest s').mono (fun _ s'' hs'' => hs'.cons hc hs'') fun _ h => h
    rw [Plan.bringUp]
    dsimp only
    split
    · rename_i hspawn
      exact (leads_spawnClient_bringsUp o p hspawn s).bind fun _ => hnext
    · rename_i hspawn
      exact (leads_connectClient_bringsUp o p hspawn s).bind fun _ => hnext

end Joining

/-! ## Connections -/

theorem not_missesClient_result {number : UInt64} {exchange : Exchange} {f : Fault}
    (h : exchange.result number = .error f) :
    ¬ MissesClient f := by
  cases exchange with
  | lost reason =>
    cases h
    exact id
  | cancelled =>
    cases h
    exact id
  | reply status body =>
    have hreply : replyResult number status body = .error f := h
    rw [replyResult] at hreply
    split at hreply
    · split at hreply <;> cases hreply <;> exact id
    · split at hreply
      · cases hreply
        exact id
      · split at hreply
        · cases hreply
          exact id
        · split at hreply <;> cases hreply
          exact id

theorem not_missesClient_call {τ : Type} {carrier : Carrier τ} {method : String} {params : List Json} {caller : Caller}
    {t : τ} {f : Fault} (h : (caller.call carrier method params t).1 = .error f) : ¬ MissesClient f := by
  have honce : ∀ (caller : Caller) (t : τ), (caller.callOnce carrier method params t).1 = .error f → ¬ MissesClient f :=
    fun _ _ h => not_missesClient_result h
  rw [Caller.call] at h
  split at h
  · exact honce _ _ h
  · exact honce _ _ h

section Connections

variable {σ : Type} (o : Outside σ)

/-- What scripts can rely on behind a setup: its clients are registered, and the bench has callers for them. -/
def rosterOf (s : Session (Bench σ)) : Roster (Bench σ) where
  names := s.clients.map (·.name)
  active := s.active
  connected b := ∀ name ∈ s.clients.map (·.name), (b.callers.lookup name).isSome

/-- A command to a client that has a caller reaches it, and does not take the callers of others away. -/
theorem sound_rosterOf {s : Session (Bench σ)} (hactive : ∀ name, s.active = some name → (s.client? name).isSome) :
    (rosterOf s).Sound (Bench.link o) := by
  refine ⟨fun name hname => ?_, fun name hname command b hb => ?_⟩
  · obtain ⟨c, hc, hfound⟩ := List.find?_isSome.1 (hactive name hname)
    exact List.mem_map.2 ⟨c, hc, of_decide_eq_true hfound⟩
  · obtain ⟨caller, hcaller⟩ := Option.isSome_iff_exists.1 (hb name hname)
    have hkeeps : ∀ endpoint request (b' : Bench σ), b'.callers = b.callers →
        ((Bench.carrier o).toCarrier.exchange endpoint request b').2.callers = b.callers :=
      fun endpoint request b' h => (Bench.callers_exchange o endpoint request b').trans h
    -- a call changes its own caller alone, which is then put back
    have hcallers : (caller.call (Bench.carrier o).toCarrier executeMethod [.str command] b).2.2.callers = b.callers :=
      Caller.call_keeps hkeeps executeMethod [.str command] caller rfl
    rw [Bench.link]
    dsimp only
    rw [hcaller]
    dsimp only [Caller.execute]
    refine ⟨fun other hother => ?_, fun f hf => ?_⟩
    · by_cases hsame : other = name
      · rw [hsame, lookup_put_self]
        rfl
      · rw [lookup_put_of_ne hsame, hcallers]
        exact hb other hother
    · cases hcall : (caller.call (Bench.carrier o).toCarrier executeMethod [.str command] b).1 with
      | ok v =>
        rw [hcall] at hf
        cases hf
      | error fault =>
        rw [hcall] at hf
        cases hf
        exact not_missesClient_call hcall

end Connections

/-! ## Setups -/

section Setups

variable {σ : Type} (o : Outside σ) (p : Plan)

/-- What is known of all clients of the environment is right, no others are registered, and the active one is the one that
the environment names, or else the first. -/
structure IsSetUp (e : Environment) (s : Session (Bench σ)) : Prop where
  resolves : ∀ c ∈ e.clients, Resolves s c
  only : ∀ name, (s.client? name).isSome → name ∈ e.clients.map (·.name)
  active_eq : s.active = e.active.or (e.clients.head?.map (·.name))

/-- A setup that passes leaves the clients of its environment. -/
theorem leads_setup_isSetUp (a : Ports.Allocator) (w : World σ) (hnames : (p.case.environment.clients.map (·.name)).Nodup) :
    Leads (p.setup o) { link := p.bench a w } (fun _ s => IsSetUp p.case.environment s) fun _ => True := by
  refine (idles_onWorld _).bind_leads fun _ s₁ hs₁ => ?_
  dsimp only
  split
  · rename_i vars _
    rw [pure_bind]
    have hvars : ∀ g : Unit → Action (Bench σ) Unit, Leads (g ()) { s₁ with vars }
        (fun _ s => IsSetUp p.case.environment s) (fun _ => True) →
        Leads (modify (fun s => { s with vars }) >>= g) s₁ (fun _ s => IsSetUp p.case.environment s) fun _ => True :=
      fun g h => ⟨h.of_ok, h.of_error⟩
    refine hvars _ (leads_setVariable_bind (leads_setVariable_bind ?_))
    refine (leads_bringUp_brought o p hnames _).bind fun _ s₂ hs₂ => ?_
    obtain ⟨world, ports, rfl⟩ := hs₁
    have honly : ∀ name, (s₂.client? name).isSome → name ∈ p.case.environment.clients.map (·.name) := by
      intro name hsome
      by_contra hnot
      rw [(hs₂.others name hnot).client] at hsome
      cases hsome
    have hactive : s₂.active = p.case.environment.clients.head?.map (·.name) := hs₂.active_eq
    split
    · rename_i name hname
      refine leads_of_ok rfl ⟨fun c hc => ?_, honly, ?_⟩
      · exact (hs₂.resolves c hc).of_same ⟨rfl, rfl, rfl, fun _ _ => rfl⟩
      · rw [hname]
        rfl
    · rename_i hnone
      refine leads_of_ok rfl ⟨hs₂.resolves, honly, ?_⟩
      rw [hactive, hnone]
      exact Option.none_or.symm
  · exact leads_of_error rfl trivial

/-- The active client of an accepted environment is registered, and there is one unless there are no clients. -/
theorem IsSetUp.active {e : Environment} {s : Session (Bench σ)} (h : IsSetUp e s) (he : e.validate = .ok e) :
    (∀ name, s.active = some name → (s.client? name).isSome) ∧ (s.active = none → e.clients = []) := by
  constructor
  · intro name hname
    have hmem : name ∈ e.clients.map (·.name) := by
      rw [h.active_eq, Option.or_eq_some_iff] at hname
      rcases hname with hname | ⟨-, hname⟩
      · exact active_of_validate he hname
      · obtain ⟨c, hc, rfl⟩ := Option.map_eq_some_iff.1 hname
        exact List.mem_map.2 ⟨c, List.mem_of_mem_head? hc, rfl⟩
    obtain ⟨c, hc, rfl⟩ := List.mem_map.1 hmem
    rw [(h.resolves c hc).registered]
    rfl
  · intro hnone
    rw [h.active_eq, Option.or_eq_none_iff, Option.map_eq_none_iff, List.head?_eq_none_iff] at hnone
    exact hnone.2

theorem IsSetUp.holds {e : Environment} {s : Session (Bench σ)} (h : IsSetUp e s) : (rosterOf s).Holds s := by
  refine ⟨rfl, rfl, fun name hname => ?_⟩
  obtain ⟨c, hc, rfl⟩ := List.mem_map.1 hname
  have hsome : (s.client? c.name).isSome := List.find?_isSome.2 ⟨c, hc, decide_eq_true rfl⟩
  obtain ⟨d, hd, hdname⟩ := List.mem_map.1 (h.only c.name hsome)
  rw [← hdname]
  cases hspawn : d.spawn with
  | true =>
    obtain ⟨_, caller, -, hcaller, -⟩ := (h.resolves d hd).launched hspawn
    rw [hcaller]
    rfl
  | false =>
    obtain ⟨_, caller, -, -, hcaller, -⟩ := (h.resolves d hd).connected hspawn
    rw [hcaller]
    rfl

end Setups

/-- In an environment that has been loaded, no setup fails of what the environment says: every client that is connected to
has a port, and none is missing. A setup that passes leaves exactly the clients of the environment, registered under their
names, and their variables hold the ports that their services were launched with or are reached at. As long as the
scripts behind it carry out no directive that chooses a client, none of them ends with the fault that a client is not
registered, nor with the one that no client is active unless the environment has no clients. -/
theorem setup_resolves {disk : Files.Disk} {dir : String} {e : Environment} (h : Environment.load disk dir = .ok e)
    {σ : Type} (o : Outside σ) {p : Plan} (hp : p.case.environment = e) (a : Ports.Allocator) (w : World σ) :
    (∀ f s, (p.setup o).run { link := p.bench a w } = .error f s →
      (∀ message, f ≠ .config message) ∧ ¬ MissesClient f) ∧
    ∀ s, (p.setup o).run { link := p.bench a w } = .ok () s →
      (∀ c ∈ e.clients, Resolves s c) ∧ (∀ name, (s.client? name).isSome ↔ name ∈ e.clients.map (·.name)) ∧
      ∀ extension f s', (runDir (Bench.link o) (·.world.disk) p.case.dir extension).run s = .error f s' →
        (∀ v ∈ dirVisits (Bench.link o) (·.world.disk) p.case.dir extension s, ¬ v.ChoosesClient) →
          ¬ MissesClient f ∧ (f = .noActiveClient → e.clients = []) := by
  have he := validate_of_load h
  have hports := ports_of_checkClients (validate_ok he).2
  refine ⟨fun f s hrun => ?_, fun s hrun => ?_⟩
  · have houtward := p.failsOutward_setup o (hp ▸ hports) _ f s hrun
    exact ⟨houtward.ne_config, houtward.not_missesClient⟩
  · have hset : IsSetUp e s := hp ▸ (leads_setup_isSetUp o p a w (hp ▸ nodup_names he)).of_ok () s hrun
    obtain ⟨hactive, hclients⟩ := hset.active he
    refine ⟨hset.resolves, fun name => ⟨hset.only name, fun hname => ?_⟩, fun extension f s' hscripts hno => ?_⟩
    · obtain ⟨c, hc, rfl⟩ := List.mem_map.1 hname
      rw [(hset.resolves c hc).registered]
      rfl
    · have hfinds := runDir_finds (sound_rosterOf o hactive) (·.world.disk) p.case.dir extension hset.holds hno
      obtain ⟨hmisses, hnone⟩ := hfinds.2 f s' hscripts
      exact ⟨hmisses, fun hf => hclients (hnone hf)⟩

/-- A disk with a test that launches one client and connects to another, and whose script reads a variable that nothing
sets. -/
def mixedClients : Files.Disk :=
  { root := .dir [("t", .dir [("a.cli", .file (.text "$nope") false), ("testenv.yaml", .file (.text
      "clients:\n- name: alice\n  executable: svc\n- name: bob\n  spawn: false\n  rpc_port: 7000\n") false)])]
    here := "/" }

/-- The environment of that test. -/
def mixedEnvironment : Environment :=
  { clients := [{ name := "alice", executable := some "svc" }, { name := "bob", spawn := false, rpcPort := some 7000 }] }

theorem load_mixedClients : Environment.load mixedClients "t" = .ok mixedEnvironment := by
  have hparts : (Environment.load mixedClients "t").toOption.map
      (fun e => (e.name, e.vars.map (·.1), e.clients, e.active)) =
      some (none, [], mixedEnvironment.clients, none) := by decide +kernel
  cases he : Environment.load mixedClients "t" with
  | error f =>
    rw [he] at hparts
    cases hparts
  | ok e =>
    rw [he] at hparts
    obtain ⟨name, vars, clients, active⟩ := e
    have hsame : (name, vars.map (·.1), clients, active) = (none, [], mixedEnvironment.clients, none) :=
      Option.some.inj hparts
    simp only [Prod.mk.injEq, List.map_eq_nil_iff] at hsame
    obtain ⟨rfl, rfl, rfl, rfl⟩ := hsame
    rfl

/-- The setup of that test. -/
def mixedSetup : Action (Bench Unit) Unit :=
  Plan.setup promptServices { settings := {}, case := { name := "t", dir := "t", environment := mixedEnvironment } }

/-- The session that it starts in. -/
def mixedStart : Session (Bench Unit) :=
  { link := Plan.bench { settings := {}, case := { name := "t", dir := "t", environment := mixedEnvironment } } secondHalf
      { disk := mixedClients, outside := () } }

theorem scriptFiles_mixedSetup :
    scriptFiles (endOf mixedSetup mixedStart).link.world.disk "t" "cli" = .ok ["t/a.cli"] := by
  have hlist : (endOf mixedSetup mixedStart).link.world.disk.list "t" = .ok ["a.cli", "testenv.yaml"] := by
    decide +kernel
  have hsorted : sortedNames ["a.cli", "testenv.yaml"] = ["a.cli", "testenv.yaml"] :=
    List.mergeSort_of_pairwise (by decide)
  have hfiles : ((["a.cli", "testenv.yaml"].map (Files.Path.join "t")).filter fun path =>
      (endOf mixedSetup mixedStart).link.world.disk.isFile path && Files.Path.extension? path = some "cli") =
      ["t/a.cli"] := by decide +kernel
  rw [scriptFiles, hlist]
  dsimp only
  rw [hsorted, hfiles]

/-- The setup passes and leaves the ports of both clients, and the script fails of its variable. -/
theorem setup_resolves_mixed_clients :
    Environment.load mixedClients "t" = .ok mixedEnvironment ∧
    ∃ s, mixedSetup.run mixedStart = .ok () s ∧ (∀ c ∈ mixedEnvironment.clients, Resolves s c) ∧
      ∃ f s', (runDir (Bench.link promptServices) (·.world.disk) "t" "cli").run s = .error f s' ∧
        f = .unknownVariable "t/a.cli" "nope" 1 1 ∧
        (∀ v ∈ dirVisits (Bench.link promptServices) (·.world.disk) "t" "cli" s, ¬ v.ChoosesClient) ∧
        ¬ MissesClient f := by
  obtain ⟨-, hset⟩ := setup_resolves load_mixedClients promptServices
    (p := { settings := {}, case := { name := "t", dir := "t", environment := mixedEnvironment } }) rfl secondHalf
    { disk := mixedClients, outside := () }
  have hpasses : resultOf mixedSetup mixedStart = .ok () := by decide +kernel
  have hfails : resultOf (runFiles (Bench.link promptServices) (·.world.disk) ["t/a.cli"])
      (endOf mixedSetup mixedStart) = .error (.unknownVariable "t/a.cli" "nope" 1 1) := by decide +kernel
  have hlines : (fileVisits (Bench.link promptServices) (·.world.disk) ["t/a.cli"]
      (endOf mixedSetup mixedStart)).all (·.line.isNone) = true := by decide +kernel
  have hfiles := scriptFiles_mixedSetup
  cases hrun : mixedSetup.run mixedStart with
  | error f s =>
    rw [resultOf, hrun] at hpasses
    cases hpasses
  | ok a s =>
    rw [endOf_of_ok hrun] at hfails hlines hfiles
    obtain ⟨hresolves, -, hscripts⟩ := hset s hrun
    have hno : ∀ v ∈ dirVisits (Bench.link promptServices) (·.world.disk) "t" "cli" s, ¬ v.ChoosesClient := by
      rw [dirVisits, hfiles]
      rintro v hv ⟨-, l, name, hline, -⟩
      have hnone := List.all_eq_true.1 hlines v hv
      rw [hline] at hnone
      cases hnone
    cases hend : (runFiles (Bench.link promptServices) (·.world.disk) ["t/a.cli"]).run s with
    | ok u s' =>
      rw [resultOf, hend] at hfails
      cases hfails
    | error f s' =>
      rw [resultOf, hend] at hfails
      have hdir : (runDir (Bench.link promptServices) (·.world.disk) "t" "cli").run s = .error f s' := by
        rw [runDir, EStateM.run_bind, EStateM.run_get]
        dsimp only
        rw [hfiles]
        dsimp only
        rw [EStateM.run_bind, hend]
      exact ⟨load_mixedClients, s, rfl, hresolves, f, s', hdir, Except.error.inj hfails, hno,
        (hscripts "cli" f s' hdir hno).1⟩

end Conformance.Runs
