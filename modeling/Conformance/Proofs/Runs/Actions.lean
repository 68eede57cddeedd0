import Conformance.Proofs.Script.Steps
import Conformance.Proofs.Service.ReadyWait
import Conformance.Runs.Setup

/-!
# How the actions of a run end

What a run does to get ready goes from session to session, or fails on the way: of each action it is said which
sessions it may end in, with a result or with a fault (`Leads`), and of what holds of a session whether it is upheld
(`Upholds`). Most actions, waiting above all, leave the services as they are (`Keeps`, `sameServices_awaitReady`).
-/
namespace Conformance.Runs

open Service

/-! ## What waiting leaves alone -/

namespace Bench

variable {σ : Type} (o : Outside σ) {b b' b'' : Bench σ}

/-- Nothing has become of the services on a bench, and no ports have been handed out. -/
structure SameServices (b b' : Bench σ) : Prop where
  handles_eq : b'.handles = b.handles
  ports_eq : b'.ports = b.ports

theorem SameServices.refl (b : Bench σ) : SameServices b b := ⟨rfl, rfl⟩

theorem SameServices.trans (h : SameServices b b') (h' : SameServices b' b'') : SameServices b b'' :=
  ⟨h'.handles_eq.trans h.handles_eq, h'.ports_eq.trans h.ports_eq⟩

theorem sameServices_look (b : Bench σ) : SameServices b (b.look o) := by
  rw [look]
  split
  · exact .refl b
  · split
    · exact .refl b
    · exact ⟨rfl, rfl⟩

theorem sameServices_passUntil (time : Nat) (b : Bench σ) : SameServices b (b.passUntil o time) := ⟨rfl, rfl⟩

theorem sameServices_waitUntil (time n : Nat) (b : Bench σ) : SameServices b (b.waitUntil o time n) := by
  induction n generalizing b with
  | zero => exact .refl b
  | succ n ih =>
    rw [waitUntil]
    split
    · exact .refl b
    · dsimp only
      split
      · exact ⟨rfl, rfl⟩
      · exact ((sameServices_passUntil o _ b).trans (sameServices_look o _)).trans (ih _)

theorem sameServices_exchange (endpoint : Endpoint) (request : Request) (b : Bench σ) :
    SameServices b (b.exchange o endpoint request).2 := by
  rw [exchange]
  split
  · exact .refl b
  · dsimp only
    have hwait := sameServices_waitUntil o
      ((b.world.now) + Nat.min (o.exchange endpoint request b.world.outside).2.1 b.patience)
      (Nat.min (o.exchange endpoint request b.world.outside).2.1 b.patience / pollInterval + 2)
      { b with world := { b.world with outside := (o.exchange endpoint request b.world.outside).2.2 } }
    split
    · exact ⟨hwait.handles_eq, hwait.ports_eq⟩
    · split
      · exact ⟨hwait.handles_eq, hwait.ports_eq⟩
      · exact ⟨hwait.handles_eq, hwait.ports_eq⟩

/-- Waiting for a service leaves the services as they are. -/
theorem sameServices_awaitReady (schedule : Backoff) (caller : Service.Caller) (b : Bench σ) :
    SameServices b (caller.awaitReady (carrier o) schedule b).2.2 :=
  Service.Caller.awaitReadyFrom_keeps (fun endpoint request b' h => h.trans (sameServices_exchange o endpoint request b'))
    (fun _ b' h => h.trans (sameServices_waitUntil o _ _ b')) _ _ _ _ (.refl b)

end Bench

/-! ## How actions end -/

section Leads

variable {σ α β : Type}

/-- The action goes from the session to one as `done` says, or fails in one as `failed` says. -/
structure Leads (x : Script.Action (Bench σ) α) (s : Script.Session (Bench σ))
    (done : α → Script.Session (Bench σ) → Prop) (failed : Script.Session (Bench σ) → Prop) : Prop where
  of_ok : ∀ a s', x s = .ok a s' → done a s'
  of_error : ∀ f s', x s = .error f s' → failed s'

variable {x : Script.Action (Bench σ) α} {f : α → Script.Action (Bench σ) β} {s : Script.Session (Bench σ)}
  {done : α → Script.Session (Bench σ) → Prop} {failed : Script.Session (Bench σ) → Prop}

theorem Leads.bind {done' : β → Script.Session (Bench σ) → Prop} (hx : Leads x s done failed)
    (hf : ∀ a s', done a s' → Leads (f a) s' done' failed) : Leads (x >>= f) s done' failed := by
  constructor
  · intro b s' h
    obtain ⟨a, s₁, ha, hb⟩ := Script.run_bind_eq_ok h
    exact (hf a s₁ (hx.of_ok a s₁ ha)).of_ok b s' hb
  · intro fault s' h
    have hbind : (x >>= f) s = EStateM.bind x f s := rfl
    rw [hbind, EStateM.bind] at h
    split at h
    · rename_i a s₁ ha
      exact (hf a s₁ (hx.of_ok a s₁ ha)).of_error fault s' h
    · rename_i fault' s₁ hfault
      cases h
      exact hx.of_error _ _ hfault

theorem Leads.mono {done' : α → Script.Session (Bench σ) → Prop} {failed' : Script.Session (Bench σ) → Prop}
    (h : Leads x s done failed) (hdone : ∀ a s', done a s' → done' a s') (hfailed : ∀ s', failed s' → failed' s') :
    Leads x s done' failed' :=
  ⟨fun a s' hx => hdone a s' (h.of_ok a s' hx), fun f s' hx => hfailed s' (h.of_error f s' hx)⟩

theorem leads_of_ok {a : α} {s' : Script.Session (Bench σ)} (h : x s = .ok a s') (hdone : done a s') :
    Leads x s done failed := by
  constructor
  · intro b u hx
    cases h.symm.trans hx
    exact hdone
  · intro fault u hx
    cases h.symm.trans hx

theorem leads_of_error {fault : Fault} {s' : Script.Session (Bench σ)} (h : x s = .error fault s')
    (hfailed : failed s') : Leads x s done failed := by
  constructor
  · intro b u hx
    cases h.symm.trans hx
  · intro fault u hx
    cases h.symm.trans hx
    exact hfailed

theorem leads_get_bind {f : Script.Session (Bench σ) → Script.Action (Bench σ) β} {done : β → Script.Session (Bench σ) → Prop}
    (h : Leads (f s) s done failed) : Leads (get >>= f) s done failed :=
  ⟨h.of_ok, h.of_error⟩

theorem leads_onWorld {e : Effect σ α}
    (hdone : ∀ a world, e s.link.world = .ok a world → done a { s with link := { s.link with world } })
    (hfailed : ∀ fault world, e s.link.world = .error fault world → failed { s with link := { s.link with world } }) :
    Leads (onWorld e) s done failed := by
  constructor
  · intro a s' h
    unfold onWorld at h
    split at h
    · rename_i he
      cases h
      exact hdone _ _ he
    · cases h
  · intro fault s' h
    unfold onWorld at h
    split at h
    · cases h
    · rename_i he
      cases h
      exact hfailed _ _ he

end Leads

/-! ## Actions that uphold what holds of a session -/

section Upholds

variable {σ α β : Type} {I J : Script.Session (Bench σ) → Prop}

/-- From a session as `I` says the action goes to another one, or it fails in one as `J` says. -/
def Upholds (I J : Script.Session (Bench σ) → Prop) (x : Script.Action (Bench σ) α) : Prop :=
  ∀ s, I s → Leads x s (fun _ s' => I s') J

theorem Upholds.bind {x : Script.Action (Bench σ) α} {f : α → Script.Action (Bench σ) β} (hx : Upholds I J x)
    (hf : ∀ a, Upholds I J (f a)) : Upholds I J (x >>= f) :=
  fun s hs => (hx s hs).bind fun a s' hs' => hf a s' hs'

/-- What holds of the session that an action leaves is upheld by it. -/
theorem upholds_of_endOf {x : Script.Action (Bench σ) α} (h : ∀ s, I s → I (Script.endOf x s)) : Upholds I I x := by
  intro s hs
  have hend := h s hs
  constructor
  · intro a s' hx
    rwa [Script.endOf_of_ok (x := x) hx] at hend
  · intro f s' hx
    rwa [Script.endOf_of_error (x := x) hx] at hend

theorem upholds_get_bind {f : Script.Session (Bench σ) → Script.Action (Bench σ) α} (hf : ∀ u, Upholds I J (f u)) :
    Upholds I J (get >>= f) := fun s hs => leads_get_bind (hf s s hs)

theorem upholds_pure (a : α) : Upholds I J (pure a : Script.Action (Bench σ) α) := fun _ hs => leads_of_ok rfl hs

theorem upholds_throw (fault : Fault) (h : ∀ s, I s → J s) :
    Upholds I J (throw fault : Script.Action (Bench σ) α) := fun s hs => leads_of_error rfl (h s hs)

theorem upholds_modify {change : Script.Session (Bench σ) → Script.Session (Bench σ)} (h : ∀ s, I s → I (change s)) :
    Upholds I J (modify change : Script.Action (Bench σ) Unit) := fun s hs => leads_of_ok rfl (h s hs)

theorem takePort_of_ok (o : Outside σ) {s : Script.Session (Bench σ)} {port : UInt16} {ports : Ports.Allocator}
    (h : s.link.ports.nextPort (o.listening s.link.world.outside) = (.ok port, ports)) :
    Plan.takePort o none s = .ok port { s with link := { s.link with ports } } := by
  rw [Plan.takePort, h]

theorem takePort_of_error (o : Outside σ) {s : Script.Session (Bench σ)} {fault : Fault} {ports : Ports.Allocator}
    (h : s.link.ports.nextPort (o.listening s.link.world.outside) = (.error fault, ports)) :
    Plan.takePort o none s = .error fault { s with link := { s.link with ports } } := by
  rw [Plan.takePort, h]

theorem upholds_takePort (o : Outside σ) (asked : Option UInt16)
    (h : ∀ (s : Script.Session (Bench σ)) ports, I s → I { s with link := { s.link with ports } })
    (hfailed : ∀ s, I s → J s) : Upholds I J (Plan.takePort o asked) := by
  intro s hs
  cases asked with
  | some port => exact leads_of_ok rfl hs
  | none =>
    cases hnext : s.link.ports.nextPort (o.listening s.link.world.outside) with
    | mk given ports =>
      cases given with
      | error fault => exact leads_of_error (takePort_of_error o hnext) (hfailed _ (h s ports hs))
      | ok port => exact leads_of_ok (takePort_of_ok o hnext) (h s ports hs)

end Upholds

/-! ## Waiting for a service -/

section Awaiting

variable {σ : Type} (o : Outside σ) (p : Plan) (caller : Service.Caller)

/-- What comes of waiting for a service whose process is looked at meanwhile. -/
def awaited (pid : Nat) (b : Bench σ) : Except Fault Unit × Service.Caller × Bench σ :=
  caller.awaitReady (Bench.carrier o) p.schedule
    (({ b with watch := some { pid, next := b.world.now } } : Bench σ).look o)

/-- The bench behind waiting for the service of a client: nobody looks at its process any more. -/
def waited (name : String) (done : Except Fault Unit × Service.Caller × Bench σ) : Bench σ :=
  { done.2.2 with watch := none, callers := put name done.2.1 done.2.2.callers }

theorem endWait_cases (handle : Handle) (done : Except Fault Unit × Service.Caller × Bench σ)
    (s : Script.Session (Bench σ)) :
    (Plan.endWait handle done s = .ok () { s with link := waited handle.spec.name done } ∧ done.1 = .ok ()) ∨
      ∃ fault, Plan.endWait handle done s = .error fault { s with link := waited handle.spec.name done } := by
  obtain ⟨result, caller, b⟩ := done
  unfold Plan.endWait
  dsimp only
  split
  · exact .inr ⟨_, rfl⟩
  · exact .inl ⟨rfl, rfl⟩
  · exact .inr ⟨_, rfl⟩

/-- Only a service that has answered is not waited for in vain. -/
theorem awaitService_cases (handle : Handle) (pid : Nat) (s : Script.Session (Bench σ)) :
    ∃ done, done = awaited o p caller pid s.link ∧
      ((p.awaitService o caller handle pid s = .ok () { s with link := waited handle.spec.name done } ∧
          done.1 = .ok ()) ∨
        ∃ fault, p.awaitService o caller handle pid s =
          .error fault { s with link := waited handle.spec.name done }) :=
  ⟨_, rfl, endWait_cases handle (awaited o p caller pid s.link) s⟩

end Awaiting

/-! ## Actions that leave the services as they are -/

section Keeps

open Bench

variable {σ α β : Type}

/-- However the action ends, nothing has become of the services. -/
def Keeps (x : Script.Action (Bench σ) α) : Prop :=
  ∀ b s, SameServices b s.link → Leads x s (fun _ s' => SameServices b s'.link) fun s' => SameServices b s'.link

variable {x : Script.Action (Bench σ) α} {f : α → Script.Action (Bench σ) β}

/-- An action that leaves the services as they are comes before another one. -/
theorem Keeps.bind_leads {b : Bench σ} {s : Script.Session (Bench σ)} {done : β → Script.Session (Bench σ) → Prop}
    {failed : Script.Session (Bench σ) → Prop} (hx : Keeps x) (hs : SameServices b s.link)
    (hfailed : ∀ s', SameServices b s'.link → failed s')
    (hf : ∀ a s', SameServices b s'.link → Leads (f a) s' done failed) : Leads (x >>= f) s done failed :=
  ((hx b s hs).mono (fun _ _ h => h) hfailed).bind hf

theorem keeps_modify {change : Script.Session (Bench σ) → Script.Session (Bench σ)}
    (h : ∀ s, (change s).link = s.link) : Keeps (modify change) :=
  fun _ s hs => leads_of_ok rfl ((h s).symm ▸ hs)

theorem keeps_setVariable (name : String) (value : Expr.Value) :
    Keeps (setVariable name value : Script.Action (Bench σ) Unit) := keeps_modify fun _ => rfl

theorem keeps_onWorld (e : Effect σ α) : Keeps (onWorld e) :=
  fun _ _ hs => leads_onWorld (fun _ _ _ => ⟨hs.handles_eq, hs.ports_eq⟩) fun _ _ _ => ⟨hs.handles_eq, hs.ports_eq⟩

theorem keeps_openCaller (o : Outside σ) (p : Plan) (c : Cases.ClientSpec) (host : String) (port : UInt16)
    (handle : Option Handle) : Keeps (p.openCaller o c host port handle) := by
  intro b s hs
  refine leads_get_bind ?_
  dsimp only
  split
  · exact leads_of_ok rfl hs
  · cases handle with
    | none => exact leads_of_error rfl hs
    | some handle => exact (keeps_onWorld _).bind_leads hs (fun _ h => h) fun _ s₁ hs₁ => leads_of_error rfl hs₁

theorem keeps_awaitService (o : Outside σ) (p : Plan) (caller : Service.Caller) (handle : Handle) (pid : Nat) :
    Keeps (p.awaitService o caller handle pid) := by
  intro b s hs
  have hwatch : SameServices s.link { s.link with watch := some { pid, next := s.link.world.now } } := ⟨rfl, rfl⟩
  obtain ⟨done, hdone, hcases⟩ := awaitService_cases o p caller handle pid s
  have hall : SameServices s.link done.2.2 := by
    rw [hdone]
    exact (hwatch.trans (sameServices_look o _)).trans (sameServices_awaitReady o p.schedule caller _)
  have hwaited : SameServices b (waited handle.spec.name done) := hs.trans ⟨hall.handles_eq, hall.ports_eq⟩
  rcases hcases with ⟨hok, -⟩ | ⟨fault, herror⟩
  · exact leads_of_ok hok hwaited
  · exact leads_of_error herror hwaited

end Keeps

/-! ## Clients that are made known -/

section Enlisting

variable {σ : Type} (o : Outside σ)

/-- A client that has just been registered is found. -/
theorem enlist_eq (name : String) (caller : Service.Caller) (handle : Option Handle) :
    Plan.enlist o name caller handle = (do
      match (← get).link.handles.lookup name with
      | some earlier => onWorld (earlier.release o)
      | none => pure ()
      onBench fun b => { b with
        callers := put name caller b.callers
        handles := match handle with
          | some h => put name h b.handles
          | none => b.handles.filter (·.1 ≠ name) }
      modify (·.register { name })) := by
  have hfound : (do
      modify (·.register { name })
      let _ ← Plan.registeredClient name : Script.Action (Bench σ) Unit) = modify (·.register { name }) := by
    funext s
    show (Plan.registeredClient name >>= fun _ => pure ()).run (s.register { name }) = _
    rw [Plan.registeredClient, bind_assoc, EStateM.run_bind, EStateM.run_get]
    simp only [Script.Session.client?_register_self]
    rfl
  rw [← hfound]
  rfl

end Enlisting

end Conformance.Runs
