import Conformance.Script.Session

/-!
# The clients of a session

A client is looked up by its name. What is found under a name is the client as it was registered last, with the changes
that have been made to it since.
-/
namespace Conformance.Script

variable {σ : Type} {s : Session σ} {name other : String} {c : Client} {f : Client → Client}

theorem Session.client?_name (h : s.client? name = some c) : c.name = name := by
  simpa using List.find?_some h

theorem Session.client?_isSome_iff : (s.client? name).isSome ↔ ∃ c ∈ s.clients, c.name = name := by
  simp only [Session.client?, List.find?_isSome, decide_eq_true_eq]

/-! ## Changes -/

/-- A change that keeps the name of the client is made to the client that is looked up, if it has that name. -/
theorem Session.client?_updateClient_eq_map (hf : ∀ c, c.name = name → (f c).name = name) (s : Session σ)
    (other : String) :
    (s.updateClient name f).client? other = (s.client? other).map fun c => if c.name = name then f c else c := by
  have hname : ∀ c : Client, (if c.name = name then f c else c).name = c.name := by
    intro c
    split
    next h => exact (hf c h).trans h.symm
    next => rfl
  rw [Session.client?, Session.client?, Session.updateClient, List.find?_map]
  refine congrArg (Option.map _) (congrArg (fun p => s.clients.find? p) (funext fun c => ?_))
  rw [Function.comp, hname c]

/-- A client that keeps its name when it is changed is found under this name. -/
theorem Session.client?_updateClient (h : s.client? name = some c) (hf : ∀ c, c.name = name → (f c).name = name) :
    (s.updateClient name f).client? name = some (f c) := by
  rw [Session.client?_updateClient_eq_map hf, h, Option.map_some, if_pos (Session.client?_name h)]

theorem Session.client?_updateClient_of_ne (h : other ≠ name) (hf : ∀ c, c.name = name → (f c).name = name)
    (s : Session σ) : (s.updateClient name f).client? other = s.client? other := by
  rw [Session.client?_updateClient_eq_map hf]
  cases hother : s.client? other with
  | none => rfl
  | some d => rw [Option.map_some, if_neg (Session.client?_name hother ▸ h)]

theorem Session.names_updateClient (hf : ∀ c, c.name = name → (f c).name = name) (s : Session σ) :
    (s.updateClient name f).clients.map (·.name) = s.clients.map (·.name) := by
  rw [Session.updateClient, List.map_map]
  refine List.map_congr_left fun c _ => ?_
  show (if c.name = name then f c else c).name = c.name
  split
  next h => exact (hf c h).trans h.symm
  next => rfl

/-! ## Registrations -/

theorem Session.register_of_known (h : (s.client? name).isSome) :
    (s.register { name }).clients = (s.updateClient name fun _ => { name }).clients := by
  obtain ⟨c, hc, hname⟩ := Session.client?_isSome_iff.1 h
  have hany : s.clients.any (·.name = name) = true := List.any_eq_true.2 ⟨c, hc, decide_eq_true hname⟩
  simp only [Session.register, hany, if_true, Session.updateClient]

theorem Session.register_of_new (h : s.client? name = none) :
    (s.register { name }).clients = s.clients ++ [({ name } : Client)] := by
  have hany : s.clients.any (·.name = name) = false := by
    simpa [Session.client?] using h
  simp only [Session.register, hany, Bool.false_eq_true, if_false]

theorem Session.client?_congr {s' : Session σ} (h : s.clients = s'.clients) (name : String) :
    s.client? name = s'.client? name := by
  rw [Session.client?, h, Session.client?]

theorem Session.client?_register_self (s : Session σ) (name : String) :
    (s.register { name }).client? name = some { name } := by
  cases h : s.client? name with
  | none =>
    rw [Session.client?] at h
    rw [Session.client?, Session.register_of_new h, List.find?_append, h]
    simp
  | some c =>
    rw [Session.client?_congr (Session.register_of_known (Option.isSome_of_eq_some h)),
      Session.client?_updateClient h fun _ _ => rfl]

theorem Session.client?_register_of_ne (s : Session σ) (h : other ≠ name) :
    (s.register { name }).client? other = s.client? other := by
  cases hname : s.client? name with
  | none =>
    rw [Session.client?, Session.register_of_new hname, List.find?_append, Session.client?]
    simp [h.symm]
  | some c =>
    rw [Session.client?_congr (Session.register_of_known (Option.isSome_of_eq_some hname)),
      Session.client?_updateClient_of_ne h fun _ _ => rfl]

end Conformance.Script
