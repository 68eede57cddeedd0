import Conformance.Proofs.Script.Steps

/-!
# The course of a script

A run of a script comes from token to token until a fault ends it, or until the script has come to its end. Here are
the places that it comes to, with the session in which it finds itself there. What is done from one place to the
next is one step of the run, so what holds of every step holds of the whole run (`run_of_steps`).
-/
namespace Conformance.Script

variable {σ : Type}

/-! ## The places of a run -/

/-- A place that a run comes to: the session there, the command line that is open, and the token that is next, or none
at the end of the script. -/
structure Visit (σ : Type) where
  session : Session σ
  line : Option CommandLine
  next : Option Token

/-- The places that a run comes to, up to the first fault. -/
def visits (link : Link σ) (file : String) (line : Option CommandLine) (s : Session σ) :
    List Token → List (Visit σ)
  | [] => [⟨s, line, none⟩]
  | t :: ts =>
    ⟨s, line, some t⟩ ::
      match (step link file line t).run s with
      | .ok line s => visits link file line s ts
      | .error _ _ => []

/-- The session behind the step that is made at a place. -/
def Visit.after (link : Link σ) (file : String) (v : Visit σ) : Session σ :=
  match v.next with
  | some t => endOf (step link file v.line t) v.session
  | none => endOf (conclude link file v.line) v.session

/-- The step that is made at a place ends the run with a fault. -/
def Visit.Faults (link : Link σ) (file : String) (v : Visit σ) (f : Fault) (s' : Session σ) : Prop :=
  match v.next with
  | some t => (step link file v.line t).run v.session = .error f s'
  | none => (conclude link file v.line).run v.session = .error f s'

variable (link : Link σ) (file : String)

/-- The places of a whole script. -/
def scriptVisits (src : String) (s : Session σ) : List (Visit σ) := visits link file none s (tokens src)

theorem visits_cons_ok {line line' : Option CommandLine} {t : Token} {s s' : Session σ}
    (h : (step link file line t).run s = .ok line' s') (ts : List Token) :
    visits link file line s (t :: ts) = ⟨s, line, some t⟩ :: visits link file line' s' ts := by
  rw [visits, h]

theorem visits_cons_error {line : Option CommandLine} {t : Token} {f : Fault} {s s' : Session σ}
    (h : (step link file line t).run s = .error f s') (ts : List Token) :
    visits link file line s (t :: ts) = [⟨s, line, some t⟩] := by
  rw [visits, h]

/-- The first place is the one that the run starts from. -/
theorem visits_getElem?_zero (line : Option CommandLine) (s : Session σ) (ts : List Token) :
    (visits link file line s ts)[0]? = some ⟨s, line, ts[0]?⟩ := by
  cases ts <;> rfl

/-- A run comes to the place behind some of the tokens exactly if these are carried out without a fault, and it is
then in the session that they leave. -/
theorem visits_getElem?_eq_some_iff {line : Option CommandLine} {s : Session σ} {ts : List Token} {n : Nat}
    {v : Visit σ} :
    (visits link file line s ts)[n]? = some v ↔
      n ≤ ts.length ∧ (runTokens link file line (ts.take n)).run s = .ok v.line v.session ∧ v.next = ts[n]? := by
  induction n generalizing line s ts with
  | zero =>
    obtain ⟨session, line', next⟩ := v
    have hrun : (runTokens link file line (ts.take 0)).run s = .ok line s := by
      rw [List.take_zero]
      rfl
    rw [visits_getElem?_zero, hrun]
    simp only [Option.some.injEq, Visit.mk.injEq, Nat.zero_le, EStateM.Result.ok.injEq, true_and]
    constructor
    · rintro ⟨hs, hl, hn⟩
      exact ⟨⟨hl, hs⟩, hn.symm⟩
    · rintro ⟨⟨hl, hs⟩, hn⟩
      exact ⟨hs, hl, hn.symm⟩
  | succ n ih =>
    cases ts with
    | nil => simp [visits]
    | cons t ts =>
      rw [List.take_succ_cons, List.getElem?_cons_succ, List.length_cons, Nat.add_le_add_iff_right]
      cases hstep : (step link file line t).run s with
      | ok line' s' =>
        rw [visits_cons_ok link file hstep, List.getElem?_cons_succ, run_runTokens_cons link file hstep]
        exact ih
      | error f s' =>
        have hrun : (runTokens link file line (t :: ts.take n)).run s = .error f s' := by
          rw [runTokens, EStateM.run_bind, hstep]
        rw [visits_cons_error link file hstep, hrun]
        simp

/-- Tokens are carried out by carrying out those in front and then the others. -/
theorem runTokens_append (line : Option CommandLine) (front back : List Token) :
    runTokens link file line (front ++ back) =
      runTokens link file line front >>= fun line => runTokens link file line back := by
  induction front generalizing line with
  | nil => rfl
  | cons t front ih =>
    rw [List.cons_append, runTokens, runTokens, bind_assoc]
    exact congrArg _ (funext ih)

/-- The places behind some of the tokens are places of the run. -/
theorem mem_visits_append {line line' : Option CommandLine} {s s' : Session σ} {front : List Token}
    (h : (runTokens link file line front).run s = .ok line' s') {back : List Token} {v : Visit σ}
    (hv : v ∈ visits link file line' s' back) : v ∈ visits link file line s (front ++ back) := by
  induction front generalizing line s with
  | nil =>
    obtain ⟨rfl, rfl⟩ : line = line' ∧ s = s' := by
      injection h with hline hs
      exact ⟨hline, hs⟩
    exact hv
  | cons t front ih =>
    cases hstep : (step link file line t).run s with
    | ok line₁ s₁ =>
      rw [run_runTokens_cons link file hstep] at h
      rw [List.cons_append, visits_cons_ok link file hstep]
      exact List.mem_cons_of_mem _ (ih h)
    | error f s₁ =>
      rw [runTokens, EStateM.run_bind, hstep] at h
      contradiction

/-- A step that ends with a fault is the last one, and its fault is that of the run. -/
theorem visits_faults {line : Option CommandLine} {s s' : Session σ} {ts : List Token} {v : Visit σ} {f : Fault}
    (hv : v ∈ visits link file line s ts) (h : v.Faults link file f s') :
    (visits link file line s ts).getLast? = some v ∧
      (runTokens link file line ts >>= conclude link file).run s = .error f s' := by
  induction ts generalizing line s with
  | nil =>
    obtain rfl : v = ⟨s, line, none⟩ := List.mem_singleton.1 hv
    exact ⟨rfl, h⟩
  | cons t ts ih =>
    cases hstep : (step link file line t).run s with
    | ok line' u =>
      rw [visits_cons_ok link file hstep] at hv ⊢
      rw [EStateM.run_bind, run_runTokens_cons link file hstep]
      rcases List.mem_cons.1 hv with rfl | hv
      · have hfault : (step link file line t).run s = .error f s' := h
        rw [hstep] at hfault
        contradiction
      · obtain ⟨hlast, hrun⟩ := ih hv
        rw [EStateM.run_bind] at hrun
        exact ⟨by rw [List.getLast?_cons, hlast]; rfl, hrun⟩
    | error f' u =>
      rw [visits_cons_error link file hstep] at hv ⊢
      obtain rfl : v = ⟨s, line, some t⟩ := List.mem_singleton.1 hv
      have hfault : (step link file line t).run s = .error f s' := h
      refine ⟨rfl, ?_⟩
      rw [EStateM.run_bind, runTokens, EStateM.run_bind, hfault]

/-- A run that ends with a fault ends so at the last of its places. -/
theorem visits_of_error {line : Option CommandLine} {s s' : Session σ} {ts : List Token} {f : Fault}
    (h : (runTokens link file line ts >>= conclude link file).run s = .error f s') :
    ∃ front v, visits link file line s ts = front ++ [v] ∧ v.Faults link file f s' := by
  induction ts generalizing line s with
  | nil => exact ⟨[], ⟨s, line, none⟩, rfl, h⟩
  | cons t ts ih =>
    cases hstep : (step link file line t).run s with
    | ok line' u =>
      rw [EStateM.run_bind, run_runTokens_cons link file hstep, ← EStateM.run_bind] at h
      obtain ⟨front, v, hvisits, hfaults⟩ := ih h
      exact ⟨⟨s, line, some t⟩ :: front, v, by rw [visits_cons_ok link file hstep, hvisits, List.cons_append], hfaults⟩
    | error f' u =>
      rw [EStateM.run_bind, runTokens, EStateM.run_bind, hstep] at h
      obtain ⟨rfl, rfl⟩ := EStateM.Result.error.inj h
      exact ⟨[], ⟨s, line, some t⟩, visits_cons_error link file hstep ts, hstep⟩

/-- A script that ends with a fault has carried out the tokens in front of the last of its places, and ends there. -/
theorem scriptVisits_of_error {src : String} {s s' : Session σ} {f : Fault}
    (h : (runScript link file src).run s = .error f s') :
    ∃ front v, scriptVisits link file src s = front ++ [v] ∧
      (runTokens link file none ((tokens src).take front.length)).run s = .ok v.line v.session ∧
      v.next = (tokens src)[front.length]? ∧ v.Faults link file f s' := by
  rw [runScript_eq] at h
  obtain ⟨front, v, hvisits, hfaults⟩ := visits_of_error link file h
  have hplace : (visits link file none s (tokens src))[front.length]? = some v := by
    rw [hvisits, List.getElem?_concat_length]
  obtain ⟨-, hrun, hnext⟩ := (visits_getElem?_eq_some_iff link file).1 hplace
  exact ⟨front, v, hvisits, hrun, hnext, hfaults⟩

/-- What the steps of a run do, one after the other, is what the run does. -/
theorem run_of_steps {γ : Type} {T : Session σ → List γ → Session σ → Prop} {log : Visit σ → List γ}
    (htrans : ∀ {s u v a b}, T s a u → T u b v → T s (a ++ b) v)
    (hstep : ∀ v : Visit σ, T v.session (log v) (v.after link file)) (line : Option CommandLine) (s : Session σ)
    (ts : List Token) :
    T s ((visits link file line s ts).flatMap log) (endOf (runTokens link file line ts >>= conclude link file) s) := by
  induction ts generalizing line s with
  | nil =>
    have hend : endOf (runTokens link file line [] >>= conclude link file) s = endOf (conclude link file line) s := rfl
    rw [hend, visits, List.flatMap_cons, List.flatMap_nil, List.append_nil]
    exact hstep ⟨s, line, none⟩
  | cons t ts ih =>
    have hfirst := hstep ⟨s, line, some t⟩
    cases h : (step link file line t).run s with
    | ok line' s' =>
      have hafter : Visit.after link file ⟨s, line, some t⟩ = s' := endOf_of_ok h
      have hend : endOf (runTokens link file line (t :: ts) >>= conclude link file) s =
          endOf (runTokens link file line' ts >>= conclude link file) s' := by
        rw [endOf_bind, endOf_bind, run_runTokens_cons link file h]
      rw [hafter] at hfirst
      rw [visits_cons_ok link file h, List.flatMap_cons, hend]
      exact htrans hfirst (ih line' s')
    | error f s' =>
      have hafter : Visit.after link file ⟨s, line, some t⟩ = s' := endOf_of_error h
      have hend : endOf (runTokens link file line (t :: ts) >>= conclude link file) s = s' := by
        rw [endOf_bind, runTokens, EStateM.run_bind, h]
      rw [hafter] at hfirst
      rw [visits_cons_error link file h, List.flatMap_cons, List.flatMap_nil, List.append_nil, hend]
      exact hfirst

end Conformance.Script
