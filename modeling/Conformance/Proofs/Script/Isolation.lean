import Conformance.Proofs.Script.Dispatch

/-!
# Clients are isolated

What a step does, it does with the client that is active where the step begins; to every other client it does nothing.
So the output of each client is that of its own commands and expectations, however those of the clients are mixed.
-/
namespace Conformance.Script

open Text Expr Output

variable {σ : Type} {link : Link σ} {s u : Session σ} {log : Log} {name : String}

/-- A client that is not active stays as it is. -/
theorem Does.client?_of_not_active (h : Does link s log u) (hactive : s.active ≠ some name) :
    u.client? name = s.client? name := by
  have hacts : actsOf name log = [] := by
    refine actsOf_eq_nil fun entry hentry heq => hactive ?_
    rw [h.own entry hentry, heq]
  rw [h.client, hacts]
  exact congrFun Option.map_id (s.client? name)

/-- What is sent goes to the client that is active. -/
theorem Does.active_of_mem_callsOf (h : Does link s log u) {call : String × String} (hcall : call ∈ callsOf log) :
    s.active = some call.1 := by
  obtain ⟨entry, hentry, hcommand⟩ := List.mem_filterMap.1 hcall
  obtain ⟨command, -, rfl⟩ := Option.map_eq_some_iff.1 hcommand
  exact h.own entry hentry

/-- The output behind a log is that of the client's own operations in it. -/
theorem Moves.output (h : Moves link s log u) {c : Client} (hc : s.client? name = some c) :
    ∃ c', u.client? name = some c' ∧ c'.output = (opsOf name log).foldl State.apply c.output := by
  refine ⟨(actsOf name log).foldl Client.act c, ?_, output_foldl_act c _⟩
  rw [h.client, hc]
  rfl

/-- A reply in the log of a line is the one that the connections give there. -/
theorem reply_of_mem_lineLog {line : Option CommandLine} {text reply : String}
    (h : (name, .command text (some reply)) ∈ lineLog link s line) : (link.send name text s.link).1 = .ok reply := by
  cases line with
  | none => exact absurd h List.not_mem_nil
  | some l =>
    rw [lineLog] at h
    split at h
    · exact absurd h List.not_mem_nil
    · obtain ⟨c, -, hentry⟩ := List.mem_map.1 h
      obtain ⟨rfl, hact⟩ := Prod.mk.inj hentry
      obtain ⟨rfl, hreply⟩ := Act.command.inj hact
      generalize (link.send c.name l.text.trimWhite s.link).1 = answer at hreply ⊢
      cases answer with
      | error f => cases hreply
      | ok text => exact congrArg Except.ok (Option.some.inj hreply)

/-- A reply in the log of a place is the one that the connections give there. -/
theorem reply_of_mem_log {file : String} {v : Visit σ} {text reply : String}
    (h : (name, .command text (some reply)) ∈ v.log link file) : (link.send name text v.session.link).1 = .ok reply := by
  cases hends : v.endsCommand with
  | false =>
    have hcall : (name, text) ∈ callsOf (v.log link file) := List.mem_filterMap.2 ⟨_, h, rfl⟩
    rw [callsOf_log_of_not_endsCommand link file hends] at hcall
    exact absurd hcall List.not_mem_nil
  | true =>
    rw [log_of_endsCommand link file hends] at h
    exact reply_of_mem_lineLog h

/-- At every step of a script, and at its end, every client but the active one stays as it is, and nothing is sent to
it. So behind a whole script, the output of each client is what its own operations make of it, one after the other: the
replies to its commands, and the expectations that were checked while it was active and expectations were enabled. What
is left of an output is shown without a change to any client. -/
theorem clients_isolated (link : Link σ) (file : String) :
    (∀ (v : Visit σ) (name : String), v.session.active ≠ some name →
      (v.after link file).client? name = v.session.client? name) ∧
    (∀ v : Visit σ, ∃ calls, (v.after link file).sent = v.session.sent ++ calls ∧
      (v.after link file).link = link.sendAll v.session.link calls ∧ ∀ call ∈ calls, v.session.active = some call.1) ∧
    (∀ (src : String) (s : Session σ) (name : String) (c : Client), s.client? name = some c →
      ∃ c', (endOf (runScript link file src) s).client? name = some c' ∧
        c'.output = (opsOf name (scriptLog link file src s)).foldl State.apply c.output) ∧
    (∀ v : Visit σ, ∀ entry ∈ v.log link file, v.session.active = some entry.1 ∧
      (∀ e, entry.2 = .expectation e → v.session.expectEnabled = true) ∧
      ∀ text reply, entry.2 = .command text (some reply) → (link.send entry.1 text v.session.link).1 = .ok reply) ∧
    ∀ s : Session σ, (endOf flushResidual s).clients = s.clients := by
  refine ⟨fun v name hactive => (after_does link file v).client?_of_not_active hactive, fun v => ?_,
    fun src s name c hc => (runScript_moves link file src s).output hc, fun v entry hentry => ?_,
    fun s => (isQuiet_flushResidual s).clients⟩
  · have hdoes := after_does link file v
    exact ⟨callsOf (v.log link file), hdoes.sent, hdoes.link, fun call => hdoes.active_of_mem_callsOf⟩
  · have hdoes := after_does link file v
    refine ⟨hdoes.own entry hentry, hdoes.enabled entry hentry, fun text reply hact => ?_⟩
    have hmem : (entry.1, .command text (some reply)) ∈ v.log link file := hact ▸ hentry
    exact reply_of_mem_log hmem

end Conformance.Script
