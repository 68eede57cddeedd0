import Conformance.Proofs.Expr.Hosts
import Conformance.Proofs.Output.Mismatches
import Conformance.Proofs.Script.Course

/-!
# What is done with the clients

A script does two things with a client: it sends a command to it, and it checks an expectation against the output
that the client has captured. The log of a place in a script says which of these are done there, in order, and with
which client (`Visit.log`). It is read off the session at that place, the token that is next and, for an expression
block, the expectations that the program hands to its host.

* `Moves link s log s'` says that `s'` is what the log makes of `s`: of the clients, of the failures, of the commands
  sent and of the connections;
* `after_does` is this for every step of a script, and `runScript_moves` for every script (both in the next module).
-/
namespace Conformance.Script

open Text Expr Output

variable {σ α β : Type}

/-! ## Acts and logs -/

/-- Something that is done with a client. -/
inductive Act where
  /-- A command is sent to it; `reply` is what it answers, unless the command is refused. -/
  | command (text : String) (reply : Option String)
  /-- An expectation is checked against its output. -/
  | expectation (e : Expectation)
  deriving DecidableEq, Repr

/-- What is done with clients, in order, each time with the name of the client. -/
abbrev Log := List (String × Act)

/-- The command that is sent, if one is. -/
def Act.command? : Act → Option String
  | command text _ => some text
  | expectation _ => none

/-- What is done with the output of the client, if anything. -/
def Act.op? : Act → Option Output.Op
  | command _ reply => reply.map .reset
  | expectation e => some (.expect e)

/-- The client behind an act. -/
def Client.act (c : Client) : Act → Client
  | .command text (some reply) => { c with output := c.output.reset reply, lastCommand := some text }
  | .command _ none => c
  | .expectation e => { c with output := (c.output.check e).2 }

/-- What is done with one client. -/
def actsOf (name : String) (log : Log) : List Act := (log.filter (·.1 = name)).map (·.2)

/-- What is done with the output of one client: the replies to its commands are captured, and expectations are
checked. -/
def opsOf (name : String) (log : Log) : List Output.Op := (actsOf name log).filterMap (·.op?)

/-- The commands that are sent, each with its client. -/
def callsOf (log : Log) : List (String × String) := log.filterMap fun entry => entry.2.command?.map (entry.1, ·)

/-- What the connections remember of commands sent one after the other. -/
def Link.sendAll (link : Link σ) (state : σ) (calls : List (String × String)) : σ :=
  calls.foldl (fun state call => (link.send call.1 call.2 state).2) state

theorem actsOf_append (name : String) (log log' : Log) :
    actsOf name (log ++ log') = actsOf name log ++ actsOf name log' := by
  rw [actsOf, List.filter_append, List.map_append]
  rfl

theorem opsOf_append (name : String) (log log' : Log) : opsOf name (log ++ log') = opsOf name log ++ opsOf name log' := by
  rw [opsOf, actsOf_append, List.filterMap_append]
  rfl

theorem callsOf_append (log log' : Log) : callsOf (log ++ log') = callsOf log ++ callsOf log' :=
  List.filterMap_append

theorem actsOf_singleton_self (name : String) (act : Act) : actsOf name [(name, act)] = [act] := by
  simp [actsOf]

theorem actsOf_singleton_of_ne {name other : String} (h : name ≠ other) (act : Act) :
    actsOf other [(name, act)] = [] := by
  simp [actsOf, h]

/-- Nothing is done with a client that is not named. -/
theorem actsOf_eq_nil {name : String} {log : Log} (h : ∀ entry ∈ log, entry.1 ≠ name) : actsOf name log = [] := by
  rw [actsOf, List.filter_eq_nil_iff.2 fun entry hentry => by simpa using h entry hentry]
  rfl

/-- The output behind the acts is the output behind the operations on it. -/
theorem output_foldl_act (c : Client) (acts : List Act) :
    (acts.foldl Client.act c).output = (acts.filterMap (·.op?)).foldl State.apply c.output := by
  induction acts generalizing c with
  | nil => rfl
  | cons a acts ih =>
    rw [List.foldl_cons, ih]
    cases a with
    | command text reply => cases reply <;> rfl
    | expectation e => rfl

/-! ## The log of a place -/

/-- The client that is active, if it is registered. -/
def Session.activeClient? (s : Session σ) : Option Client := s.active.bind s.client?

/-- The client against whose output an expectation is checked. None is if expectations are disabled, or if the text
that is expected is empty; the unread output has to be defined. -/
def Session.checkedClient? (s : Session σ) (e : Expectation) : Option Client :=
  if s.expectEnabled = true ∧ e ≠ .literal "" then
    s.activeClient?.filter (·.output.residual?.isSome)
  else none

/-- What is done where something is expected. -/
def expectationLog (s : Session σ) (e : Expectation) : Log :=
  (s.checkedClient? e).toList.map fun c => (c.name, .expectation e)

/-- What is done where a command line ends. Directives are no commands. -/
def lineLog (link : Link σ) (s : Session σ) (line : Option CommandLine) : Log :=
  match line with
  | none => []
  | some line =>
    let command := line.text.trimWhite
    if command.toList.head? = some '!' then []
    else
      s.activeClient?.toList.map fun c => (c.name, .command command (link.send c.name command s.link).1.toOption)

/-- The host of an expression block, which takes down what is done when it is asked. -/
def logged (site : Site) : Host (Session σ × Log) := fun e (s, log) =>
  match check site .capture e s with
  | .ok captures s' => .ok captures (s', log ++ expectationLog s e)
  | .error f s' => .error f (s', log ++ expectationLog s e)

/-- What is done in an expression block: what its program asks its host, and then the check of a string result. -/
def blockLog (site : Site) (source : String) (s : Session σ) : Log :=
  match Expr.eval (logged site) source (s.vars, (s, [])) with
  | .ok (.str text) (_, (s', log)) => log ++ expectationLog s' (.literal text)
  | .ok _ (_, (_, log)) => log
  | .error _ (_, (_, log)) => log

/-- What is done behind the program of a block: its result is expected, if it is a string. -/
def resultLog (s : Session σ) (v : Value) : Log :=
  match stringResult? v with
  | some text => expectationLog s (.literal text)
  | none => []

/-- What is done at a token. Outside a command line, text and references are expected. -/
def tokenLog (link : Link σ) (file : String) (s : Session σ) (line : Option CommandLine) (t : Token) : Log :=
  match t.kind, line with
  | .newline, line => if t.endsLine then lineLog link s line else []
  | .whitespace, line => if t.endsLine then lineLog link s line else []
  | .expression, _ =>
    match t.expressionParts? with
    | some (source, _) => blockLog ⟨file, t.place⟩ source s
    | none => []
  | .reference, none =>
    match s.vars.get? (String.ofList (t.text.toList.drop 1)) with
    | some v => expectationLog s (.literal v.text)
    | none => []
  | .literal, none => if occurs ['$', '\x7b'] t.text.toList then [] else expectationLog s (.literal t.text)
  | _, _ => []

/-- What is done at a place. A command line is also ended by the end of the script. -/
def Visit.log (link : Link σ) (file : String) (v : Visit σ) : Log :=
  match v.next with
  | some t => tokenLog link file v.session v.line t
  | none => lineLog link v.session v.line

/-- What a whole script does with the clients. -/
def scriptLog (link : Link σ) (file src : String) (s : Session σ) : Log :=
  (scriptVisits link file src s).flatMap (Visit.log link file)

/-! ## What a log makes of a session -/

/-- The second session is what the log makes of the first. Each client is the one behind its own acts, and its
failures are the mismatches of its own output. -/
structure Moves (link : Link σ) (s : Session σ) (log : Log) (s' : Session σ) : Prop where
  client : ∀ name, s'.client? name = (s.client? name).map ((actsOf name log).foldl Client.act)
  names : s'.clients.map (·.name) = s.clients.map (·.name)
  known : ∀ entry ∈ log, (s.client? entry.1).isSome
  failures : ∃ added, s'.failures = s.failures ++ added ∧ (∀ f ∈ added, (s.client? f.client).isSome) ∧
    ∀ name c, s.client? name = some c →
      (added.filter (·.client = name)).map (fun f => (f.expected, f.actual)) =
        c.output.mismatches (opsOf name log)
  sent : s'.sent = s.sent ++ callsOf log
  link : s'.link = link.sendAll s.link (callsOf log)

/-- The sessions have the same clients, connections and records, and the same expectations are checked in them. -/
structure Session.Quiet (s s' : Session σ) : Prop where
  active : s'.active = s.active
  enabled : s'.expectEnabled = s.expectEnabled
  failures : s'.failures = s.failures
  clients : s'.clients = s.clients
  sent : s'.sent = s.sent
  link : s'.link = s.link

variable {link : Link σ} {s u v : Session σ} {log log' : Log}

theorem Session.Quiet.refl (s : Session σ) : s.Quiet s := ⟨rfl, rfl, rfl, rfl, rfl, rfl⟩

theorem Session.Quiet.trans (h : s.Quiet u) (h' : u.Quiet v) : s.Quiet v :=
  ⟨h'.active.trans h.active, h'.enabled.trans h.enabled, h'.failures.trans h.failures, h'.clients.trans h.clients,
    h'.sent.trans h.sent, h'.link.trans h.link⟩

theorem Session.Quiet.client? (h : s.Quiet u) (name : String) : u.client? name = s.client? name := by
  rw [Session.client?, Session.client?, h.clients]

theorem Session.Quiet.moves (h : s.Quiet u) (link : Link σ) : Moves link s [] u where
  client name := by
    rw [h.client? name]
    exact (congrFun Option.map_id (s.client? name)).symm
  names := by rw [h.clients]
  known entry hentry := by contradiction
  failures := ⟨[], by rw [h.failures, List.append_nil], fun f hf => by contradiction, fun name c _ => rfl⟩
  sent := by
    rw [h.sent]
    exact (List.append_nil _).symm
  link := h.link

theorem Moves.isSome_client? (h : Moves link s log u) (name : String) :
    (u.client? name).isSome = (s.client? name).isSome := by
  rw [h.client name, Option.isSome_map]

/-- What two logs make of a session one after the other, their combination makes of it. -/
theorem Moves.trans (h : Moves link s log u) (h' : Moves link u log' v) : Moves link s (log ++ log') v where
  client name := by
    rw [h'.client, h.client, Option.map_map, actsOf_append]
    refine congrArg (fun f => Option.map f (s.client? name)) (funext fun c => ?_)
    exact (List.foldl_append ..).symm
  names := h'.names.trans h.names
  known entry hentry := by
    rcases List.mem_append.1 hentry with hentry | hentry
    · exact h.known entry hentry
    · rw [← h.isSome_client?]
      exact h'.known entry hentry
  failures := by
    obtain ⟨added, hfailures, hknown, hmismatches⟩ := h.failures
    obtain ⟨added', hfailures', hknown', hmismatches'⟩ := h'.failures
    refine ⟨added ++ added', by rw [hfailures', hfailures, List.append_assoc], ?_, ?_⟩
    · intro f hf
      rcases List.mem_append.1 hf with hf | hf
      · exact hknown f hf
      · rw [← h.isSome_client?]
        exact hknown' f hf
    · intro name c hc
      -- the second log finds the client as the first one leaves it
      have hc' : u.client? name = some ((actsOf name log).foldl Client.act c) := by
        rw [h.client, hc]
        rfl
      rw [List.filter_append, List.map_append, hmismatches name c hc, hmismatches' name _ hc', opsOf_append,
        mismatches_append, output_foldl_act]
      rfl
  sent := by rw [h'.sent, h.sent, callsOf_append, List.append_assoc]
  link := by
    rw [h'.link, h.link, callsOf_append]
    exact (List.foldl_append ..).symm

theorem Moves.quiet (h : Moves link s log u) (h' : u.Quiet v) : Moves link s log v := by
  have htrans := h.trans (h'.moves link)
  rwa [List.append_nil] at htrans

theorem Session.Quiet.then (h : s.Quiet u) (h' : Moves link u log v) : Moves link s log v :=
  (h.moves link).trans h'

end Conformance.Script
