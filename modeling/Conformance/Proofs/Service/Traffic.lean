import Conformance.Proofs.Service.Attempts

/-!
# Calls under way

A caller can have any number of calls under way at once. What happens then is a sequence of small steps: a call begins
with its request, and at some time something comes of the request, which ends the call or makes it send another one.
Calls that are made one after the other are a case of this (`Traffic.Run.callAll`).

Requests are numbered in the order in which they are sent (`Run.orderly`), and each call takes one of four courses
(`Course.Proper`), from which it can be read what its result says about the replies (`calls_correlated`).
-/
namespace Conformance.Service

/-! ## Courses of calls -/

/-- How far a call has come. -/
inductive Phase where
  | waiting (request : Request)
  | ended (result : Except Fault Json)

/-- The request that something has yet to come of. -/
def Phase.request? : Phase → Option Request
  | waiting request => some request
  | ended _ => none

/-- A call that has begun: its attempts that are over, in order, and how far it has come. -/
structure Course where
  method : String
  params : List Json
  attempts : List Attempt
  phase : Phase

namespace Course

/-- The requests that the call has sent, in order. -/
def requests (c : Course) : List Request := c.attempts.map (·.request) ++ c.phase.request?.toList

/-- A request that something has come of is still one of its call. -/
theorem requests_ended (method : String) (params : List Json) (attempts : List Attempt) (request : Request)
    (exchange : Exchange) (result : Except Fault Json) :
    requests ⟨method, params, attempts ++ [⟨request, exchange⟩], .ended result⟩ =
      requests ⟨method, params, attempts, .waiting request⟩ := by
  simp only [requests, Phase.request?, List.map_append, List.map_cons, List.map_nil, Option.toList_some,
    Option.toList_none, List.append_nil]

/-- A call that sends another request has one request more. -/
theorem requests_again (method : String) (params : List Json) (attempts : List Attempt) (request next : Request)
    (exchange : Exchange) :
    requests ⟨method, params, attempts ++ [⟨request, exchange⟩], .waiting next⟩ =
      requests ⟨method, params, attempts, .waiting request⟩ ++ [next] := by
  simp only [requests, Phase.request?, List.map_append, List.map_cons, List.map_nil, Option.toList_some]

/-- The courses that a call can take. Only a first attempt whose reply belongs to another request is followed by a
second one, and the second one settles the call. -/
inductive Proper : Course → Prop where
  | first (method : String) (params : List Json) (request : Request) :
    Proper ⟨method, params, [], .waiting request⟩
  | again (method : String) (params : List Json) (a : Attempt) (request : Request) (ha : isMismatch a.result = true) :
    Proper ⟨method, params, [a], .waiting request⟩
  | settled (method : String) (params : List Json) (a : Attempt) (ha : isMismatch a.result = false) :
    Proper ⟨method, params, [a], .ended a.result⟩
  | settledAgain (method : String) (params : List Json) (a b : Attempt) (ha : isMismatch a.result = true) :
    Proper ⟨method, params, [a, b], .ended b.result⟩

end Course

/-! ## Steps -/

/-- All that a caller has done: the requests that it has sent and the calls that it has begun, each in order. -/
structure Traffic where
  caller : Caller
  sent : List Request
  calls : List Course

namespace Traffic

/-- At any time a call may begin, and anything may come of any request that something has yet to come of. -/
inductive Step : Traffic → Traffic → Prop where
  | call (caller : Caller) (sent : List Request) (calls : List Course) (method : String) (params : List Json) :
    Step ⟨caller, sent, calls⟩
      ⟨(caller.issue method params).2, sent ++ [(caller.issue method params).1],
        calls ++ [⟨method, params, [], .waiting (caller.issue method params).1⟩]⟩
  | again (caller : Caller) (sent : List Request) (front back : List Course) (method : String) (params : List Json)
      (request : Request) (exchange : Exchange) (h : isMismatch (exchange.result request.id) = true) :
    Step ⟨caller, sent, front ++ ⟨method, params, [], .waiting request⟩ :: back⟩
      ⟨(caller.issue method params).2, sent ++ [(caller.issue method params).1],
        front ++ ⟨method, params, [⟨request, exchange⟩], .waiting (caller.issue method params).1⟩ :: back⟩
  | settle (caller : Caller) (sent : List Request) (front back : List Course) (method : String) (params : List Json)
      (attempts : List Attempt) (request : Request) (exchange : Exchange)
      (h : attempts = [] → isMismatch (exchange.result request.id) = false) :
    Step ⟨caller, sent, front ++ ⟨method, params, attempts, .waiting request⟩ :: back⟩
      ⟨caller, sent,
        front ++ ⟨method, params, attempts ++ [⟨request, exchange⟩], .ended (exchange.result request.id)⟩ :: back⟩

/-- What the calls of a caller at an endpoint can come to. -/
inductive Run (endpoint : Endpoint) : Traffic → Prop where
  | start : Run endpoint ⟨{ endpoint }, [], []⟩
  | step {t t' : Traffic} (h : Run endpoint t) (hstep : Step t t') : Run endpoint t'

variable {endpoint : Endpoint} {t t' : Traffic}

/-! ## What a step preserves -/

/-- The numbers of so many requests, as 64-bit words. -/
def numbers (n : Nat) : List UInt64 := (List.range n).map fun k => UInt64.ofNat (k + 1)

/-- The requests are numbered one after the other, each belongs to exactly one call, and every call takes one of its
courses. -/
structure Orderly (t : Traffic) : Prop where
  next : t.caller.nextId = UInt64.ofNat (t.sent.length + 1)
  numbered : t.sent.map (·.id) = numbers t.sent.length
  shared : t.sent.Perm (t.calls.flatMap (·.requests))
  proper : ∀ c ∈ t.calls, c.Proper
  faithful : ∀ c ∈ t.calls, ∀ r ∈ c.requests, r = .new c.method c.params r.id

/-- One more request takes the next number. -/
theorem numbered_issue {caller : Caller} {sent : List Request} (hnext : caller.nextId = UInt64.ofNat (sent.length + 1))
    (hnumbered : sent.map (·.id) = numbers sent.length) (method : String) (params : List Json) :
    (caller.issue method params).2.nextId =
        UInt64.ofNat ((sent ++ [(caller.issue method params).1]).length + 1) ∧
      (sent ++ [(caller.issue method params).1]).map (·.id) =
        numbers (sent ++ [(caller.issue method params).1]).length := by
  have hlength : (sent ++ [(caller.issue method params).1]).length = sent.length + 1 := List.length_append
  rw [hlength]
  constructor
  · show caller.nextId + 1 = _
    rw [hnext, UInt64.ofNat_add (sent.length + 1) 1]
    rfl
  · rw [List.map_append, hnumbered, numbers, numbers, List.range_succ, List.map_append]
    exact congrArg (fun id => _ ++ [id]) hnext

section Replaced

variable {front back : List Course} {c d : Course}

/-- A call that goes on leaves the others as they are. -/
private theorem forall_replaced {p : Course → Prop} (h : ∀ x ∈ front ++ c :: back, p x) (hd : p c → p d) :
    ∀ x ∈ front ++ d :: back, p x := by
  obtain ⟨hfront, hback⟩ := List.forall_mem_append.1 h
  obtain ⟨hc, hback⟩ := List.forall_mem_cons.1 hback
  exact List.forall_mem_append.2 ⟨hfront, List.forall_mem_cons.2 ⟨hd hc, hback⟩⟩

/-- A request that is sent behind all others of the traffic stands behind those of its call. -/
private theorem perm_replaced {next : Request} (hd : d.requests = c.requests ++ [next]) :
    ((front ++ c :: back).flatMap (·.requests) ++ [next]).Perm ((front ++ d :: back).flatMap (·.requests)) := by
  simp only [List.flatMap_append, List.flatMap_cons, hd, List.append_assoc]
  exact (List.perm_append_comm.append_left _).append_left _

end Replaced

/-- A step keeps the traffic in order. -/
theorem Step.orderly (h : Step t t') (ht : t.Orderly) : t'.Orderly := by
  obtain ⟨hnext, hnumbered, hshared, hproper, hfaithful⟩ := ht
  cases h with
  | call caller sent calls method params =>
    obtain ⟨hnext', hnumbered'⟩ := numbered_issue hnext hnumbered method params
    refine ⟨hnext', hnumbered', ?_, List.forall_mem_append.2 ⟨hproper, ?_⟩, List.forall_mem_append.2 ⟨hfaithful, ?_⟩⟩
    · rw [List.flatMap_append]
      exact hshared.append_right _
    · exact List.forall_mem_singleton.2 (.first method params _)
    · exact List.forall_mem_singleton.2 (List.forall_mem_singleton.2 rfl)
  | again caller sent front back method params request exchange hmismatch =>
    obtain ⟨hnext', hnumbered'⟩ := numbered_issue hnext hnumbered method params
    have hrequests := Course.requests_again method params [] request (caller.issue method params).1 exchange
    refine ⟨hnext', hnumbered', (hshared.append_right _).trans (perm_replaced hrequests), ?_, ?_⟩
    · exact forall_replaced hproper fun _ => .again method params ⟨request, exchange⟩ _ hmismatch
    · refine forall_replaced hfaithful fun hc => ?_
      exact List.forall_mem_append.2 ⟨hc, List.forall_mem_singleton.2 rfl⟩
  | settle caller sent front back method params attempts request exchange hsettles =>
    have hrequests := Course.requests_ended method params attempts request exchange (exchange.result request.id)
    refine ⟨hnext, hnumbered, ?_, ?_, ?_⟩
    · rw [List.flatMap_append, List.flatMap_cons] at hshared ⊢
      rwa [hrequests]
    · refine forall_replaced hproper fun hc => ?_
      -- A call that waits has made no attempt, or one that was answered wrong.
      cases hc with
      | first => exact .settled method params ⟨request, exchange⟩ (hsettles rfl)
      | again _ _ a _ ha => exact .settledAgain method params a ⟨request, exchange⟩ ha
    · refine forall_replaced hfaithful fun hc => ?_
      rwa [hrequests]

/-- The traffic is in order at any time. -/
theorem Run.orderly (h : Run endpoint t) : t.Orderly := by
  induction h with
  | start =>
    refine ⟨rfl, rfl, .refl _, ?_, ?_⟩
    · intro c hc
      contradiction
    · intro c hc
      contradiction
  | step _ hstep ih => exact hstep.orderly ih

/-! ## What the result of a call says -/

/-- The numbers of two requests differ if fewer requests lie between them than 64 bits can count. -/
theorem Orderly.distinct (ht : t.Orderly) {i j : Nat} {a b : Request} (hij : i < j) (hclose : j < i + UInt64.size)
    (ha : t.sent[i]? = some a) (hb : t.sent[j]? = some b) : a.id ≠ b.id := by
  have hnumber : ∀ {k : Nat} {r : Request}, t.sent[k]? = some r → r.id = UInt64.ofNat (k + 1) := by
    intro k r hr
    have hid : (t.sent.map (·.id))[k]? = some r.id := by rw [List.getElem?_map, hr, Option.map_some]
    rw [ht.numbered, numbers, List.getElem?_map] at hid
    obtain ⟨k', hk', heq⟩ := Option.map_eq_some_iff.1 hid
    obtain ⟨hlt, rfl⟩ := List.getElem?_eq_some_iff.1 hk'
    rw [List.getElem_range] at heq
    exact heq.symm
  rw [hnumber ha, hnumber hb]
  intro heq
  have hmod := congrArg UInt64.toNat heq
  rw [UInt64.toNat_ofNat', UInt64.toNat_ofNat'] at hmod
  have hsize : UInt64.size = 18446744073709551616 := rfl
  omega

end Traffic

/-- What came of the attempt is a reply that would be a result but for its number. -/
def Attempt.AnsweredWrong (a : Attempt) : Prop :=
  ∃ status r, a.exchange.response? = some (status, r) ∧ r.error = none ∧ isSuccess status = true ∧
    r.echoes a.request.id = false

theorem Attempt.answeredWrong_of_mismatch {a : Attempt} (h : isMismatch a.result = true) : a.AnsweredWrong := by
  obtain ⟨expected, got, hresult⟩ := isMismatch_iff.1 h
  obtain ⟨status, r, hreply, he, hs, hid, -, -⟩ := Exchange.result_eq_idMismatch_iff.1 hresult
  exact ⟨status, r, hreply, he, hs, hid⟩

/-- How the requests of a call, the replies to them and its result belong together. -/
structure Course.Correlated (c : Course) : Prop where
  /-- The call has sent one request or two. -/
  one_or_two : c.requests.length = 1 ∨ c.requests.length = 2
  /-- It has sent two exactly if the reply to the first one belongs to another request. -/
  two_iff : c.requests.length = 2 ↔
    ∃ a expected got, c.attempts.head? = some a ∧ a.result = .error (.idMismatch expected got)
  /-- Its result is the one in the reply to its last request, which holds no error. -/
  of_ok : ∀ v, c.phase = .ended (.ok v) → ∃ a status r, c.attempts.getLast? = some a ∧
    c.requests.getLast? = some a.request ∧ a.exchange.response? = some (status, r) ∧ isSuccess status = true ∧
    r.error = none ∧ r.echoes a.request.id = true ∧ v = r.result.getD .null
  /-- It ends in a mismatch only if both replies belong to other requests. -/
  of_mismatch : ∀ expected got, c.phase = .ended (.error (.idMismatch expected got)) → ∃ a b, c.attempts = [a, b] ∧
    c.requests = [a.request, b.request] ∧ a.AnsweredWrong ∧ b.AnsweredWrong ∧ expected = b.request.id

namespace Course

variable {c : Course}

/-- The result of a call is that of its last attempt. -/
theorem Proper.last (h : c.Proper) {result : Except Fault Json} (hended : c.phase = .ended result) :
    ∃ a, c.attempts.getLast? = some a ∧ c.requests.getLast? = some a.request ∧ a.result = result := by
  cases h with
  | first | again => cases hended
  | settled method params a ha =>
    cases hended
    exact ⟨a, rfl, rfl, rfl⟩
  | settledAgain method params a b ha =>
    cases hended
    exact ⟨b, rfl, rfl, rfl⟩

theorem Proper.two_iff (h : c.Proper) : c.requests.length = 2 ↔
    ∃ a expected got, c.attempts.head? = some a ∧ a.result = .error (.idMismatch expected got) := by
  cases h with
  | first =>
    constructor
    · intro h
      cases h
    · rintro ⟨a, -, -, hhead, -⟩
      cases hhead
  | again method params a request ha =>
    obtain ⟨expected, got, hresult⟩ := isMismatch_iff.1 ha
    exact ⟨fun _ => ⟨a, expected, got, rfl, hresult⟩, fun _ => rfl⟩
  | settled method params a ha =>
    constructor
    · intro h
      cases h
    · rintro ⟨_, expected, got, hhead, hresult⟩
      cases hhead
      rw [hresult] at ha
      cases ha
  | settledAgain method params a b ha =>
    obtain ⟨expected, got, hresult⟩ := isMismatch_iff.1 ha
    exact ⟨fun _ => ⟨a, expected, got, rfl, hresult⟩, fun _ => rfl⟩

theorem Proper.correlated (h : c.Proper) : c.Correlated := by
  refine ⟨?_, h.two_iff, ?_, ?_⟩
  · cases h with
    | first | settled => exact .inl rfl
    | again | settledAgain => exact .inr rfl
  · intro v hended
    obtain ⟨a, hlast, hrequest, hresult⟩ := h.last hended
    obtain ⟨status, r, hreply, he, hs, hid, hv⟩ := Exchange.result_eq_ok_iff.1 hresult
    exact ⟨a, status, r, hlast, hrequest, hreply, hs, he, hid, hv⟩
  · intro expected got hended
    cases h with
    | first | again => cases hended
    | settled method params a ha =>
      -- A mismatch does not settle the first attempt.
      have hresult : a.result = .error (.idMismatch expected got) := Phase.ended.inj hended
      rw [hresult] at ha
      cases ha
    | settledAgain method params a b ha =>
      have hresult : b.result = .error (.idMismatch expected got) := Phase.ended.inj hended
      obtain ⟨-, -, -, -, -, -, hid, -⟩ := Exchange.result_eq_idMismatch_iff.1 hresult
      exact ⟨a, b, rfl, rfl, Attempt.answeredWrong_of_mismatch ha,
        Attempt.answeredWrong_of_mismatch (isMismatch_iff.2 ⟨expected, got, hresult⟩), hid⟩

end Course

/-! ## Calls one after the other -/

section OneAfterTheOther

variable {σ : Type} (carrier : Carrier σ)

/-- Makes calls one after the other, each with its method and parameters. -/
def Caller.callAll : List (String × List Json) → Caller → σ → List (Except Fault Json) × Caller × σ
  | [], caller, s => ([], caller, s)
  | (method, params) :: calls, caller, s =>
    let (result, caller, s) := caller.call carrier method params s
    let (results, caller, s) := Caller.callAll calls caller s
    (result :: results, caller, s)

variable {endpoint : Endpoint}

/-- One more call runs through the steps of its course. -/
theorem Traffic.Run.call {caller : Caller} {done : List Attempt} {courses : List Course}
    (h : Traffic.Run endpoint ⟨caller, done.map (·.request), courses⟩) (method : String) (params : List Json) (s : σ) :
    ∃ attempts,
      Traffic.Run endpoint ⟨(caller.call carrier.recorded method params (s, done)).2.1,
        (caller.call carrier.recorded method params (s, done)).2.2.2.map (·.request),
        courses ++ [⟨method, params, attempts, .ended (caller.call carrier.recorded method params (s, done)).1⟩]⟩ := by
  have hbegun := h.step (.call caller (done.map (·.request)) courses method params)
  cases hfirst : isMismatch (caller.attempt carrier method params s).1.result with
  | false =>
    refine ⟨[(caller.attempt carrier method params s).1], ?_⟩
    rw [Caller.call_recorded_of_not_mismatch carrier method params caller s done hfirst]
    have hended := hbegun.step (.settle _ _ courses [] method params [] (caller.issue method params).1
      (caller.attempt carrier method params s).1.exchange fun _ => hfirst)
    rw [List.map_append]
    exact hended
  | true =>
    refine ⟨[(caller.attempt carrier method params s).1, (caller.attemptAgain carrier method params s).1], ?_⟩
    rw [Caller.call_recorded_of_mismatch carrier method params caller s done hfirst]
    have hagain := hbegun.step (.again _ _ courses [] method params (caller.issue method params).1
      (caller.attempt carrier method params s).1.exchange hfirst)
    have hended := hagain.step (.settle _ _ courses [] method params _ _
      (caller.attemptAgain carrier method params s).1.exchange fun hnone => by cases hnone)
    rw [List.map_append, List.map_append]
    exact hended

/-- Calls that are made one after the other are a case of calls under way at once. -/
theorem Traffic.Run.callAll (calls : List (String × List Json)) {caller : Caller} {done : List Attempt}
    {courses : List Course} (h : Traffic.Run endpoint ⟨caller, done.map (·.request), courses⟩) (s : σ) :
    ∃ begun : List Course,
      Traffic.Run endpoint ⟨(Caller.callAll carrier.recorded calls caller (s, done)).2.1,
        (Caller.callAll carrier.recorded calls caller (s, done)).2.2.2.map (·.request), courses ++ begun⟩ ∧
      begun.map (fun c => (c.method, c.params)) = calls ∧
      begun.map (·.phase) = (Caller.callAll carrier.recorded calls caller (s, done)).1.map .ended := by
  induction calls generalizing caller done courses s with
  | nil =>
    refine ⟨[], ?_, rfl, rfl⟩
    rw [List.append_nil]
    exact h
  | cons call calls ih =>
    obtain ⟨method, params⟩ := call
    obtain ⟨attempts, hcall⟩ := h.call carrier method params s
    obtain ⟨begun, hrun, hcalls, hphases⟩ := ih hcall (caller.call carrier.recorded method params (s, done)).2.2.1
    refine ⟨⟨method, params, attempts, .ended (caller.call carrier.recorded method params (s, done)).1⟩ :: begun,
      ?_, ?_, ?_⟩
    · rw [List.append_assoc] at hrun
      exact hrun
    · exact congrArg ((method, params) :: ·) hcalls
    · exact congrArg (_ :: ·) hphases

end OneAfterTheOther

/-- However the calls of a caller overlap and whatever comes of their requests: the requests are numbered 1, 2, 3, …,
with numbers that differ as long as 64 bits can tell them apart, each belongs to exactly one call, and all that a call
says goes back to the replies to its own requests. This holds in particular for calls made one after the other. -/
theorem calls_correlated (endpoint : Endpoint) :
    (∀ t, Traffic.Run endpoint t →
      t.sent.map (·.id) = Traffic.numbers t.sent.length ∧
      (∀ i j a b, i < j → j < i + UInt64.size → t.sent[i]? = some a → t.sent[j]? = some b → a.id ≠ b.id) ∧
      t.sent.Perm (t.calls.flatMap (·.requests)) ∧
      (∀ c ∈ t.calls, c.Correlated ∧ ∀ r ∈ c.requests, r = .new c.method c.params r.id)) ∧
    ∀ (σ : Type) (carrier : Carrier σ) (s : σ) (calls : List (String × List Json)) results caller s' done,
      Caller.callAll carrier.recorded calls { endpoint } (s, []) = (results, caller, s', done) →
      ∃ t, Traffic.Run endpoint t ∧ t.caller = caller ∧ t.sent = done.map (·.request) ∧
        t.calls.map (fun c => (c.method, c.params)) = calls ∧ t.calls.map (·.phase) = results.map .ended := by
  constructor
  · intro t ht
    have horderly := ht.orderly
    refine ⟨horderly.numbered, ?_, horderly.shared, ?_⟩
    · intro i j a b hij hclose ha hb
      exact horderly.distinct hij hclose ha hb
    · intro c hc
      exact ⟨(horderly.proper c hc).correlated, horderly.faithful c hc⟩
  · intro σ carrier s calls results caller s' done hall
    have hstart : Traffic.Run endpoint ⟨{ endpoint }, ([] : List Attempt).map (·.request), []⟩ := .start
    obtain ⟨begun, hrun, hcalls, hphases⟩ := hstart.callAll carrier calls s
    rw [hall] at hrun hphases
    exact ⟨_, hrun, rfl, rfl, hcalls, hphases⟩

/-- Two calls overlap, and the first one is made again after the second one has begun: the requests have the numbers 1
and 3 of the first call and 2 of the second one. A call alone sends its request under the number 1. -/
theorem calls_correlated_overlapping :
    (∃ t, Traffic.Run lateCaller.endpoint t ∧ t.sent.map (·.id) = [1, 2, 3] ∧
      t.calls.map (fun c => c.requests.map (·.id)) = [[1, 3], [2]] ∧ ∀ c ∈ t.calls, c.Correlated) ∧
    ∃ t, Traffic.Run lateCaller.endpoint t ∧ t.sent = [.new statusMethod [] 1] := by
  have hfirst := Traffic.Run.start.step (.call lateCaller [] [] statusMethod [])
  have hsecond := hfirst.step (.call _ _ _ executeMethod [.str "help"])
  have hagain := hsecond.step (.again _ _ [] _ statusMethod [] _ (.reply 200 "\x7b\"id\":999\x7d") (by decide +kernel))
  have hended := hagain.step (.settle _ _ [_] [] executeMethod _ [] _ .cancelled fun _ => rfl)
  obtain ⟨hnumbered, -, -, hcalls⟩ := (calls_correlated lateCaller.endpoint).1 _ hended
  refine ⟨⟨_, hended, hnumbered, rfl, fun c hc => (hcalls c hc).1⟩, ?_⟩
  obtain ⟨t, ht, -, hsent, -, -⟩ :=
    (calls_correlated lateCaller.endpoint).2 _ Carrier.replying lateReplies [(statusMethod, [])] _ _ _ _ rfl
  refine ⟨t, ht, hsent.trans ?_⟩
  show (lateCaller.call Carrier.replying.recorded statusMethod [] (lateReplies, [])).2.2.2.map (·.request) = _
  rw [Caller.call_recorded_of_not_mismatch _ _ _ _ _ _ settled_late]
  rfl

end Conformance.Service
