import Conformance.Service.Call

/-!
# What a call says about its attempts

A call makes one attempt, or two if the reply to the first one belongs to another request. Only a reply that carries the
number of its request can be the result (`Exchange.result_eq_ok_iff`). Failures are different: an error in a reply comes
before its number, and its status does too, so an error is taken from a reply to any request
(`Exchange.result_eq_fault_iff`), and only a reply that would be the result but for its number is asked for again
(`stray_reply_result`).
-/
namespace Conformance.Service

/-! ## Replies that can be read -/

/-- The status and the content of the reply, if there is one that can be read. -/
def Exchange.response? : Exchange → Option (Nat × Response)
  | reply status body => (Response.read? body).map fun r => (status, r)
  | _ => none

/-- The error as the fault that it ends a call with. -/
def ErrorObject.fault (e : ErrorObject) : Fault := .protocol e.code e.message e.data

variable {id : UInt64} {exchange : Exchange} {status : Nat} {r : Response}

theorem Exchange.exists_of_response? (h : exchange.response? = some (status, r)) :
    ∃ body, exchange = .reply status body ∧ Response.read? body = some r := by
  cases exchange with
  | lost reason => injection h
  | cancelled => injection h
  | reply status' body =>
    obtain ⟨r', hread, heq⟩ := Option.map_eq_some_iff.1 h
    cases heq
    exact ⟨body, rfl, hread⟩

/-- Without a reply that can be read, a call ends with a fault of its way or because it is called off. -/
theorem Exchange.result_of_none (id : UInt64) (h : exchange.response? = none) :
    (∃ reason, exchange.result id = .error (.transport reason)) ∨ exchange.result id = .error .cancelled := by
  cases exchange with
  | lost reason => exact .inl ⟨reason, rfl⟩
  | cancelled => exact .inr rfl
  | reply status body =>
    have hread : Response.read? body = none := Option.map_eq_none_iff.1 h
    rw [Exchange.result, replyResult, hread]
    dsimp only
    split
    · exact .inl ⟨_, rfl⟩
    · exact .inl ⟨_, rfl⟩

theorem Exchange.result_of_error {e : ErrorObject} (h : exchange.response? = some (status, r)) (he : r.error = some e) :
    exchange.result id = .error e.fault := by
  obtain ⟨body, rfl, hread⟩ := exists_of_response? h
  rw [Exchange.result, replyResult, hread]
  dsimp only
  rw [he]
  rfl

theorem Exchange.result_of_refused (h : exchange.response? = some (status, r)) (he : r.error = none)
    (hs : isSuccess status = false) : exchange.result id = .error (.transport s!"HTTP {statusText status}") := by
  obtain ⟨body, rfl, hread⟩ := exists_of_response? h
  rw [Exchange.result, replyResult, hread]
  dsimp only
  rw [he, hs]
  rfl

theorem Exchange.result_of_stray (h : exchange.response? = some (status, r)) (he : r.error = none)
    (hs : isSuccess status = true) (hid : r.echoes id = false) :
    exchange.result id = .error (.idMismatch id r.id.compact) := by
  obtain ⟨body, rfl, hread⟩ := exists_of_response? h
  rw [Exchange.result, replyResult, hread]
  dsimp only
  rw [he, hs, hid]
  rfl

theorem Exchange.result_of_own (h : exchange.response? = some (status, r)) (he : r.error = none)
    (hs : isSuccess status = true) (hid : r.echoes id = true) : exchange.result id = .ok (r.result.getD .null) := by
  obtain ⟨body, rfl, hread⟩ := exists_of_response? h
  rw [Exchange.result, replyResult, hread]
  dsimp only
  rw [he, hs, hid]
  rfl

/-- All that an attempt under the number `id` can say, by the reply to it. -/
inductive Exchange.Says (id : UInt64) (exchange : Exchange) : Except Fault Json → Prop where
  | lost (reason : String) (h : exchange.response? = none) : Says id exchange (.error (.transport reason))
  | cancelled (h : exchange.response? = none) : Says id exchange (.error .cancelled)
  /-- The reply holds an error. -/
  | error (status : Nat) (r : Response) (e : ErrorObject) (h : exchange.response? = some (status, r))
    (he : r.error = some e) : Says id exchange (.error (.protocol e.code e.message e.data))
  /-- The status is that of a failure. -/
  | refused (status : Nat) (r : Response) (h : exchange.response? = some (status, r)) (he : r.error = none)
    (hs : isSuccess status = false) : Says id exchange (.error (.transport s!"HTTP {statusText status}"))
  /-- The reply would be a result but for its number. -/
  | stray (status : Nat) (r : Response) (h : exchange.response? = some (status, r)) (he : r.error = none)
    (hs : isSuccess status = true) (hid : r.echoes id = false) : Says id exchange (.error (.idMismatch id r.id.compact))
  | own (status : Nat) (r : Response) (h : exchange.response? = some (status, r)) (he : r.error = none)
    (hs : isSuccess status = true) (hid : r.echoes id = true) : Says id exchange (.ok (r.result.getD .null))

theorem Exchange.says (id : UInt64) (exchange : Exchange) : exchange.Says id (exchange.result id) := by
  cases h : exchange.response? with
  | none =>
    rcases Exchange.result_of_none id h with ⟨reason, hresult⟩ | hresult
    · exact hresult ▸ .lost reason h
    · exact hresult ▸ .cancelled h
  | some reply =>
    obtain ⟨status, r⟩ := reply
    cases he : r.error with
    | some e => exact Exchange.result_of_error h he ▸ .error status r e h he
    | none =>
      cases hs : isSuccess status with
      | false => exact Exchange.result_of_refused h he hs ▸ .refused status r h he hs
      | true =>
        cases hid : r.echoes id with
        | false => exact Exchange.result_of_stray h he hs hid ▸ .stray status r h he hs hid
        | true => exact Exchange.result_of_own h he hs hid ▸ .own status r h he hs hid

/-- A result is that of a reply to this very request. -/
theorem Exchange.result_eq_ok_iff {v : Json} :
    exchange.result id = .ok v ↔ ∃ status r, exchange.response? = some (status, r) ∧ r.error = none ∧
      isSuccess status = true ∧ r.echoes id = true ∧ v = r.result.getD .null := by
  constructor
  · intro h
    have hsays := exchange.says id
    rw [h] at hsays
    cases hsays with
    | own status r hreply he hs hid => exact ⟨status, r, hreply, he, hs, hid, rfl⟩
  · rintro ⟨status, r, hreply, he, hs, hid, rfl⟩
    exact Exchange.result_of_own hreply he hs hid

/-- A mismatch is that of a reply which would be a result but for its number. -/
theorem Exchange.result_eq_idMismatch_iff {expected : UInt64} {got : String} :
    exchange.result id = .error (.idMismatch expected got) ↔ ∃ status r, exchange.response? = some (status, r) ∧
      r.error = none ∧ isSuccess status = true ∧ r.echoes id = false ∧ expected = id ∧ got = r.id.compact := by
  constructor
  · intro h
    have hsays := exchange.says id
    rw [h] at hsays
    cases hsays with
    | stray status r hreply he hs hid => exact ⟨status, r, hreply, he, hs, hid, rfl, rfl⟩
  · rintro ⟨status, r, hreply, he, hs, hid, rfl, rfl⟩
    exact Exchange.result_of_stray hreply he hs hid

/-- An error is that of a reply which holds it, whatever the number of the reply is. -/
theorem Exchange.result_eq_fault_iff {e : ErrorObject} :
    exchange.result id = .error e.fault ↔
      ∃ status r, exchange.response? = some (status, r) ∧ r.error = some e := by
  constructor
  · intro h
    have hsays := exchange.says id
    rw [h] at hsays
    obtain ⟨code, message, data⟩ := e
    cases hsays with
    | error status r e hreply he => exact ⟨status, r, hreply, he⟩
  · rintro ⟨status, r, hreply, he⟩
    exact Exchange.result_of_error hreply he

/-! ## Attempts -/

/-- A request, and what came of it. -/
structure Attempt where
  request : Request
  exchange : Exchange
  deriving DecidableEq, Repr, Inhabited

/-- What the attempt says. -/
def Attempt.result (a : Attempt) : Except Fault Json := a.exchange.result a.request.id

/-- Whether the result is that the reply belongs to another request. -/
def isMismatch : Except Fault Json → Bool
  | .error (.idMismatch _ _) => true
  | _ => false

theorem isMismatch_iff {result : Except Fault Json} :
    isMismatch result = true ↔ ∃ expected got, result = .error (.idMismatch expected got) := by
  constructor
  · intro h
    unfold isMismatch at h
    split at h
    · exact ⟨_, _, rfl⟩
    · cases h
  · rintro ⟨expected, got, rfl⟩
    rfl

/-- The carrier with a record of all attempts. -/
def Carrier.recorded {σ : Type} (carrier : Carrier σ) : Carrier (σ × List Attempt) where
  exchange endpoint request s :=
    let (exchange, s') := carrier.exchange endpoint request s.1
    (exchange, s', s.2 ++ [⟨request, exchange⟩])

namespace Caller

variable {σ : Type} (carrier : Carrier σ) (method : String) (params : List Json) (caller : Caller) (s : σ)

/-- The next attempt at a call, and what the carrier remembers then. -/
def attempt : Attempt × σ :=
  let (request, _) := caller.issue method params
  let (exchange, s) := carrier.exchange caller.endpoint request s
  (⟨request, exchange⟩, s)

/-- The attempts that a call makes, in order. -/
def attempts : List Attempt := (caller.call carrier.recorded method params (s, [])).2.2.2

/-- An attempt that is no mismatch settles the call. -/
theorem call_of_not_mismatch (h : isMismatch (caller.attempt carrier method params s).1.result = false) :
    caller.call carrier method params s =
      ((caller.attempt carrier method params s).1.result, (caller.issue method params).2,
        (caller.attempt carrier method params s).2) := by
  unfold call
  split
  next heq =>
    have hresult : (caller.attempt carrier method params s).1.result = .error (.idMismatch _ _) := congrArg Prod.fst heq
    rw [hresult] at h
    cases h
  next => rfl

/-- Behind a mismatch the next attempt settles the call. -/
theorem call_of_mismatch (h : isMismatch (caller.attempt carrier method params s).1.result = true) :
    caller.call carrier method params s =
      (caller.issue method params).2.callOnce carrier method params (caller.attempt carrier method params s).2 := by
  obtain ⟨expected, got, hresult⟩ := isMismatch_iff.1 h
  have honce : caller.callOnce carrier method params s =
      (.error (.idMismatch expected got), (caller.issue method params).2,
        (caller.attempt carrier method params s).2) :=
    congrArg (fun result => (result, (caller.issue method params).2, (caller.attempt carrier method params s).2)) hresult
  rw [call, honce]

/-! A record is kept beside a call and changes nothing in it. -/

section Recorded

variable (done : List Attempt)

theorem call_recorded_of_not_mismatch (h : isMismatch (caller.attempt carrier method params s).1.result = false) :
    caller.call carrier.recorded method params (s, done) =
      ((caller.attempt carrier method params s).1.result, (caller.issue method params).2,
        (caller.attempt carrier method params s).2, done ++ [(caller.attempt carrier method params s).1]) :=
  call_of_not_mismatch carrier.recorded method params caller (s, done) h

/-- The second attempt at a call, if there is one. -/
def attemptAgain : Attempt × σ :=
  (caller.issue method params).2.attempt carrier method params (caller.attempt carrier method params s).2

theorem call_recorded_of_mismatch (h : isMismatch (caller.attempt carrier method params s).1.result = true) :
    caller.call carrier.recorded method params (s, done) =
      ((caller.attemptAgain carrier method params s).1.result,
        ((caller.issue method params).2.issue method params).2, (caller.attemptAgain carrier method params s).2,
        done ++ [(caller.attempt carrier method params s).1] ++ [(caller.attemptAgain carrier method params s).1]) :=
  call_of_mismatch carrier.recorded method params caller (s, done) h

end Recorded

theorem attempts_of_not_mismatch (h : isMismatch (caller.attempt carrier method params s).1.result = false) :
    caller.attempts carrier method params s = [(caller.attempt carrier method params s).1] := by
  rw [attempts, call_recorded_of_not_mismatch carrier method params caller s [] h]
  rfl

theorem attempts_of_mismatch (h : isMismatch (caller.attempt carrier method params s).1.result = true) :
    caller.attempts carrier method params s =
      [(caller.attempt carrier method params s).1, (caller.attemptAgain carrier method params s).1] := by
  rw [attempts, call_recorded_of_mismatch carrier method params caller s [] h]
  rfl

/-- A call is made again exactly if its first attempt is a mismatch. -/
theorem length_attempts_eq_two_iff : (caller.attempts carrier method params s).length = 2 ↔
    isMismatch (caller.attempt carrier method params s).1.result = true := by
  cases h : isMismatch (caller.attempt carrier method params s).1.result with
  | false => simp [attempts_of_not_mismatch carrier method params caller s h]
  | true => simp [attempts_of_mismatch carrier method params caller s h]

/-- A call says what its last attempt says. -/
theorem exists_last_attempt : ∃ a, (caller.attempts carrier method params s).getLast? = some a ∧
    (caller.call carrier method params s).1 = a.result := by
  cases h : isMismatch (caller.attempt carrier method params s).1.result with
  | false =>
    refine ⟨(caller.attempt carrier method params s).1, ?_, ?_⟩
    · rw [attempts_of_not_mismatch carrier method params caller s h]
      rfl
    · rw [call_of_not_mismatch carrier method params caller s h]
  | true =>
    refine ⟨(caller.attemptAgain carrier method params s).1, ?_, ?_⟩
    · rw [attempts_of_mismatch carrier method params caller s h]
      rfl
    · rw [call_of_mismatch carrier method params caller s h]
      rfl

end Caller

/-! ## Replies to other requests -/

/-- The carrier of a service that gives its replies one after the other, and none when they are used up. -/
def Carrier.replying : Carrier (List (Nat × String)) where
  exchange _ _ replies :=
    match replies with
    | [] => (.lost "no reply left", [])
    | (status, body) :: replies => (.reply status body, replies)

/-- What comes of a reply to another request. It is reported as such, and the call is made again, only if the reply
holds no error and has the status of a success; an error in it becomes the result of the attempt. What a call reports
is said by the reply to its last request. If that is a result, then the reply belongs to this request; if it is an
error, then nothing but the error is asked of the reply. -/
theorem stray_reply_result {σ : Type} (carrier : Carrier σ) (method : String) (params : List Json) (caller : Caller)
    (s : σ) :
    (∀ status r, (caller.attempt carrier method params s).1.exchange.response? = some (status, r) →
      r.echoes caller.nextId = false →
      ((caller.callOnce carrier method params s).1 = .error (.idMismatch caller.nextId r.id.compact) ↔
        r.error = none ∧ isSuccess status = true) ∧
      (∀ e : ErrorObject, (caller.callOnce carrier method params s).1 = .error e.fault ↔ r.error = some e) ∧
      ((caller.attempts carrier method params s).length = 2 ↔ r.error = none ∧ isSuccess status = true)) ∧
    ∃ a, (caller.attempts carrier method params s).getLast? = some a ∧
      (∀ v, (caller.call carrier method params s).1 = .ok v ↔ ∃ status r, a.exchange.response? = some (status, r) ∧
        r.error = none ∧ isSuccess status = true ∧ r.echoes a.request.id = true ∧ v = r.result.getD .null) ∧
      (∀ e : ErrorObject, (caller.call carrier method params s).1 = .error e.fault ↔
        ∃ status r, a.exchange.response? = some (status, r) ∧ r.error = some e) := by
  constructor
  · intro status r hreply hstray
    have honce : (caller.callOnce carrier method params s).1 =
        (caller.attempt carrier method params s).1.exchange.result caller.nextId := rfl
    have hagain : isMismatch (caller.attempt carrier method params s).1.result = true ↔
        ∃ expected got, (caller.callOnce carrier method params s).1 = .error (.idMismatch expected got) := isMismatch_iff
    refine ⟨?_, ?_, ?_⟩
    · rw [honce, Exchange.result_eq_idMismatch_iff]
      simp [hreply, hstray, and_assoc]
    · intro e
      rw [honce, Exchange.result_eq_fault_iff]
      simp [hreply, and_assoc]
    · rw [Caller.length_attempts_eq_two_iff, hagain]
      simp [honce, Exchange.result_eq_idMismatch_iff, hreply, hstray, and_assoc]
  · obtain ⟨a, hlast, hcall⟩ := caller.exists_last_attempt carrier method params s
    refine ⟨a, hlast, ?_, ?_⟩
    · intro v
      rw [hcall]
      exact Exchange.result_eq_ok_iff
    · intro e
      rw [hcall]
      exact Exchange.result_eq_fault_iff

/-- A late error that answers another request, and behind it the result of the second one. -/
def lateReplies : List (Nat × String) :=
  [(200, "\x7b\"error\":\x7b\"code\":7,\"message\":\"late\"\x7d,\"id\":999\x7d"),
    (200, "\x7b\"result\": 1, \"id\": 2\x7d")]

/-- The error that comes late. -/
def lateError : Response := ⟨none, some ⟨7, "late", none⟩, .number "999"⟩

/-- Who asks first for the service that replies late. -/
def lateCaller : Caller := ⟨⟨"127.0.0.1", 8090, "username", "password"⟩, 1⟩

theorem response?_late :
    (lateCaller.attempt Carrier.replying statusMethod [] lateReplies).1.exchange.response? = some (200, lateError) :=
  Option.map_eq_some_iff.2 ⟨lateError, by decide +kernel, rfl⟩

theorem echoes_late : lateError.echoes lateCaller.nextId = false := by decide +kernel

theorem result_late : (lateCaller.attempt Carrier.replying statusMethod [] lateReplies).1.result =
    .error (.protocol 7 "late" none) :=
  Exchange.result_of_error response?_late rfl

theorem settled_late :
    isMismatch (lateCaller.attempt Carrier.replying statusMethod [] lateReplies).1.result = false := by
  rw [result_late]
  rfl

/-- The late error becomes the result of a call that it does not answer, and the call is not made again. -/
theorem stray_error_surfaces :
    (∃ status r, (lateCaller.attempt Carrier.replying statusMethod [] lateReplies).1.exchange.response? =
      some (status, r) ∧ r.echoes lateCaller.nextId = false) ∧
    (lateCaller.callOnce Carrier.replying statusMethod [] lateReplies).1 = .error (.protocol 7 "late" none) ∧
    (lateCaller.call Carrier.replying statusMethod [] lateReplies).1 = .error (.protocol 7 "late" none) ∧
    (lateCaller.attempts Carrier.replying statusMethod [] lateReplies).length = 1 := by
  refine ⟨⟨200, lateError, response?_late, echoes_late⟩, result_late, ?_, ?_⟩
  · rw [Caller.call_of_not_mismatch Carrier.replying statusMethod [] lateCaller lateReplies settled_late]
    exact result_late
  · rw [Caller.attempts_of_not_mismatch Carrier.replying statusMethod [] lateCaller lateReplies settled_late]
    rfl

/-- The late error is taken as the result of the attempt, which is therefore the only one. -/
theorem stray_reply_result_late :
    (lateCaller.callOnce Carrier.replying statusMethod [] lateReplies).1 = .error (.protocol 7 "late" none) ∧
      (lateCaller.attempts Carrier.replying statusMethod [] lateReplies).length ≠ 2 := by
  obtain ⟨-, herror, hagain⟩ := (stray_reply_result Carrier.replying statusMethod [] lateCaller lateReplies).1 200
    lateError response?_late echoes_late
  refine ⟨(herror ⟨7, "late", none⟩).2 rfl, ?_⟩
  intro h
  cases (hagain.1 h).1

end Conformance.Service
