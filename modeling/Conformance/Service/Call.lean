import Conformance.Fault
import Conformance.Service.Endpoint
import Conformance.Service.Status
import Conformance.Service.Wire

/-!
# Calls

A call sends a request and understands the reply to it. Each request has a number of its own, which the
reply has to repeat; where it does not, the call is tried once more. How requests travel is left open:
a carrier does that, and may remember anything on the way.
-/
namespace Conformance.Service

/-- What comes of sending a request. -/
inductive Exchange where
  /-- No reply came, for this reason. -/
  | lost (reason : String)
  /-- The run was called off. -/
  | cancelled
  | reply (status : Nat) (body : String)
  deriving DecidableEq, Repr, Inhabited

/-- How requests travel. `σ` is what the carrier remembers. -/
structure Carrier (σ : Type) where
  exchange : Endpoint → Request → σ → Exchange × σ

/-- Who makes calls to a service, and the number of the next request. -/
structure Caller where
  endpoint : Endpoint
  nextId : UInt64 := 1
  deriving DecidableEq, Repr, Inhabited

/-- What a reply says to the request of this number. A body that says nothing counts for its status; an
error in it comes before its status, and its status before its number. -/
def replyResult (id : UInt64) (status : Nat) (body : String) : Except Fault Json :=
  match Response.read? body with
  | none =>
    if isSuccess status then .error (.transport "malformed response body: no reply in it")
    else .error (.transport s!"HTTP {statusText status}")
  | some r =>
    match r.error with
    | some e => .error (.protocol e.code e.message e.data)
    | none =>
      if !isSuccess status then .error (.transport s!"HTTP {statusText status}")
      else if !r.echoes id then .error (.idMismatch id r.id.compact)
      else .ok (r.result.getD .null)

/-- What an exchange says to the request of this number. -/
def Exchange.result (id : UInt64) : Exchange → Except Fault Json
  | lost reason => .error (.transport reason)
  | cancelled => .error .cancelled
  | reply status body => replyResult id status body

namespace Caller

variable {σ : Type}

/-- The request for a method under the next number, and the caller that has sent it. -/
def issue (method : String) (params : List Json) (caller : Caller) : Request × Caller :=
  (.new method params caller.nextId, { caller with nextId := caller.nextId + 1 })

/-- Makes one attempt at a call. -/
def callOnce (carrier : Carrier σ) (method : String) (params : List Json) (caller : Caller) (s : σ) :
    Except Fault Json × Caller × σ :=
  let (request, next) := caller.issue method params
  let (exchange, s) := carrier.exchange caller.endpoint request s
  (exchange.result request.id, next, s)

/-- Makes a call. If the reply belongs to another request, a second attempt settles it. -/
def call (carrier : Carrier σ) (method : String) (params : List Json) (caller : Caller) (s : σ) :
    Except Fault Json × Caller × σ :=
  match caller.callOnce carrier method params s with
  | (.error (.idMismatch _ _), caller, s) => caller.callOnce carrier method params s
  | done => done

/-- The output of a command, from its result: a string as it is, nothing for a null, and anything else
as indented JSON. -/
def outputText : Json → String
  | .str text => text
  | .null => ""
  | v => v.indented

/-- Sends a command line and gives its output. -/
def execute (carrier : Carrier σ) (line : String) (caller : Caller) (s : σ) :
    Except Fault String × Caller × σ :=
  let (result, caller, s) := caller.call carrier executeMethod [.str line] s
  (result.map outputText, caller, s)

end Caller

end Conformance.Service
