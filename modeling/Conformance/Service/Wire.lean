import Conformance.Json.Outline
import Conformance.Json.Printer

/-!
# Messages between client and service

A request names a method and its parameters; a reply carries a result or an error, and the number of
the request that it answers. Messages are JSON objects; when reading, an array with the fields in
order is taken as well, and unknown members do not count.
-/
namespace Conformance.Service

open Json Text

/-- The version of the protocol, sent with every request. -/
def protocolVersion : String := "2.0"

/-- The method that tells whether a service is up. -/
def statusMethod : String := "get_info"

/-- The method that carries out one line of the service's own commands. -/
def executeMethod : String := "execute_command_line"

/-- A request. -/
structure Request where
  method : String
  params : List Json
  version : String
  id : UInt64
  deriving DecidableEq, Repr, Inhabited

/-- What a service says about a failed request. -/
structure ErrorObject where
  code : Int64
  message : String
  data : Option Json
  deriving DecidableEq, Repr, Inhabited

/-- A reply. -/
structure Response where
  result : Option Json
  error : Option ErrorObject
  id : Json
  deriving DecidableEq, Repr, Inhabited

/-- An object with its members in the given order, each as text. -/
def objectText (members : List (String × String)) : String :=
  "\x7b" ++ ",".intercalate (members.map fun (name, text) => quoted name ++ ":" ++ text) ++ "\x7d"

/-- The string that the text writes. -/
def readString? (cs : List Char) : Option String := (readWithin? 0 cs).bind (·.str?)

/-- The text without spaces in front and behind, if it is an integer without fraction, exponent and
negative zero. -/
def integerText? (cs : List Char) : Option (List Char) :=
  match readWithin? 0 cs with
  | some (.number text) =>
    let digits := text.toList
    if digits ≠ ['-', '0'] && digits.all (fun c => c.isDigit || c = '-') then some digits else none
  | _ => none

/-- The unsigned 64-bit number that the text writes. -/
def readWord? (cs : List Char) : Option UInt64 :=
  ((integerText? cs).bind (readBelow? 10 wordBound)).map UInt64.ofNat

/-- The signed 64-bit number that the text writes. -/
def readSigned? (cs : List Char) : Option Int64 := (integerText? cs).bind readInt64?

/-- What a field that may be left out holds: nothing where it is missing or null. -/
def optional? {α : Type} (read? : List Char → Option α) : Option (List Char) → Option (Option α)
  | none => some none
  | some cs => if readWithin? 0 cs = some .null then some none else (read? cs).map some

namespace Request

/-- The request for a method. -/
def new (method : String) (params : List Json) (id : UInt64) : Request :=
  { method, params, version := protocolVersion, id }

/-- The request as text. -/
def text (r : Request) : String :=
  objectText [("method", quoted r.method), ("params", (Json.arr r.params).compact),
    ("jsonrpc", quoted r.version), ("id", toString r.id)]

/-- The request whose fields the outline gives. -/
def ofOutline? (o : Outline) : Option Request := do
  let fields ← o.fields? ["method", "params", "jsonrpc", "id"]
  match fields with
  | [some method, params, version, some id] =>
    let params ← match params with
      | none => some []
      | some cs =>
        match readWithin? (maxDepth - 1) cs with
        | some (.arr items) => some items
        | _ => none
    let version ← match version with
      | none => some protocolVersion
      | some cs => readString? cs
    return { method := ← readString? method, params, version, id := ← readWord? id }
  | _ => none

/-- The request that a text writes. -/
def read? (text : String) : Option Request := (outline? text.toList).bind ofOutline?

/-- The request at the front of a text, whatever follows it. -/
def readFront? (text : String) : Option Request :=
  (outlineAt? text.toList).bind fun front => ofOutline? front.1

end Request

namespace ErrorObject

/-- The error as text. -/
def text (e : ErrorObject) : String :=
  objectText ([("code", toString e.code.toInt), ("message", quoted e.message)] ++
    (match e.data with
      | some d => [("data", d.compact)]
      | none => []))

/-- The error that a text writes. -/
def read? (cs : List Char) : Option ErrorObject := do
  let fields ← (← outline? cs).fields? ["code", "message", "data"]
  match fields with
  | [some code, some message, data] =>
    return { code := ← readSigned? code, message := ← readString? message,
             data := ← optional? (readWithin? (maxDepth - 2)) data }
  | _ => none

end ErrorObject

namespace Response

/-- The reply with a result. -/
def success (id : UInt64) (result : Json) : Response :=
  { result := some result, error := none, id := .ofNat id.toNat }

/-- The reply with an error. -/
def failure (id : UInt64) (code : Int64) (message : String) : Response :=
  { result := none, error := some { code, message, data := none }, id := .ofNat id.toNat }

/-- Whether the reply is one to the request of this number. -/
def echoes (r : Response) (id : UInt64) : Bool := r.id.word? = some id.toNat

/-- The reply as text. -/
def text (r : Response) : String :=
  objectText ((match r.result with
      | some v => [("result", v.compact)]
      | none => []) ++
    (match r.error with
      | some e => [("error", e.text)]
      | none => []) ++
    [("id", r.id.compact)])

/-- The reply that a text writes. -/
def read? (text : String) : Option Response := do
  let fields ← (← outline? text.toList).fields? ["result", "error", "id"]
  match fields with
  | [result, error, id] =>
    let inner := readWithin? (maxDepth - 1)
    return { result := ← optional? inner result, error := ← optional? ErrorObject.read? error,
             id := ← match id with
               | none => some .null
               | some cs => inner cs }
  | _ => none

end Response

end Conformance.Service
