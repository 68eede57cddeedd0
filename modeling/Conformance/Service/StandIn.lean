import Conformance.Service.Endpoint
import Conformance.Service.Wire
import Conformance.Text.Blank

/-!
# A stand-in for a service

The stand-in takes the flags that a service is launched with and answers a small set of commands, so that
runs can be tried without a real service. A message that is no request is turned away before anything
else; then the credentials count, then the method and its parameters. The stand-in remembers nothing but
how many command lines it was given, in a word of 64 bits.
-/
namespace Conformance.Service

open Json Text

/-- What a stand-in is launched with. -/
structure StandIn where
  username : String
  password : String
  rpcPort : UInt16
  p2pPort : Option UInt16 := none
  genesis : Option String := none
  /-- The directory that is created at the start. -/
  dataDir : Option String := none
  /-- Whether it goes on when it is asked to end. -/
  ignoresTermination : Bool := false
  deriving DecidableEq, Repr, Inhabited

/-- A message as it comes in. -/
structure Incoming where
  verb : String := "POST"
  path : String := rpcPath
  contentType : Option String := some "application/json"
  /-- The name and the password, with a colon between them. -/
  credentials : Option String := none
  body : String
  deriving DecidableEq, Repr, Inhabited

/-- What is sent back. -/
structure Outgoing where
  status : Nat
  /-- The reply; none where the message was turned away. -/
  response : Option Response
  /-- How many seconds pass before it is sent. -/
  delay : Nat := 0
  deriving DecidableEq, Repr, Inhabited

namespace StandIn

/-- The code of a reply to wrong credentials. -/
def unauthorizedCode : Int64 := -32000

/-- The code of a reply to an unknown method. -/
def unknownMethodCode : Int64 := -32601

/-- The code of a reply to wrong parameters. -/
def wrongParamsCode : Int64 := -32602

/-- The code of a reply to an unknown command. -/
def unknownCommandCode : Int64 := 20005

/-- The line that is shown when the stand-in listens. -/
def banner (s : StandIn) : String := s!"mock_service listening on 127.0.0.1:{s.rpcPort}"

/-- Whether the credentials are those that the stand-in was launched with. The name ends at the first
colon. -/
def admits (s : StandIn) (credentials : Option String) : Bool :=
  match credentials.bind fun c => breakAt? (· = ':') c.toList with
  | some (name, password) =>
    String.ofList name = s.username && String.ofList password = s.password
  | none => false

/-- The status of the stand-in after so many command lines. -/
def info (s : StandIn) (commands : UInt64) : Json :=
  .ofMembers
    [("blockchain_head_block_num", .ofNat 0),
      ("network_num_connections", .ofNat 0),
      ("rpc_port", .ofNat s.rpcPort.toNat),
      ("p2p_port", match s.p2pPort with
        | some port => .ofNat port.toNat
        | none => .null),
      ("genesis", match s.genesis with
        | some path => .str path
        | none => .null),
      ("commands_run", .ofNat commands.toNat)]

/-- What the stand-in says about itself. -/
def aboutResult : Json :=
  .ofMembers
    [("client_version", .str "mock-0.1.0"), ("compile_date", .str "2014-06-20T14:13:00"),
      ("started", .str "3 seconds ago")]

/-- The commands that the stand-in knows. -/
def helpResult : String := "about\nbalance\necho TEXT\nget_info\nhelp\nsleep SECONDS"

/-- A balance with more digits than a binary fraction can hold. -/
def balanceResult : Json :=
  .ofMembers [("amount", .number "10000000000.000000000001"), ("symbol", .str "XTS")]

/-- What is wrong with digits behind those of `acc` that do not make a 64-bit word. The first digit that
is none, or that is too much, counts. -/
def digitsProblem (acc : Nat) : List Char → String
  | [] => "cannot parse integer from empty string"
  | c :: rest =>
    match digit? c with
    | none => "invalid digit found in string"
    | some d =>
      if wordBound ≤ acc * 10 + d then "number too large to fit in target type"
      else digitsProblem (acc * 10 + d) rest

/-- Why a text does not say a number of seconds. -/
def secondsProblem (text : String) : String :=
  match text.toList with
  | '+' :: c :: rest => digitsProblem 0 (c :: rest)
  | cs => digitsProblem 0 cs

/-- What a command comes to: its result and the seconds that it takes, or the code and the message of an
error. -/
abbrev Result := Except (Int64 × String) (Json × Nat)

/-- The first word of a command line and what follows it. -/
def commandWords (line : String) : String × String :=
  let cs := trim line.toList
  match breakAt? isWhite cs with
  | some (command, rest) => (String.ofList command, String.ofList (trim rest))
  | none => (String.ofList cs, "")

/-- Carries out a command line, the last of so many. -/
def execute (s : StandIn) (commands : UInt64) (line : String) : Result :=
  let (command, rest) := commandWords line
  match command with
  | "get_info" => .ok (s.info commands, 0)
  | "echo" => .ok (.str rest, 0)
  | "about" => .ok (aboutResult, 0)
  | "help" => .ok (.str helpResult, 0)
  | "balance" => .ok (balanceResult, 0)
  | "sleep" =>
    match readBelow? 10 wordBound rest.toList with
    | some seconds => .ok (.null, seconds)
    | none => .error (wrongParamsCode, s!"bad duration '{rest}': {secondsProblem rest}")
  | other => .error (unknownCommandCode, s!"unknown command '{other}'")

/-- The command line that a request asks for: its first parameter, if that is a string. -/
def commandLine? (r : Request) : Option String := r.params.head?.bind (·.str?)

/-- Carries out a request after so many command lines. Gives how many there are then. -/
def perform (s : StandIn) (r : Request) (commands : UInt64) : Result × UInt64 :=
  if r.method = statusMethod then (.ok (s.info commands, 0), commands)
  else if r.method = executeMethod then
    match commandLine? r with
    | some line => (s.execute (commands + 1) line, commands + 1)
    | none => (.error (wrongParamsCode, "expected a command line string"), commands)
  else (.error (unknownMethodCode, s!"method '{r.method}' not found"), commands)

/-- The reply to a request. -/
def reply (s : StandIn) (credentials : Option String) (r : Request) (commands : UInt64) :
    Outgoing × UInt64 :=
  if !s.admits credentials then
    ({ status := 401, response := some (.failure r.id unauthorizedCode "unauthorized") }, commands)
  else
    match s.perform r commands with
    | (.ok (result, delay), commands) =>
      ({ status := 200, response := some (.success r.id result), delay }, commands)
    | (.error (code, message), commands) =>
      ({ status := 500, response := some (.failure r.id code message) }, commands)

/-- Whether the type is that of JSON, whatever its parameters. -/
def isJsonType (contentType : String) : Bool :=
  let type := (trim (contentType.toList.takeWhile (· ≠ ';'))).map Char.toLower
  match breakAt? (· = '/') type with
  | some (main, sub) =>
    String.ofList main = "application" &&
      (String.ofList sub = "json" || (dropSuffix? "+json".toList sub).isSome)
  | none => false

/-- The number of bytes that the body of a message may have. -/
def bodyLimit : Nat := 2 * 1024 * 1024

/-- The request of a message, or the status that it is turned away with. What follows the request in the
body does not count. -/
def requestOf (i : Incoming) : Except Nat Request :=
  if i.path ≠ rpcPath then .error 404
  else if i.verb ≠ "POST" then .error 405
  else if !(i.contentType.any isJsonType) then .error 415
  else if bodyLimit < byteLength i.body.toList then .error 413
  else
    match Request.readFront? i.body with
    | some r => .ok r
    | none =>
      let cs := i.body.toList
      .error (if (value? (fuelFor cs) maxDepth cs).isSome then 422 else 400)

/-- Answers a message after so many command lines. -/
def answer (s : StandIn) (i : Incoming) (commands : UInt64) : Outgoing × UInt64 :=
  match requestOf i with
  | .error status => ({ status, response := none }, commands)
  | .ok r => s.reply i.credentials r commands

/-- Answers messages one after the other. -/
def answers (s : StandIn) (commands : UInt64) : List Incoming → List Outgoing
  | [] => []
  | i :: rest =>
    let (o, commands) := s.answer i commands
    o :: s.answers commands rest

/-! ## Flags -/

/-- The flags that are given so far, with their values. -/
abbrev Flags := List (String × String)

/-- The flags that take a value, and the bound of those whose value is a number. -/
def valueFlags : List (String × Option Nat) :=
  [("--p2p-port", some portBound), ("--rpcuser", none), ("--rpcpassword", none),
    ("--rpcport", some portBound), ("--httpport", some portBound),
    ("--min-delegate-connection-count", some UInt32.size), ("--upnp", some UInt8.size),
    ("--genesis-config", none), ("--data-dir", none)]

/-- The flags that take none. -/
def plainFlags : List String :=
  ["--disable-default-peers", "--disable-peer-advertising", "--server", "--debug-stop",
    "--ignore-sigterm"]

/-- The flags that the arguments give; none if one is unknown, comes twice or lacks its value. -/
def flags? (given : Flags) : List String → Option Flags
  | [] => some given
  | name :: rest =>
    if given.any (·.1 = name) then none
    else if plainFlags.contains name then flags? ((name, "") :: given) rest
    else
      match valueFlags.lookup name, rest with
      | some bound, value :: rest =>
        let fits := match bound with
          | some bound => (readBelow? 10 bound value.toList).isSome
          | none => value.toList.head? ≠ some '-'
        if fits then flags? ((name, value) :: given) rest else none
      | _, _ => none

/-- The port that a flag gives. -/
def portFlag (given : Flags) (name : String) : Option UInt16 := do
  let value ← given.lookup name
  return UInt16.ofNat (← readBelow? 10 portBound value.toList)

/-- The stand-in that is launched with these arguments. -/
def ofArgs? (args : List String) : Option StandIn := do
  let given ← flags? [] args
  return {
    username := ← given.lookup "--rpcuser"
    password := ← given.lookup "--rpcpassword"
    rpcPort := ← portFlag given "--rpcport"
    p2pPort := portFlag given "--p2p-port"
    genesis := given.lookup "--genesis-config"
    dataDir := given.lookup "--data-dir"
    ignoresTermination := given.any (·.1 = "--ignore-sigterm") }

end StandIn

end Conformance.Service
