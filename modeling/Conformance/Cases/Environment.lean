import Conformance.Expr.Value
import Conformance.Fault
import Conformance.Files.Disk
import Conformance.Yaml.Data

/-!
# Environments of tests

Each test describes its clients, and the variables that its scripts start with, in a YAML file of its
directory.
-/
namespace Conformance.Cases

open Files Yaml

/-- The name of the file in a test's directory. -/
def environmentFile : String := "testenv.yaml"

/-- One client of a test. -/
structure ClientSpec where
  name : String
  /-- Whether a service is launched for the client. -/
  spawn : Bool := true
  /-- The host of a service that runs already. -/
  host : Option String := none
  /-- The ports that are not left to be handed out. -/
  rpcPort : Option UInt16 := none
  p2pPort : Option UInt16 := none
  httpPort : Option UInt16 := none
  /-- Credentials that differ from the usual ones. -/
  username : Option String := none
  password : Option String := none
  /-- The client's own genesis, relative to the test's directory. -/
  genesis : Option String := none
  /-- The client's own executable, relative to the test's directory. -/
  executable : Option String := none
  /-- Whether the service halts at the start, for a debugger. -/
  debugStop : Bool := false
  deriving DecidableEq, Repr, Inhabited

/-- What a test runs in. -/
structure Environment where
  /-- The name of the test, if it is not that of its directory. -/
  name : Option String := none
  /-- The variables that scripts start with, in the order of their names. -/
  vars : List (String × Data) := []
  /-- The clients, in the order in which they are registered. -/
  clients : List ClientSpec := []
  /-- The client that is active at the start, if it is not the first one. -/
  active : Option String := none
  deriving Repr, Inhabited

/-- The value of a field, or its usual value if the field is missing. -/
def fieldOr {α : Type} (usual : α) (value : Node → Decoder α) : Option Node → Decoder α
  | none => return usual
  | some n => value n

/-- An optional text. -/
def textField (d : Document) : Option Node → Decoder (Option String) :=
  fieldOr none (d.optionOf d.textOf)

/-- An optional port. -/
def portField (d : Document) : Option Node → Decoder (Option UInt16) :=
  fieldOr none (d.optionOf fun n => return UInt16.ofNat (← d.natBelow Text.portBound n))

/-- The client that a node describes. -/
def clientOf (d : Document) (n : Node) : Decoder ClientSpec := do
  match ← d.fieldsOf ["name", "spawn", "host", "rpc_port", "p2p_port", "http_port", "username",
    "password", "genesis", "executable", "debug_stop"] 10 n with
  | [some name, spawn, host, rpc, p2p, http, username, password, genesis, executable, debugStop] =>
    return {
      name := ← d.textOf name
      spawn := ← fieldOr true d.boolOf spawn
      host := ← textField d host
      rpcPort := ← portField d rpc
      p2pPort := ← portField d p2p
      httpPort := ← portField d http
      username := ← textField d username
      password := ← textField d password
      genesis := ← textField d genesis
      executable := ← textField d executable
      debugStop := ← fieldOr false d.boolOf debugStop }
  | _ => failure

/-- The variables with one set, in the order of the names. -/
def setVar (name : String) (value : Data) : List (String × Data) → List (String × Data)
  | [] => [(name, value)]
  | (n, v) :: r =>
    if name = n then (name, value) :: r
    else if name < n then (name, value) :: (n, v) :: r
    else (n, v) :: setVar name value r

/-- The variables that a node describes; of two of one name the later counts. Two collections are open
around each of them. -/
def varsOf (d : Document) (n : Node) : Decoder (List (String × Data)) := do
  (← d.entriesOf n).foldlM
    (fun vars (name, n) => return setVar name (← d.dataOf (maxDepth - 2) n) vars) []

/-- The environment that a document describes. An empty document describes the usual one. -/
def environmentOf (d : Document) : Decoder Environment := do
  match d.root with
  | none => return {}
  | some root =>
    match ← d.fieldsOf ["name", "vars", "clients", "active"] 4 root with
    | [name, vars, clients, active] =>
      return {
        name := ← textField d name
        vars := ← fieldOr [] (varsOf d) vars
        clients := ← fieldOr [] (fun n => do (← d.itemsOf n).mapM (clientOf d)) clients
        active := ← textField d active }
    | _ => failure

namespace Environment

/-- Whether the clients behind those with the names `seen` are declared once each, and can be
reached. -/
def checkClients (seen : List String) : List ClientSpec → Except Fault Unit
  | [] => .ok ()
  | c :: r =>
    if seen.contains c.name then .error (.config s!"client '{c.name}' is declared twice")
    else if !c.spawn && c.rpcPort.isNone then
      .error (.config s!"external client '{c.name}' needs an rpc_port")
    else checkClients (c.name :: seen) r

/-- The environment, if its clients make sense. -/
def validate (e : Environment) : Except Fault Environment := do
  checkClients [] e.clients
  match e.active with
  | none => return e
  | some active =>
    if e.clients.any (·.name = active) then return e
    else .error (.config s!"active client '{active}' is not declared")

/-- The environment that the text of the file at `path` describes. -/
def read (path text : String) : Except Fault Environment :=
  match (Document.read? text).bind fun d => ((environmentOf d).run 0).map (·.1) with
  | none => .error (.config s!"Failed to parse '{path}': no YAML document of a test's environment")
  | some e => e.validate

/-- The environment of the test in a directory. -/
def load (disk : Disk) (dir : String) : Except Fault Environment :=
  let path := Path.join dir environmentFile
  match disk.readText path with
  | .error e => .error (.fileRead path e.message)
  | .ok text => read path text

/-- The script value of a variable. -/
def scriptValue (v : Data) : Except Fault Expr.Value :=
  match v with
  | .null => .ok .null
  | .bool b => .ok (.bool b)
  | .int n =>
    match Text.int64? n with
    | some i => .ok (.int i)
    | none => .ok (.str (toString n))
  | .float x => .ok (.str (Data.floatText x))
  | .str s => .ok (.str s)
  | v =>
    match v.toJson? with
    | some j => .ok (.json j)
    | none => .error (.json "a key of a mapping cannot be a name")

/-- The variables that scripts start with. -/
def seedVars (e : Environment) : Except Fault Expr.Env :=
  e.vars.foldlM (fun env (name, v) => return env.set name (← scriptValue v)) .empty

end Environment

end Conformance.Cases
