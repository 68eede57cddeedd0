import Conformance.Cases.TestCase
import Conformance.Config.Settings
import Conformance.Runs.Bench
import Conformance.Service.Endpoint

/-!
# Setting up a run

Before its scripts a run creates its output directory and its variables and brings up its clients, one
after the other. For a client that is spawned a service is launched in a data directory of its own; a
client that is not spawned belongs to a service that runs already.
-/
namespace Conformance.Runs

open Files Service Cases Config

/-- What a run is about: the settings, the test and its output directory. -/
structure Plan where
  settings : Settings
  case : TestCase
  deriving Repr, Inhabited

namespace Plan

/-- The directory that takes all that the run puts out. -/
def testDir (p : Plan) : String := testOutDir p.settings.runner.outDir p.case.name

/-- The data directory of a client's service. -/
def dataDir (p : Plan) (c : ClientSpec) : String := Path.join p.testDir c.name

/-- Where the service of a client is reached, if it listens on this host and port. -/
def endpoint (p : Plan) (c : ClientSpec) (host : String) (port : UInt16) : Endpoint :=
  { host, port
    username := c.username.getD p.settings.service.username
    password := c.password.getD p.settings.service.password }

/-- The genesis that the service of a client derives its own from. -/
def genesis (p : Plan) (c : ClientSpec) : Option String :=
  match c.genesis with
  | some genesis => some (Path.join p.case.dir genesis)
  | none => p.settings.service.genesis

/-- How the service of a client is launched. -/
def launchSpec (p : Plan) (c : ClientSpec) (executable : String) (ports : ServicePorts) :
    LaunchSpec :=
  let service := p.settings.service
  { name := c.name
    executable
    dataDir := p.dataDir c
    pidFile := pidFile p.testDir c.name
    ports
    username := c.username.getD service.username
    password := c.password.getD service.password
    genesis := p.genesis c
    addressPrefix := service.addressPrefix
    knownPrefixes := service.knownPrefixes
    debugStop := c.debugStop
    extraArgs := service.extraArgs
    stopGrace := p.settings.timeouts.stopGrace.toNat }

/-- How a service is waited for. -/
def schedule (p : Plan) : Backoff := .withCeiling (p.settings.timeouts.ready.toNat * nanosPerSecond)

variable {σ : Type} (o : Outside σ)

/-- The port that is asked for, or else the next one that can be handed out. -/
def takePort (asked : Option UInt16) : Script.Action (Bench σ) UInt16 := fun s =>
  match asked with
  | some port => .ok port s
  | none =>
    match s.link.ports.nextPort (o.listening s.link.world.outside) with
    | (.ok port, ports) => .ok port { s with link := { s.link with ports } }
    | (.error f, ports) => .error f { s with link := { s.link with ports } }

/-- The path of the executable of a client's service. -/
def executable (p : Plan) (c : ClientSpec) (disk : Disk) : Except Fault String :=
  match c.executable with
  | some path => .ok (Path.join p.case.dir path)
  | none => p.settings.executablePath (disk.findProgram? o.searchPath)

/-- Removes a directory that an earlier run has left. -/
def clear (dir : String) : Effect σ Unit := do
  if (← get).disk.exists? dir then Effect.onDisk (·.removeDir dir)

/-- The caller of a client whose service listens on this host and port. If no requests can be sent, the
process that has been launched for the client is ended. -/
def openCaller (p : Plan) (c : ClientSpec) (host : String) (port : UInt16) (handle : Option Handle) :
    Script.Action (Bench σ) Service.Caller := do
  match o.unableToSend (← get).link.world.outside with
  | none => return { endpoint := p.endpoint c host port }
  | some reason =>
    match handle with
    | some handle => onWorld (handle.release o)
    | none => pure ()
    throw (.transport reason)

/-- The client of this name, which has to be registered. -/
def registeredClient (name : String) : Script.Action (Bench σ) Script.Client := do
  match (← get).client? name with
  | some c => return c
  | none => throw (.unknownClient name)

/-- Makes a client known to the scripts and to the bench. A process of an earlier client of its name is
ended. -/
def enlist (name : String) (caller : Service.Caller) (handle : Option Handle) :
    Script.Action (Bench σ) Unit := do
  match (← get).link.handles.lookup name with
  | some earlier => onWorld (earlier.release o)
  | none => pure ()
  onBench fun b => { b with
    callers := put name caller b.callers
    handles := match handle with
      | some h => put name h b.handles
      | none => b.handles.filter (·.1 ≠ name) }
  modify (·.register { name })
  let _ ← registeredClient name

/-- Ends the wait for the service of a client, of which `done` has come. If its process has ended meanwhile,
nothing else counts. -/
def endWait (handle : Handle) (done : Except Fault Unit × Service.Caller × Bench σ) :
    Script.Action (Bench σ) Unit := fun s =>
  let (result, caller, b) := done
  let seen := b.watch.bind (·.seen)
  let s := { s with link := { b with
    watch := none, callers := put handle.spec.name caller b.callers } }
  match seen, result with
  | some status, _ => .error (handle.exitFault status) s
  | none, .ok () => .ok () s
  | none, .error f => .error f s

/-- Waits until the service of a client answers. Its process is looked at meanwhile: if that has ended,
there is nothing to wait for. -/
def awaitService (p : Plan) (caller : Service.Caller) (handle : Handle) (pid : Nat) :
    Script.Action (Bench σ) Unit := fun s =>
  let b := ({ s.link with watch := some { pid, next := s.link.world.now } } : Bench σ).look o
  endWait handle (caller.awaitReady (Bench.carrier o) p.schedule b) s

/-- Launches the service of a client and waits until it answers. -/
def spawnClient (p : Plan) (c : ClientSpec) : Script.Action (Bench σ) Unit := do
  let p2p ← takePort o c.p2pPort
  let rpc ← takePort o c.rpcPort
  let http ← takePort o c.httpPort
  let executable ← match p.executable o c (← get).link.world.disk with
    | .ok path => pure path
    | .error f => throw f
  onWorld (clear (p.dataDir c))
  let handle ← onWorld (Handle.start o { spec := p.launchSpec c executable ⟨p2p, rpc, http⟩ })
  let caller ← p.openCaller o c p.settings.service.host rpc (some handle)
  setVariable (c.name ++ "_rpc_port") (.int (Int64.ofNat rpc.toNat))
  setVariable (c.name ++ "_p2p_port") (.int (Int64.ofNat p2p.toNat))
  setVariable (c.name ++ "_http_port") (.int (Int64.ofNat http.toNat))
  enlist o c.name caller (some handle)
  match handle.child with
  | some pid => p.awaitService o caller handle pid
  | none => pure ()

/-- Makes a client of a service that runs already. -/
def connectClient (p : Plan) (c : ClientSpec) : Script.Action (Bench σ) Unit := do
  match c.rpcPort with
  | none => throw (.config s!"external client '{c.name}' needs an rpc_port")
  | some port =>
    let caller ← p.openCaller o c (c.host.getD p.settings.service.host) port none
    setVariable (c.name ++ "_rpc_port") (.int (Int64.ofNat port.toNat))
    enlist o c.name caller none

/-- Brings up the clients in order. -/
def bringUp (p : Plan) : List ClientSpec → Script.Action (Bench σ) Unit
  | [] => pure ()
  | c :: rest => do
    if c.spawn then p.spawnClient o c else p.connectClient o c
    bringUp p rest

/-- Sets up the run. -/
def setup (p : Plan) : Script.Action (Bench σ) Unit := do
  onWorld (Effect.onDisk (·.createDirs p.testDir))
  let vars ← match p.case.environment.seedVars with
    | .ok vars => pure vars
    | .error f => throw f
  modify fun s => { s with vars }
  setVariable "testname" (.str p.case.name)
  setVariable "test_dir" (.str p.testDir)
  p.bringUp o p.case.environment.clients
  match p.case.environment.active with
  | some name => modify fun s => { s with active := some name }
  | none => pure ()

end Plan

end Conformance.Runs
