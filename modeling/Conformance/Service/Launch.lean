import Conformance.Files.Path

/-!
# How a service is launched
-/
namespace Conformance.Service

/-- The ports that one service listens on. -/
structure ServicePorts where
  p2p : UInt16
  rpc : UInt16
  http : UInt16
  deriving DecidableEq, Repr, Inhabited

/-- Everything that is needed to launch a service. -/
structure LaunchSpec where
  /-- The name of the client that the service belongs to. -/
  name : String
  executable : String
  dataDir : String
  pidFile : String
  ports : ServicePorts
  username : String
  password : String
  /-- The file that the service's own genesis is derived from. -/
  genesis : Option String
  addressPrefix : String
  knownPrefixes : List String
  /-- Whether the service halts at the start, for a debugger. -/
  debugStop : Bool
  extraArgs : List String
  /-- How long each attempt to stop the service is waited for, in milliseconds. -/
  stopGrace : Nat
  deriving DecidableEq, Repr, Inhabited

/-- The command line of the service behind the name of its executable. -/
def LaunchSpec.args (spec : LaunchSpec) (genesisPath : Option String) : List String :=
  ["--p2p-port", toString spec.ports.p2p,
    "--rpcuser", spec.username,
    "--rpcpassword", spec.password,
    "--rpcport", toString spec.ports.rpc,
    "--httpport", toString spec.ports.http,
    "--disable-default-peers",
    "--disable-peer-advertising",
    "--min-delegate-connection-count", "0",
    "--upnp", "0"] ++
  (match genesisPath with
    | some path => ["--genesis-config", path]
    | none => []) ++
  ["--data-dir", spec.dataDir, "--server"] ++
  (if spec.debugStop then ["--debug-stop"] else []) ++
  spec.extraArgs

end Conformance.Service
