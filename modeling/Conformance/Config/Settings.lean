import Conformance.Files.Path
import Conformance.Ports.Allocator

/-!
# Settings

What a run can be told: which service to launch and how to reach it, which ports to give out, how long to
wait, and how tests are run. Every setting has a value to fall back on.
-/
namespace Conformance.Config

open Files Ports

/-- How the service is launched and reached. -/
structure ServiceSettings where
  /-- The service's executable: a path, or a bare name to be looked for. -/
  executable : String := "bitsharestestnet_client"
  host : String := "127.0.0.1"
  username : String := "username"
  password : String := "password"
  /-- The genesis that every service derives its own from. -/
  genesis : Option String := none
  addressPrefix : String := "XTS"
  knownPrefixes : List String := ["XTS", "DVS", "BTS"]
  extraArgs : List String := []
  deriving DecidableEq, Repr, Inhabited

/-- How long things may take. -/
structure Timeouts where
  /-- Seconds for one exchange with a service. -/
  request : UInt64 := 60
  /-- Seconds until a service has to be ready. -/
  ready : UInt64 := 300
  /-- Seconds for one test. -/
  run : UInt64 := 300
  /-- Milliseconds for each attempt to stop a service. -/
  stopGrace : UInt64 := 3000
  deriving DecidableEq, Repr, Inhabited

/-- How tests are run. -/
structure RunnerSettings where
  /-- How many tests run at once at most. -/
  jobs : Nat := 8
  scriptExtension : String := "btstest"
  outDir : String := "btstests/out"
  deriving DecidableEq, Repr, Inhabited

/-- All settings. -/
structure Settings where
  service : ServiceSettings := {}
  ports : PortRange := ⟨30000, 40000, true⟩
  timeouts : Timeouts := {}
  runner : RunnerSettings := {}
  deriving DecidableEq, Repr, Inhabited

namespace Settings

/-- The settings, if they make sense together. -/
def validate (s : Settings) : Except Fault Settings :=
  if s.ports.max ≤ s.ports.min then
    .error (.config
      s!"ports.min ({s.ports.min}) must be below ports.max ({s.ports.max})")
  else if s.runner.jobs = 0 then .error (.config "runner.jobs must be at least 1")
  else .ok s

/-- The path of the service's executable. A bare name stands for the first program of this name that
`found` knows. -/
def executablePath (s : Settings) (found : String → Option String) : Except Fault String :=
  let name := s.service.executable
  if 1 < (Path.components name).length || Path.isAbsolute name then .ok name
  else
    match found name with
    | some path => .ok path
    | none =>
      .error (.processStart
        s!"service executable '{name}' not found in PATH: cannot find binary path")

end Settings

end Conformance.Config
