import Conformance.Files.Path

/-!
# Where a service is reached, and where its files are
-/
namespace Conformance.Service

open Files

/-- Where a service listens, and the credentials it asks for. -/
structure Endpoint where
  host : String
  port : UInt16
  username : String
  password : String
  deriving DecidableEq, Repr, Inhabited

/-- The path that requests are sent to. -/
def rpcPath : String := "/rpc"

/-- The address that requests are sent to. -/
def Endpoint.url (e : Endpoint) : String := s!"http://{e.host}:{e.port}{rpcPath}"

/-- The output directory of a test. -/
def testOutDir (outRoot testName : String) : String := Path.join outRoot testName

/-- The file that holds the process number of a client's service, beside its data directory. -/
def pidFile (testDir clientName : String) : String := Path.join testDir (clientName ++ ".pid")

end Conformance.Service
