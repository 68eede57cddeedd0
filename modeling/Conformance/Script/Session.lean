import Conformance.Output.Failure
import Conformance.Output.State

/-!
# The state of a run

One session lasts for all scripts of a run. It holds the variables, the clients with their captured
output, the switches that directives set, and what has been recorded.
-/
namespace Conformance.Script

open Expr

/-- A named connection to a service, with the output of its last command. -/
structure Client where
  name : String
  output : Output.State := {}
  /-- The last command that was answered. -/
  lastCommand : Option String := none
  deriving DecidableEq, Repr, Inhabited

/-- How commands reach the services. `σ` is what the connections remember. -/
structure Link (σ : Type) where
  /-- Sends a command to the client of the given name and gives back its reply. -/
  send : String → String → σ → Except Fault String × σ

/-- The state of a run. -/
structure Session (σ : Type) where
  vars : Env := .empty
  /-- The client that receives commands and whose output is checked. -/
  active : Option String := none
  expectEnabled : Bool := true
  showMatch : Bool := false
  showLineNumbers : Bool := false
  /-- The texts matched by the token being carried out. -/
  matched : List String := []
  failures : List Output.Failure := []
  /-- The script as it ran, with what was matched. -/
  transcript : String := ""
  /-- The client whose last output may still hold unread text. -/
  pending : Option String := none
  /-- The clients, each name once. -/
  clients : List Client := []
  /-- The commands sent so far, each with its client. -/
  sent : List (String × String) := []
  /-- Whether the program itself has broken down, so that nothing comes of the run. -/
  crashed : Bool := false
  /-- The state of the connections. -/
  link : σ

namespace Session

variable {σ : Type}

/-- The client of the given name. -/
def client? (s : Session σ) (name : String) : Option Client := s.clients.find? (·.name = name)

/-- The session with the client of this name changed. -/
def updateClient (s : Session σ) (name : String) (f : Client → Client) : Session σ :=
  { s with clients := s.clients.map fun c => if c.name = name then f c else c }

/-- The session with a client added, or put in place of the one of its name. The first one becomes
active. -/
def register (s : Session σ) (c : Client) : Session σ :=
  let clients :=
    if s.clients.any (·.name = c.name) then
      s.clients.map fun old => if old.name = c.name then c else old
    else s.clients ++ [c]
  { s with clients, active := some (s.active.getD c.name) }

/-- The mismatches on all clients. -/
def failureCount (s : Session σ) : Nat := (s.clients.map (·.output.failureCount)).foldl Nat.add 0

/-- The session with text added to the transcript. -/
def write (s : Session σ) (text : String) : Session σ :=
  { s with transcript := s.transcript ++ text }

end Session

end Conformance.Script
