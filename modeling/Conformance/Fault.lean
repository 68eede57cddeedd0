import Conformance.Json.Printer

/-!
# Faults

What can end a script, a test or a whole run. A mismatch between expected and actual output is not a
fault: it is recorded and the script goes on.
-/
namespace Conformance

/-- Why an operation was given up. -/
inductive Fault where
  /-- The script at this place cannot be carried out. -/
  | scriptSyntax (file : String) (line column : Nat) (message : String)
  /-- The command line opened at this place is no directive. -/
  | unknownDirective (file : String) (line column : Nat) (directive : String)
  /-- The reference at this place names no variable. -/
  | unknownVariable (file : String) (name : String) (line column : Nat)
  /-- The selected client is not registered. -/
  | unknownClient (name : String)
  /-- No client has been selected. -/
  | noActiveClient
  /-- An expression, or a pattern, cannot be evaluated. -/
  | expression (message : String)
  /-- The service could not be talked to. -/
  | transport (message : String)
  /-- The service answered with an error. -/
  | protocol (code : Int64) (message : String) (data : Option Json)
  /-- The reply belongs to another request. -/
  | idMismatch (expected : UInt64) (got : String)
  /-- The command of the given line failed. -/
  | command (command : String) (line : Nat) (source : Fault)
  /-- The service process could not be started. -/
  | processStart (message : String)
  /-- The service process is running already. -/
  | alreadyStarted (name : String)
  /-- The service did not become ready. -/
  | readyTimeout (seconds : Nat)
  /-- No port of the half-open range is free. -/
  | portsExhausted (min max : UInt16)
  /-- The operation was called off. -/
  | cancelled
  /-- The configuration makes no sense. -/
  | config (message : String)
  /-- The configuration file cannot be read as such. -/
  | configParse (message : String)
  /-- A file operation failed. -/
  | io (message : String)
  /-- A file could not be read. -/
  | fileRead (path error : String)
  /-- A text is not the JSON that was asked for. -/
  | json (message : String)
  /-- A text is not the YAML that was asked for. -/
  | yaml (message : String)
  /-- A promise of the program itself was broken. -/
  | internal (message : String)
  deriving Repr, Inhabited, DecidableEq

namespace Fault

/-- The text shown to the user. -/
def message : Fault → String
  | scriptSyntax file line column m => s!"{file}:{line}:{column}: syntax error: {m}"
  | unknownDirective file line column d => s!"{file}:{line}:{column}: unknown directive '{d}'"
  | unknownVariable file name line column =>
    s!"{file}:{line}:{column}: undefined variable '${name}'"
  | unknownClient name => s!"No client registered under the name '{name}'"
  | noActiveClient => "No active client. Select one with '>>> !client NAME' first"
  | expression m => s!"Expression error: {m}"
  | transport m => s!"RPC transport error: {m}"
  | protocol code m _ => s!"RPC error {code}: {m}"
  | idMismatch expected got => s!"RPC response id mismatch: expected {expected}, got {got}"
  | command c line source => s!"line {line}: command '{c}' failed: {source.message}"
  | processStart m => s!"Failed to start service process: {m}"
  | alreadyStarted name =>
    s!"Process '{name}' already started. Call stop() before starting it again"
  | readyTimeout seconds => s!"Service did not answer RPC within {seconds} seconds"
  | portsExhausted min max => s!"Every port in [{min}, {max}) is in use"
  | cancelled => "Operation cancelled"
  | config m => s!"Configuration error: {m}"
  | configParse m => s!"Invalid configuration file: {m}"
  | io m => s!"IO error: {m}"
  | fileRead path e => s!"Failed to read file '{path}': {e}"
  | json m => s!"JSON error: {m}"
  | yaml m => s!"YAML error: {m}"
  | internal m => s!"Internal error: {m}"

/-- Whether the fault is a cancellation, bare or as the cause of failed commands. -/
def isCancelled : Fault → Bool
  | cancelled => true
  | command _ _ source => source.isCancelled
  | _ => false

/-- The fault directly behind this one. -/
def source? : Fault → Option Fault
  | command _ _ source => some source
  | _ => none

end Fault

end Conformance
