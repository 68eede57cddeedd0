import Conformance.Main
import Conformance.Ports.Listening
import Conformance.Service.StandIn
import Conformance.Proofs.Cli.TimeLimit
import Conformance.Proofs.Cli.Verdict
import Conformance.Proofs.Output.Cursor
import Conformance.Proofs.Output.Partition
import Conformance.Proofs.Output.Values
import Conformance.Proofs.Ports.Probing
import Conformance.Proofs.Script.Resync
import Conformance.Proofs.Script.Bookkeeping
import Conformance.Proofs.Script.Dispatch
import Conformance.Proofs.Script.Isolation
import Conformance.Proofs.Script.Independence
import Conformance.Proofs.Script.Positions
import Conformance.Proofs.Script.Concatenation
import Conformance.Proofs.Script.Transcript
import Conformance.Proofs.Script.FinalNewline
import Conformance.Proofs.Script.VerbatimOutput
import Conformance.Proofs.Script.Faults
import Conformance.Proofs.Service.Accounting
import Conformance.Proofs.Service.Traffic
import Conformance.Proofs.Service.Results
import Conformance.Proofs.Runs.DataDirectories
import Conformance.Proofs.Runs.OutputDirectories
import Conformance.Proofs.Runs.ServicePorts
import Conformance.Proofs.Runs.SlotOwnership
import Conformance.Proofs.Runs.Teardown
import Conformance.Proofs.Runs.LaunchPaths
import Conformance.Proofs.Runs.Lifecycle
import Conformance.Proofs.Runs.Outcomes
import Conformance.Proofs.Expr.Numerals
import Conformance.Proofs.Runs.NormalValues
import Conformance.Proofs.Runs.Resolution
import Conformance.Proofs.Script.Blocks
import Conformance.Proofs.Script.Unterminated
import Conformance.Proofs.Ports.Construction
import Conformance.Proofs.Text.Hexadecimal
import Conformance.Proofs.Text.Rows
import Conformance.Proofs.Ports.Listening
import Conformance.Proofs.Json.Parts
import Conformance.Proofs.Service.Genesis
import Conformance.Proofs.Output.Changes
import Conformance.Proofs.Output.Report
import Conformance.Proofs.Output.Summary
import Conformance.Proofs.Output.Times
import Conformance.Proofs.Script.Directives
