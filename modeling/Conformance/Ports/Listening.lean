import Conformance.Text.Blank
import Conformance.Text.Decimal
import Conformance.Text.Span

/-!
# Tables of sockets

The kernel lists its sockets in a table with one row for each. A socket that nobody is connected to
listens on its local port.
-/
namespace Conformance.Ports

open Text

/-- The port that a row shows as listening. -/
def listeningPort? (row : List Char) : Option UInt16 :=
  match words row with
  | _ :: here :: remote :: _ => do
    let _ ← dropSuffix? [':', '0', '0', '0', '0'] remote
    let (_, port) ← breakAtLast? (· = ':') here
    let n ← readBelow? 16 portBound port
    return UInt16.ofNat n
  | _ => none

/-- The listening ports of a table, whose first line is a heading. -/
def listeningPorts (table : String) : List UInt16 :=
  ((lines table.toList).drop 1).filterMap listeningPort?

/-- The listening ports of the tables that can be read, if there is one. -/
def listeningOn (tables : List (Option String)) : Option (List UInt16) :=
  match tables.filterMap id with
  | [] => none
  | readable => some (readable.flatMap listeningPorts)

end Conformance.Ports
