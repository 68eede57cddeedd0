import Conformance.Text.Decimal

/-!
# TOML documents

A document is a tree of tables. While it is read, each table remembers how it came about, because that
decides by which means it may still be extended: a table is defined once, by its header or by dotted
keys, and an inline table is complete as it stands.
-/
namespace Conformance.Toml

/-- How a table came about. -/
inductive Origin where
  /-- It has a header of its own, or is the whole document. -/
  | header
  /-- It is named on the way to the table of a header. -/
  | passed
  /-- It is named on the way to the value of a dotted key. -/
  | dotted
  /-- It is written between braces. -/
  | inline
  deriving DecidableEq, Repr, Inhabited

/-- Whether further dotted keys may lead into the table. -/
def Origin.isOpen : Origin → Bool
  | passed | dotted => true
  | header | inline => false

/-- A value of a document. -/
inductive Item where
  | str (s : String)
  | int (n : Int64)
  | float
  | bool (b : Bool)
  /-- A date, a time of day, or both. -/
  | moment
  | array (items : List Item)
  | table (origin : Origin) (entries : List (String × Item))
  /-- Tables that share a header between double brackets. -/
  | tables (elements : List (List (String × Item)))
  deriving Repr, Inhabited

/-- The entries of a table, each name once. -/
abbrev Entries := List (String × Item)

namespace Entries

/-- The entries with the one called `name` set. -/
def set (name : String) (item : Item) : Entries → Entries
  | [] => [(name, item)]
  | (n, i) :: r => if n = name then (n, item) :: r else (n, i) :: set name item r

/-- The entries without the one called `name`. -/
def erase (name : String) (entries : Entries) : Entries := entries.filter (·.1 ≠ name)

/-- The entries changed at the table that `path` leads to, and what `f` finds there. Names on the way
that are not there become tables of the given origin; of tables that share a header the last one is
meant. With dotted keys only open tables are entered. -/
def descend {α : Type} (origin : Origin) (f : Origin → Entries → Option (α × Entries)) :
    List String → Origin → Entries → Option (α × Entries)
  | [], here, entries => f here entries
  | name :: path, _, entries =>
    match entries.lookup name with
    | none => do
      let (found, inner) ← descend origin f path origin []
      return (found, set name (.table origin inner) entries)
    | some (.table o inner) =>
      if o = .inline || (origin = .dotted && !o.isOpen) then none
      else do
        let (found, inner) ← descend origin f path o inner
        return (found, set name (.table o inner) entries)
    | some (.tables elements) =>
      match elements.getLast? with
      | none => none
      | some last => do
        let (found, inner) ← descend origin f path .header last
        return (found, set name (.tables (elements.dropLast ++ [inner])) entries)
    | some _ => none

/-- The entries with the value of a key added. A dotted key leads to a table made by dotted keys, a
plain one does not; no name is given twice. -/
def addValue (path : List String) (name : String) (item : Item) (here : Origin)
    (entries : Entries) : Option Entries :=
  (descend .dotted
    (fun origin found =>
      if (origin = .dotted) = path.isEmpty || (found.lookup name).isSome then none
      else some ((), set name item found))
    path here entries).map (·.2)

/-- The table that a header of this path opens, and the entries without it: a new one, or one that has
only been passed so far. -/
def openTable (path : List String) (name : String) (entries : Entries) :
    Option (Entries × Entries) :=
  descend .passed
    (fun _ found =>
      match found.lookup name with
      | none => some ([], found)
      | some (.table .passed inner) => some (inner, erase name found)
      | some _ => none)
    path .header entries

/-- The entries with a table put where its header says. -/
def closeTable (path : List String) (name : String) (closed entries : Entries) : Option Entries :=
  (descend .passed (fun _ found => some ((), set name (.table .header closed) found))
    path .header entries).map (·.2)

/-- The entries with a table put behind those that share its header. -/
def appendTable (path : List String) (name : String) (closed entries : Entries) :
    Option Entries :=
  (descend .passed
    (fun _ found =>
      match found.lookup name with
      | none => some ((), set name (.tables [closed]) found)
      | some (.tables elements) => some ((), set name (.tables (elements ++ [closed])) found)
      | some _ => none)
    path .header entries).map (·.2)

end Entries

namespace Item

/-- What a section of a configuration holds for each of the names: by name in a table, in the order of
the names in an array. A moment counts as a table without these names. -/
def section? (names : List String) : Item → Option (List (Option Item))
  | table _ entries => some (names.map fun name => entries.lookup name)
  | array items => some (names.mapIdx fun i _ => items[i]?)
  | tables elements =>
    some (names.mapIdx fun i _ => (elements[i]?).map (.table .header))
  | moment => some (names.map fun _ => none)
  | _ => none

/-- The text of a string. -/
def str? : Item → Option String
  | str s => some s
  | _ => none

/-- The truth value. -/
def bool? : Item → Option Bool
  | bool b => some b
  | _ => none

/-- The number below `bound`, none of them negative. -/
def natBelow? (bound : Nat) : Item → Option Nat
  | int n => if 0 ≤ n.toInt && n.toInt < bound then some n.toInt.toNat else none
  | _ => none

/-- The texts of an array of strings. -/
def strs? : Item → Option (List String)
  | array items => items.mapM str?
  | _ => none

end Item

end Conformance.Toml
