import Enrollment.Toml.Statement
namespace Enrollment.Toml

/-!
# Tables

The statements of a document define one tree of tables.  A table is opened by a
header, grown by dotted keys, or implied by a header below it.  Nothing is
defined twice: a header may open a table that was only implied, and dotted keys
may go on growing a table they have made, but neither may touch the other's.
-/

inductive Origin
  | header
  | dotted
  | implied
deriving DecidableEq

inductive Node
  | leaf (value : Value)
  | table (origin : Origin) (entries : List (String × Node))

abbrev Entries := List (String × Node)

namespace Entries

/-- Replaces what stands under a key, or adds it at the end. -/
def put (key : String) (node : Node) : Entries → Entries
  | [] => [(key, node)]
  | (k, n) :: rest => if k = key then (k, node) :: rest else (k, n) :: put key node rest

end Entries

/-- Opens the table at a path below the given entries. -/
def openTable : List String → Entries → Option Entries
  | [], _ => none
  | [key], entries =>
    match entries.lookup key with
    | none => some (entries.put key (.table .header []))
    | some (.table .implied inner) => some (entries.put key (.table .header inner))
    | some _ => none
  | key :: path, entries =>
    match entries.lookup key with
    | none => (openTable path []).map fun inner ↦ entries.put key (.table .implied inner)
    | some (.table origin inner) =>
      (openTable path inner).map fun inner ↦ entries.put key (.table origin inner)
    | some (.leaf _) => none

/-- Gives the key at a dotted path its value, in a table that the path before
it has reached: only a table made by dotted keys is grown by them. -/
def define (value : Value) : List String → Bool → Entries → Option Entries
  | [], _, _ => none
  | [key], mayGrow, entries =>
    match mayGrow, entries.lookup key with
    | true, none => some (entries.put key (.leaf value))
    | _, _ => none
  | key :: path, _, entries =>
    match entries.lookup key with
    | none => (define value path true []).map fun inner ↦ entries.put key (.table .dotted inner)
    | some (.table .header _) => none
    | some (.table origin inner) =>
      (define value path (origin == .dotted) inner).map fun inner ↦
        entries.put key (.table origin inner)
    | some (.leaf _) => none

/-- Changes the table at a path that has been opened. -/
def within (change : Entries → Option Entries) : List String → Entries → Option Entries
  | [], entries => change entries
  | key :: path, entries =>
    match entries.lookup key with
    | some (.table origin inner) =>
      (within change path inner).map fun inner ↦ entries.put key (.table origin inner)
    | _ => none

/-- The entries of the root table after some statements, the last header of
which opened the table at `current`. -/
def build (current : List String) (root : Entries) : List Statement → Option Entries
  | [] => some root
  | .header path :: rest => do build path (← openTable path root) rest
  | .entry path value :: rest => do
    build current (← within (define value path true) current root) rest

def document? (text : String) : Option Entries := do
  build [] [] (← statements? text)

end Enrollment.Toml
