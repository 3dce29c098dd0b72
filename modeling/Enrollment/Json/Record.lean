import Enrollment.Json.Value
namespace Enrollment.Json

/-!
# Records

A record is an object whose members are looked up by name.  A name that is asked
for may stand in it once; names nobody asks for may stand in it any number of
times.  Where a record may also be given as an array, the array holds all its
fields in their order.
-/

abbrev Members := List (String × Tree)

def keyed? (members : List (List Piece × Tree)) : Option Members :=
  members.mapM fun m ↦ (text? m.1).map fun name ↦ (name, m.2)

def Tree.object? : Tree → Option Members
  | .object members => keyed? members
  | _ => none

/-- The members of a record with the given fields, written as an object or as
an array of all of them. -/
def Tree.record? (fields : List String) : Tree → Option Members
  | .object members => keyed? members
  | .array items => if items.length = fields.length then some (fields.zip items) else none
  | _ => none

namespace Members

/-- What stands under a name: nothing, or one tree.  Two are a fault. -/
def lookup? (name : String) (members : Members) : Option (Option Tree) :=
  match members.filter fun m ↦ m.1 == name with
  | [] => some none
  | [(_, t)] => some (some t)
  | _ => none

end Members

/-- A text or `null`, and nothing else. -/
def Tree.optionalText? : Tree → Option (Option String)
  | .null => some none
  | .string pieces => (text? pieces).map some
  | _ => none

def Members.optionalText? (name : String) (members : Members) : Option (Option String) := do
  match ← members.lookup? name with
  | none => return none
  | some t => t.optionalText?

/-- Any value: `null` is none, a text is itself, all else is its written form. -/
def Tree.anyText? (room : Nat) (t : Tree) : Option (Option String) :=
  (t.value? room).map fun
    | .null => none
    | .string s => some s
    | v => some v.text

def Members.anyText? (room : Nat) (name : String) (members : Members) :
    Option (Option String) := do
  match ← members.lookup? name with
  | none => return none
  | some t => t.anyText? room

/-- How deep arrays and objects may be nested in a document, the outermost
included. -/
def maxDepth : Nat := 127

end Enrollment.Json
