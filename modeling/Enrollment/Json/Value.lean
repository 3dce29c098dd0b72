import Enrollment.Json.Binary64
import Enrollment.Json.Tree
namespace Enrollment.Json

/-!
# Values and their text

A tree means a value if all its strings are texts, all its numbers are in range
and it is not nested too deeply.  The text of a value is compact; an object has
one member a name, sorted by name, and of members of one name the last counts.
-/

inductive Value
  | null
  | bool (b : Bool)
  | int (n : Int)
  | real (x : Binary64)
  | string (s : String)
  | array (items : List Value)
  | object (members : List (String × Value))

/-- Writes digits after those of `n` as long as the number stays below `2 ^ 64`.
The second component counts the digits left. -/
def appendDigits (n : Nat) : List Nat → Nat × Nat
  | [] => (n, 0)
  | d :: ds =>
    if 10 * n + d < Nat.pow 2 64 then appendDigits (10 * n + d) ds else (n, ds.length + 1)

/-- A written number in floating point; nothing if it is out of range.  The
digits that sixty-four bits hold, of the whole part and then of the fraction,
make a number that is scaled by a power of ten; in each part the digits left
are not looked at. -/
def Literal.real? (l : Literal) : Option Binary64 := do
  let (n, leftOfWhole) := appendDigits 0 l.whole
  let (n, leftOfFraction) := appendDigits n l.fraction
  let power := (leftOfWhole : Int) - (l.fraction.length - leftOfFraction : Nat)
  let x ← Binary64.ofRatio? l.negative n 1
  x.scaleTen? (power + l.exponent.getD 0)

/-- Whole numbers of sixty-four bits, signed or not, stay whole; `-0` and all
others are floating point. -/
def Literal.value? (l : Literal) : Option Value :=
  let (n, left) := appendDigits 0 l.whole
  if l.fraction.isEmpty && l.exponent.isNone && left == 0 then
    if l.negative then
      if 0 < n ∧ n ≤ Nat.pow 2 63 then some (.int (-(n : Int))) else l.real?.map .real
    else some (.int n)
  else l.real?.map .real

/-- Puts a member in its place by name, over an older one of that name. -/
def insertMember (name : String) (value : Value) :
    List (String × Value) → List (String × Value)
  | [] => [(name, value)]
  | (n, v) :: rest =>
    if name = n then (name, value) :: rest
    else if name < n then (name, value) :: (n, v) :: rest
    else (n, v) :: insertMember name value rest

mutual

/-- What a tree means, if it is nested at most `room` arrays and objects deep. -/
def Tree.value? (room : Nat) : Tree → Option Value
  | .null => some .null
  | .bool b => some (.bool b)
  | .number l => l.value?
  | .string pieces => (text? pieces).map .string
  | .array items => if room = 0 then none else (values? (room - 1) items).map .array
  | .object members =>
    if room = 0 then none
    else (memberValues? (room - 1) members).map fun ms ↦
      .object (ms.foldl (fun sorted m ↦ insertMember m.1 m.2 sorted) [])

def values? (room : Nat) : List Tree → Option (List Value)
  | [] => some []
  | t :: ts => do return (← t.value? room) :: (← values? room ts)

def memberValues? (room : Nat) : List (List Piece × Tree) → Option (List (String × Value))
  | [] => some []
  | (key, t) :: ts => do
    return ((← text? key), (← t.value? room)) :: (← memberValues? room ts)

end

/-! ### Writing -/

def escape (c : Char) : List Char :=
  match c with
  | '"' => ['\\', '"']
  | '\\' => ['\\', '\\']
  | '\x08' => ['\\', 'b']
  | '\x0c' => ['\\', 'f']
  | '\n' => ['\\', 'n']
  | '\r' => ['\\', 'r']
  | '\t' => ['\\', 't']
  | c =>
    if c.toNat < 0x20 then
      ['\\', 'u', '0', '0', Bytes.hexDigit (c.toNat / 16), Bytes.hexDigit (c.toNat % 16)]
    else [c]

def quote (s : String) : List Char :=
  '"' :: s.toList.flatMap escape ++ ['"']

mutual

def Value.write : Value → List Char
  | .null => ['n', 'u', 'l', 'l']
  | .bool true => ['t', 'r', 'u', 'e']
  | .bool false => ['f', 'a', 'l', 's', 'e']
  | .int n => (if n < 0 then ['-'] else []) ++ Nat.toDigits 10 n.natAbs
  | .real x => x.text.toList
  | .string s => quote s
  | .array items => '[' :: writeItems items ++ [']']
  | .object members => '{' :: writeMembers members ++ ['}']

def writeItems : List Value → List Char
  | [] => []
  | [v] => v.write
  | v :: vs => v.write ++ ',' :: writeItems vs

def writeMembers : List (String × Value) → List Char
  | [] => []
  | [(name, v)] => quote name ++ ':' :: v.write
  | (name, v) :: ms => quote name ++ ':' :: v.write ++ ',' :: writeMembers ms

end

def Value.text (v : Value) : String := String.ofList v.write

end Enrollment.Json
