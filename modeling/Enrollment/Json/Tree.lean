import Enrollment.Bytes
namespace Enrollment.Json

/-!
# Documents as the grammar alone sees them

A tree keeps what the JSON grammar can tell without looking at the meaning of
what it reads: a string is the pieces it was written in, a number its digits,
and an object the sequence of its members.  Whether the pieces make a text and
whether the number is in range are asked only of the parts somebody uses.
-/

/-- A piece of a written string: a byte that stands for itself, given plainly or
by an escape of two characters, or a code unit given by `\u`. -/
inductive Piece
  | byte (b : UInt8)
  | unit (code : Nat)
deriving DecidableEq

/-- A written number: the digits of its whole part and of its fraction, which is
empty if absent. -/
structure Literal where
  negative : Bool
  whole : List Nat
  fraction : List Nat
  exponent : Option Int
deriving DecidableEq

inductive Tree
  | null
  | bool (b : Bool)
  | number (literal : Literal)
  | string (pieces : List Piece)
  | array (items : List Tree)
  | object (members : List (List Piece × Tree))

/-! ### The text of a written string -/

def isHighSurrogate (code : Nat) : Bool := 0xd800 ≤ code && code < 0xdc00
def isLowSurrogate (code : Nat) : Bool := 0xdc00 ≤ code && code < 0xe000

/-- The bytes the pieces stand for; surrogates must come in pairs. -/
def pieceBytes? : List Piece → Option Bytes
  | [] => some []
  | .byte b :: rest => do return b :: (← pieceBytes? rest)
  | .unit high :: .unit low :: rest =>
    if isHighSurrogate high then
      if isLowSurrogate low then do
        let c := Char.ofNat (0x10000 + (high - 0xd800) * 0x400 + (low - 0xdc00))
        return String.utf8EncodeChar c ++ (← pieceBytes? rest)
      else none
    else if isLowSurrogate high then none
    else do
      return String.utf8EncodeChar (Char.ofNat high) ++ (← pieceBytes? (.unit low :: rest))
  | .unit code :: rest =>
    if isHighSurrogate code || isLowSurrogate code then none
    else do return String.utf8EncodeChar (Char.ofNat code) ++ (← pieceBytes? rest)

/-- The text of a written string, if its bytes are valid UTF-8. -/
def text? (pieces : List Piece) : Option String :=
  (pieceBytes? pieces).bind Bytes.text?

end Enrollment.Json
