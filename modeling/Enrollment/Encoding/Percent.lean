import Enrollment.Bytes
namespace Enrollment.Percent

/-!
# Percent encoding

Letters, digits and `-`, `_`, `.`, `~` stand for themselves; every other byte
of the UTF-8 form is `%` and two uppercase hexadecimal digits.
-/

def isUnreserved (b : UInt8) : Bool :=
  let n := b.toNat
  (48 ≤ n && n ≤ 57) || (65 ≤ n && n ≤ 90) || (97 ≤ n && n ≤ 122) ||
    n == 45 || n == 46 || n == 95 || n == 126

def upperDigit (n : Nat) : Char :=
  Char.ofNat (if n < 10 then 48 + n else 55 + n)

def encodeByte (b : UInt8) : List Char :=
  if isUnreserved b then [Char.ofNat b.toNat]
  else ['%', upperDigit (b.toNat / 16), upperDigit (b.toNat % 16)]

def encode (s : String) : String :=
  String.ofList ((Bytes.ofText s).flatMap encodeByte)

/-- The bytes a percent-encoded text stands for; a `%` needs two digits after it. -/
def decodeBytes? : List Char → Option Bytes
  | [] => some []
  | '%' :: a :: b :: rest => do
    let x ← Bytes.hexValue? a
    let y ← Bytes.hexValue? b
    return UInt8.ofNat (x * 16 + y) :: (← decodeBytes? rest)
  | c :: rest => do
    if c = '%' ∨ 128 ≤ c.toNat then none
    else return UInt8.ofNat c.toNat :: (← decodeBytes? rest)

def decode? (s : String) : Option String :=
  (decodeBytes? s.toList).bind Bytes.text?

end Enrollment.Percent
