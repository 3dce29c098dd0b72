import Enrollment.Bytes
namespace Enrollment.Base64

/-!
# Base64 with canonical padding

Three bytes become four symbols of six bits; a last group of one or two bytes
is padded with `=`.  The reader goes through its input four bytes at a time and
names the first fault it meets, so that the writer's form is the only one
accepted.
-/

inductive Fault
  | symbol (byte : UInt8) (offset : Nat)
  | length (n : Nat)
  | lastSymbol (byte : UInt8) (offset : Nat)
  | padding
deriving DecidableEq

def Fault.message : Fault → String
  | .symbol b i => "Invalid symbol " ++ toString b.toNat ++ ", offset " ++ toString i ++ "."
  | .length n => "Invalid input length: " ++ toString n
  | .lastSymbol b i =>
    "Invalid last symbol " ++ toString b.toNat ++ ", offset " ++ toString i ++ "."
  | .padding => "Invalid padding"

def symbol (n : Nat) : UInt8 :=
  UInt8.ofNat <|
    if n < 26 then 65 + n
    else if n < 52 then 71 + n
    else if n < 62 then n - 4
    else if n = 62 then 43 else 47

/-- The six-bit number of a symbol; `=` is not a symbol. -/
def value? (b : UInt8) : Option Nat :=
  let n := b.toNat
  if 65 ≤ n ∧ n ≤ 90 then some (n - 65)
  else if 97 ≤ n ∧ n ≤ 122 then some (n - 71)
  else if 48 ≤ n ∧ n ≤ 57 then some (n + 4)
  else if n = 43 then some 62
  else if n = 47 then some 63
  else none

def pad : UInt8 := 61

theorem value?_symbol : ∀ n, n < 64 → value? (symbol n) = some n := by
  decide

theorem symbol_ne_pad : ∀ n, n < 64 → symbol n ≠ pad := by
  decide

/-! ### Writing -/

def encodeBytes : Bytes → Bytes
  | a :: b :: c :: rest =>
    symbol (a.toNat / 4) :: symbol (a.toNat % 4 * 16 + b.toNat / 16) ::
      symbol (b.toNat % 16 * 4 + c.toNat / 64) :: symbol (c.toNat % 64) :: encodeBytes rest
  | [a, b] =>
    [symbol (a.toNat / 4), symbol (a.toNat % 4 * 16 + b.toNat / 16), symbol (b.toNat % 16 * 4), pad]
  | [a] => [symbol (a.toNat / 4), symbol (a.toNat % 4 * 16), pad, pad]
  | [] => []

/-- Symbols are ASCII, so each byte is a character. -/
def encode (bs : Bytes) : String :=
  String.ofList ((encodeBytes bs).map fun b ↦ Char.ofNat b.toNat)

/-! ### Reading -/

def valueAt (b : UInt8) (offset : Nat) : Except Fault Nat :=
  match value? b with
  | some n => .ok n
  | none => .error (.symbol b offset)

/-- What the last group holds: its numbers and the count of its pads. -/
structure Tail where
  values : List Nat
  pads : Nat

/-- Reads the last group from position `at_` of it on, before any pad. -/
def tailValues (offset at_ : Nat) : Bytes → Except Fault Tail
  | [] => .ok ⟨[], 0⟩
  | b :: rest =>
    if b = pad then
      if at_ < 2 then .error (.symbol pad (offset + at_))
      else if rest.all (· == pad) then .ok ⟨[], rest.length + 1⟩
      else .error (.symbol pad (offset + at_))
    else do
      let n ← valueAt b (offset + at_)
      let tail ← tailValues offset (at_ + 1) rest
      return ⟨n :: tail.values, tail.pads⟩

/-- The bytes of a last group, once it is known to be complete. -/
def tailBytes (offset : Nat) (group : Bytes) : List Nat → Except Fault Bytes
  | [a, b] =>
    if b % 16 = 0 then .ok [UInt8.ofNat (a * 4 + b / 16)]
    else .error (.lastSymbol (group.getD 1 0) (offset + 1))
  | [a, b, c] =>
    if c % 4 = 0 then .ok [UInt8.ofNat (a * 4 + b / 16), UInt8.ofNat (b % 16 * 16 + c / 4)]
    else .error (.lastSymbol (group.getD 2 0) (offset + 2))
  | [a, b, c, d] =>
    .ok [UInt8.ofNat (a * 4 + b / 16), UInt8.ofNat (b % 16 * 16 + c / 4),
      UInt8.ofNat (c % 4 * 64 + d)]
  | _ => .ok []

def decodeTail (offset : Nat) (group : Bytes) : Except Fault Bytes := do
  let tail ← tailValues offset 0 group
  if ¬ group.isEmpty ∧ tail.values.length < 2 then
    throw (.length (offset + tail.values.length))
  if ¬ group.isEmpty ∧ tail.values.length + tail.pads ≠ 4 then throw .padding
  tailBytes offset group tail.values

/-- Reads whole groups while at least one byte stays for the last one. -/
def decodeGroups (offset : Nat) : Bytes → Except Fault Bytes
  | a :: b :: c :: d :: e :: rest => do
    let w ← valueAt a offset
    let x ← valueAt b (offset + 1)
    let y ← valueAt c (offset + 2)
    let z ← valueAt d (offset + 3)
    let more ← decodeGroups (offset + 4) (e :: rest)
    return UInt8.ofNat (w * 4 + x / 16) :: UInt8.ofNat (x % 16 * 16 + y / 4) ::
      UInt8.ofNat (y % 4 * 64 + z) :: more
  | group => decodeTail offset group

/-- A lone last byte that is no symbol is named before anything else. -/
def decode (text : Bytes) : Except Fault Bytes :=
  match text.getLast? with
  | some b =>
    if text.length % 4 = 1 ∧ b ≠ pad ∧ (value? b).isNone then
      .error (.symbol b (text.length - 1))
    else decodeGroups 0 text
  | none => .ok []

end Enrollment.Base64
