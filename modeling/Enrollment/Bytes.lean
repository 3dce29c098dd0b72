namespace Enrollment

/-!
# Byte strings

A byte string is a list of bytes.  Text becomes bytes by UTF-8 and comes back
only where the bytes are valid UTF-8; `hex` is the lowercase spelling in which
digests and keys are shown.  A file is known by its bytes, or by there being none.
-/

abbrev Bytes := List UInt8

namespace Bytes

def hexDigit (n : Nat) : Char :=
  Char.ofNat (if n < 10 then 48 + n else 87 + n)

def hexPair (b : UInt8) : List Char :=
  [hexDigit (b.toNat / 16), hexDigit (b.toNat % 16)]

def hex (bs : Bytes) : String :=
  String.ofList (bs.flatMap hexPair)

def hexValue? (c : Char) : Option Nat :=
  if '0' ≤ c ∧ c ≤ '9' then some (c.toNat - 48)
  else if 'a' ≤ c ∧ c ≤ 'f' then some (c.toNat - 87)
  else if 'A' ≤ c ∧ c ≤ 'F' then some (c.toNat - 55)
  else none

def ofText (s : String) : Bytes :=
  s.toList.flatMap String.utf8EncodeChar

/-- The text whose UTF-8 form is `bs`, if there is one. -/
def text? (bs : Bytes) : Option String :=
  (List.toByteArray bs).utf8Decode?.map fun cs ↦ String.ofList cs.toList

@[simp] theorem text?_ofText (s : String) : text? (ofText s) = some s := by
  have h : List.toByteArray (ofText s) = List.utf8Encode s.toList := rfl
  simp only [text?, h]
  rw [List.utf8Decode?_utf8Encode]
  simp

theorem ofText_append (s t : String) : ofText (s ++ t) = ofText s ++ ofText t := by
  simp [ofText]

theorem ofText_injective {s t : String} (h : ofText s = ofText t) : s = t := by
  have := congrArg text? h
  simpa using this

end Bytes

/-! ### Files read as text -/

/-- Why a file could not be read as text. -/
inductive Unreadable
  | missing
  | notText
deriving DecidableEq

def Unreadable.message : Unreadable → String
  | missing => "No such file or directory (os error 2)"
  | notText => "stream did not contain valid UTF-8"

def readText (content : Option Bytes) : Except Unreadable String :=
  match content with
  | none => .error .missing
  | some bytes =>
    match bytes.text? with
    | none => .error .notText
    | some text => .ok text

end Enrollment
