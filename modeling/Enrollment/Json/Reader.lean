import Enrollment.Json.Tree
namespace Enrollment.Json

/-!
# Reading the JSON grammar

Every reader takes the bytes still to be read and answers what it read together
with the bytes after it, or nothing where the grammar is broken.  `Tree.ofBytes?`
reads a whole document: one value, with nothing but blanks around it.
-/

namespace Reader

def isBlank (b : UInt8) : Bool :=
  b == 0x20 || b == 0x09 || b == 0x0a || b == 0x0d

def skipBlank (bs : Bytes) : Bytes := bs.dropWhile isBlank

def isDigit (b : UInt8) : Bool := 48 ≤ b.toNat && b.toNat ≤ 57
def digit (b : UInt8) : Nat := b.toNat - 48

def ofDigits (ds : List Nat) : Nat := ds.foldl (fun n d ↦ 10 * n + d) 0

def digits? (bs : Bytes) : Option (List Nat × Bytes) :=
  match bs.takeWhile isDigit with
  | [] => none
  | ds => some (ds.map digit, bs.dropWhile isDigit)

/-- A whole part: digits without a needless zero in front. -/
def whole? (bs : Bytes) : Option (List Nat × Bytes) := do
  let (ds, rest) ← digits? bs
  match ds with
  | 0 :: _ :: _ => none
  | _ => return (ds, rest)

def fraction? (bs : Bytes) : Option (List Nat × Bytes) :=
  match bs with
  | 0x2e :: rest => digits? rest
  | _ => some ([], bs)

def exponent? (bs : Bytes) : Option (Option Int × Bytes) :=
  match bs with
  | [] => some (none, [])
  | e :: rest =>
    if e = 0x65 ∨ e = 0x45 then
      let (negative, rest) :=
        match rest with
        | 0x2d :: rest => (true, rest)
        | 0x2b :: rest => (false, rest)
        | _ => (false, rest)
      (digits? rest).map fun (ds, rest) ↦
        (some (if negative then -(ofDigits ds : Int) else ofDigits ds), rest)
    else some (none, e :: rest)

def number? (bs : Bytes) : Option (Literal × Bytes) := do
  let (negative, bs) :=
    match bs with
    | 0x2d :: rest => (true, rest)
    | _ => (false, bs)
  let (whole, bs) ← whole? bs
  let (fraction, bs) ← fraction? bs
  let (exponent, bs) ← exponent? bs
  return (⟨negative, whole, fraction, exponent⟩, bs)

/-- The byte an escape of two characters stands for. -/
def escape? (b : UInt8) : Option UInt8 :=
  match b.toNat with
  | 0x22 => some 0x22
  | 0x5c => some 0x5c
  | 0x2f => some 0x2f
  | 0x62 => some 0x08
  | 0x66 => some 0x0c
  | 0x6e => some 0x0a
  | 0x72 => some 0x0d
  | 0x74 => some 0x09
  | _ => none

def hexDigit? (b : UInt8) : Option Nat :=
  Bytes.hexValue? (Char.ofNat b.toNat)

def codeUnit? (a b c d : UInt8) : Option Nat := do
  let w ← hexDigit? a
  let x ← hexDigit? b
  let y ← hexDigit? c
  let z ← hexDigit? d
  return ((w * 16 + x) * 16 + y) * 16 + z

/-- The rest of a string whose opening quote has been read. -/
def string? : Bytes → Option (List Piece × Bytes)
  | [] => none
  | b :: rest =>
    if b = 0x22 then some ([], rest)
    else if b = 0x5c then
      match rest with
      | [] => none
      | e :: rest =>
        if e = 0x75 then
          match rest with
          | w :: x :: y :: z :: rest => do
            let code ← codeUnit? w x y z
            let (pieces, rest) ← string? rest
            return (.unit code :: pieces, rest)
          | _ => none
        else do
          let plain ← escape? e
          let (pieces, rest) ← string? rest
          return (.byte plain :: pieces, rest)
    else if b.toNat < 0x20 then none
    else do
      let (pieces, rest) ← string? rest
      return (.byte b :: pieces, rest)

/-- Reads one of the words `true`, `false` and `null` after its first letter. -/
def word? (letters : Bytes) (tree : Tree) (bs : Bytes) : Option (Tree × Bytes) :=
  if letters.isPrefixOf bs then some (tree, bs.drop letters.length) else none

mutual

/-- Reads a value with blanks in front of it. -/
def value? : Nat → Bytes → Option (Tree × Bytes)
  | 0, _ => none
  | n + 1, bs =>
    match skipBlank bs with
    | [] => none
    | b :: rest =>
      if b = 0x22 then (string? rest).map fun (pieces, rest) ↦ (.string pieces, rest)
      else if b = 0x5b then
        match skipBlank rest with
        | 0x5d :: rest => some (.array [], rest)
        | rest => (items? n rest).map fun (items, rest) ↦ (.array items, rest)
      else if b = 0x7b then
        match skipBlank rest with
        | 0x7d :: rest => some (.object [], rest)
        | rest => (members? n rest).map fun (members, rest) ↦ (.object members, rest)
      else if b = 0x74 then word? [0x72, 0x75, 0x65] (.bool true) rest
      else if b = 0x66 then word? [0x61, 0x6c, 0x73, 0x65] (.bool false) rest
      else if b = 0x6e then word? [0x75, 0x6c, 0x6c] .null rest
      else (number? (b :: rest)).map fun (literal, rest) ↦ (.number literal, rest)

/-- Reads the items of an array that is not empty, and the bracket after them. -/
def items? : Nat → Bytes → Option (List Tree × Bytes)
  | 0, _ => none
  | n + 1, bs => do
    let (item, rest) ← value? n bs
    match skipBlank rest with
    | 0x5d :: rest => return ([item], rest)
    | 0x2c :: rest =>
      let (items, rest) ← items? n rest
      return (item :: items, rest)
    | _ => none

/-- Reads the members of an object that is not empty, and the brace after them. -/
def members? : Nat → Bytes → Option (List (List Piece × Tree) × Bytes)
  | 0, _ => none
  | n + 1, bs =>
    match skipBlank bs with
    | 0x22 :: rest => do
      let (key, rest) ← string? rest
      match skipBlank rest with
      | 0x3a :: rest =>
        let (value, rest) ← value? n rest
        match skipBlank rest with
        | 0x7d :: rest => return ([(key, value)], rest)
        | 0x2c :: rest =>
          let (members, rest) ← members? n rest
          return ((key, value) :: members, rest)
        | _ => none
      | _ => none
    | _ => none

end

end Reader

/-- Two steps for every byte are enough: a reader that starts another one on the
same bytes has just read a byte itself. -/
def Tree.ofBytes? (bs : Bytes) : Option Tree := do
  let (tree, rest) ← Reader.value? (2 * bs.length + 1) bs
  if (Reader.skipBlank rest).isEmpty then return tree else none

end Enrollment.Json
