import Enrollment.Encoding.Base64
import Enrollment.Text.Blank
namespace Enrollment.Pem

/-!
# PEM blocks

A text is read line by line, each line trimmed.  A line opens a block, closes
one, or is neither; a block is closed by the label it was opened with, and no
block stands inside another.  The body of a block is its lines without a colon,
joined.  Only the blocks whose label ends in a wanted word are decoded.
-/

/-- Why a text is not a sequence of whole PEM blocks. -/
inductive Fault
  | nested (label : String)
  | endWithoutBegin (label : String)
  | mismatch (opened closed : String)
  | unterminated (label : String)
  | base64 (label : String) (fault : Base64.Fault)
deriving DecidableEq

namespace Fault

def message : Fault → String
  | nested label => "nested BEGIN " ++ label ++ " block"
  | endWithoutBegin label => "END " ++ label ++ " without BEGIN"
  | mismatch opened closed => "BEGIN " ++ opened ++ " closed by END " ++ closed
  | unterminated label => "unterminated " ++ label ++ " block"
  | base64 label fault => "invalid base64 in " ++ label ++ " block: " ++ fault.message

end Fault

inductive Line
  | opening (label : List Char)
  | closing (label : List Char)
  | other (text : List Char)
deriving DecidableEq

def dashes : List Char := ['-', '-', '-', '-', '-']
def openingMark : List Char := dashes ++ ['B', 'E', 'G', 'I', 'N', ' ']
def closingMark : List Char := dashes ++ ['E', 'N', 'D', ' ']

def label? (mark line : List Char) : Option (List Char) :=
  if mark.isPrefixOf line then
    let rest := line.drop mark.length
    if dashes.isSuffixOf rest then some (rest.take (rest.length - dashes.length)) else none
  else none

def Line.ofTrimmed (line : List Char) : Line :=
  match label? openingMark line with
  | some label => .opening label
  | none =>
    match label? closingMark line with
    | some label => .closing label
    | none => .other line

def lines (text : String) : List Line :=
  (Text.lines text.toList).map fun line ↦ .ofTrimmed (Text.trim line)

/-- A block that has been opened, with the body read so far. -/
structure Block where
  label : List Char
  body : List Char

/-- A line with a colon is a header and no part of the body. -/
def Block.add (b : Block) (line : List Char) : Block :=
  if line.contains ':' then b else { b with body := b.body ++ line }

/-- The bytes of a closed block if it is wanted. -/
def Block.decode (wanted : List Char) (b : Block) : Except Fault (List Bytes) :=
  if wanted.isSuffixOf b.label then
    match Base64.decode (Bytes.ofText (String.ofList b.body)) with
    | .ok bytes => .ok [bytes]
    | .error fault => .error (.base64 (String.ofList b.label) fault)
  else .ok []

/-- Reads lines with a block open or none. -/
def scan (wanted : List Char) : Option Block → List Line → Except Fault (List Bytes)
  | none, [] => .ok []
  | some b, [] => .error (.unterminated (String.ofList b.label))
  | none, .opening label :: rest => scan wanted (some ⟨label, []⟩) rest
  | some _, .opening label :: _ => .error (.nested (String.ofList label))
  | none, .closing label :: _ => .error (.endWithoutBegin (String.ofList label))
  | some b, .closing label :: rest =>
    if b.label = label then do
      let bytes ← b.decode wanted
      return bytes ++ (← scan wanted none rest)
    else .error (.mismatch (String.ofList b.label) (String.ofList label))
  | none, .other _ :: rest => scan wanted none rest
  | some b, .other text :: rest => scan wanted (some (b.add text)) rest

/-- The bytes of all blocks whose label ends in `wanted`, in their order. -/
def blocks (wanted text : String) : Except Fault (List Bytes) :=
  scan wanted.toList none (lines text)

end Enrollment.Pem
