import Enrollment.Bytes
namespace Enrollment.Toml

/-!
# Statements of a settings document

A document is a sequence of lines, each of which opens a table or gives a key
its value.  Settings are texts, whole numbers and tables; of lists only the
empty one can be a setting.  The reader knows these values and refuses a
document with any other, since no setting could take it.
-/

inductive Value
  | text (s : String)
  | integer (n : Int)
  | emptyList
  | inline (entries : List (List String × Value))

inductive Statement
  | header (path : List String)
  | entry (path : List String) (value : Value)

namespace Reader

/-! ### Characters -/

def isBlank (c : Char) : Bool := c == ' ' || c == '\t'

/-- May stand in a comment or a string: all but the controls other than tab. -/
def isPlain (c : Char) : Bool :=
  c == '\t' || (0x20 ≤ c.toNat && c.toNat != 0x7f)

def isBareKey (c : Char) : Bool := c.isAlphanum || c == '-' || c == '_'

def skipBlank (cs : List Char) : List Char := cs.dropWhile isBlank

/-- What follows a line's end, if the line ends here. -/
def lineEnd? : List Char → Option (List Char)
  | [] => some []
  | '\n' :: rest => some rest
  | '\r' :: '\n' :: rest => some rest
  | _ => none

def skipComment : List Char → List Char
  | '#' :: rest => rest.dropWhile isPlain
  | cs => cs

/-! ### Strings -/

def hexNumber? (cs : List Char) : Option Nat :=
  cs.foldlM (fun n c ↦ (Bytes.hexValue? c).map (16 * n + ·)) 0

def scalar? (cs : List Char) : Option Char := do
  let n ← hexNumber? cs
  if n.isValidChar then return Char.ofNat n else none

def escape? : Char → Option Char
  | 'b' => some '\x08'
  | 't' => some '\t'
  | 'n' => some '\n'
  | 'f' => some '\x0c'
  | 'r' => some '\r'
  | '"' => some '"'
  | '\\' => some '\\'
  | _ => none

/-- Puts a character, if there is one, before what was read after it. -/
def before (c : Option Char) (rest : Option (List Char × List Char)) :
    Option (List Char × List Char) := do
  let c ← c
  let (text, rest) ← rest
  return (c :: text, rest)

def basic? : List Char → Option (List Char × List Char)
  | '"' :: rest => some ([], rest)
  | '\\' :: 'u' :: a :: b :: c :: d :: rest => before (scalar? [a, b, c, d]) (basic? rest)
  | '\\' :: 'U' :: a :: b :: c :: d :: e :: f :: g :: h :: rest =>
    before (scalar? [a, b, c, d, e, f, g, h]) (basic? rest)
  | '\\' :: c :: rest => before (escape? c) (basic? rest)
  | c :: rest => if isPlain c then before (some c) (basic? rest) else none
  | [] => none

def literal? : List Char → Option (List Char × List Char)
  | '\'' :: rest => some ([], rest)
  | c :: rest => if isPlain c then before (some c) (literal? rest) else none
  | [] => none

/-- A line end inside a string of several lines, whose first line end is
dropped. -/
def dropFirstLineEnd : List Char → List Char
  | '\n' :: rest => rest
  | '\r' :: '\n' :: rest => rest
  | cs => cs

/-- Whether a backslash before these characters joins its line to the next. -/
def joinsLines (cs : List Char) : Bool :=
  match skipBlank cs with
  | '\n' :: _ => true
  | '\r' :: '\n' :: _ => true
  | _ => false

/-- The rest of a string between three double quotes.  While `joining`, blanks
and line ends are dropped. -/
def multiBasic? (joining : Bool) : List Char → Option (List Char × List Char)
  | '"' :: '"' :: '"' :: '"' :: '"' :: rest => some (['"', '"'], rest)
  | '"' :: '"' :: '"' :: '"' :: rest => some (['"'], rest)
  | '"' :: '"' :: '"' :: rest => some ([], rest)
  | '\r' :: '\n' :: rest =>
    if joining then multiBasic? true rest else before (some '\n') (multiBasic? false rest)
  | '\n' :: rest =>
    if joining then multiBasic? true rest else before (some '\n') (multiBasic? false rest)
  | '\\' :: 'u' :: a :: b :: c :: d :: rest =>
    before (scalar? [a, b, c, d]) (multiBasic? false rest)
  | '\\' :: 'U' :: a :: b :: c :: d :: e :: f :: g :: h :: rest =>
    before (scalar? [a, b, c, d, e, f, g, h]) (multiBasic? false rest)
  | '\\' :: c :: rest =>
    if joinsLines (c :: rest) then multiBasic? true (c :: rest)
    else before (escape? c) (multiBasic? false rest)
  | c :: rest =>
    if joining && isBlank c then multiBasic? true rest
    else if isPlain c then before (some c) (multiBasic? false rest)
    else none
  | [] => none

@[simp] theorem multiBasic?_nil (joining : Bool) : multiBasic? joining [] = none := by
  rw [multiBasic?]

/-- The rest of a string between three single quotes. -/
def multiLiteral? : List Char → Option (List Char × List Char)
  | '\'' :: '\'' :: '\'' :: '\'' :: '\'' :: rest => some (['\'', '\''], rest)
  | '\'' :: '\'' :: '\'' :: '\'' :: rest => some (['\''], rest)
  | '\'' :: '\'' :: '\'' :: rest => some ([], rest)
  | '\r' :: '\n' :: rest => before (some '\n') (multiLiteral? rest)
  | '\n' :: rest => before (some '\n') (multiLiteral? rest)
  | c :: rest => if isPlain c then before (some c) (multiLiteral? rest) else none
  | [] => none

/-! ### Keys -/

def simpleKey? : List Char → Option (String × List Char)
  | '"' :: rest => (basic? rest).map fun (text, rest) ↦ (String.ofList text, rest)
  | '\'' :: rest => (literal? rest).map fun (text, rest) ↦ (String.ofList text, rest)
  | cs =>
    match cs.takeWhile isBareKey with
    | [] => none
    | key => some (String.ofList key, cs.dropWhile isBareKey)

/-- Keys joined by dots, and what follows the blanks after them. -/
def path? : Nat → List Char → Option (List String × List Char)
  | 0, _ => none
  | fuel + 1, cs => do
    let (key, rest) ← simpleKey? (skipBlank cs)
    match skipBlank rest with
    | '.' :: rest =>
      let (keys, rest) ← path? fuel rest
      return (key :: keys, rest)
    | rest => return ([key], rest)

/-! ### Numbers -/

def digitValue? (base : Nat) (c : Char) : Option Nat :=
  (Bytes.hexValue? c).filter (· < base)

/-- Digits between which single underscores may stand. -/
def digits (base : Nat) : List Char → List Nat × List Char
  | '_' :: c :: rest =>
    match digitValue? base c with
    | some d => let (ds, rest) := digits base rest; (d :: ds, rest)
    | none => ([], '_' :: c :: rest)
  | c :: rest =>
    match digitValue? base c with
    | some d => let (ds, rest) := digits base rest; (d :: ds, rest)
    | none => ([], c :: rest)
  | [] => ([], [])

/-- A number of at least one digit that starts with a digit. -/
def unsigned? (base : Nat) (cs : List Char) : Option (Nat × List Char) := do
  let first ← cs.head?
  let _ ← digitValue? base first
  let (ds, rest) := digits base cs
  return (ds.foldl (fun n d ↦ base * n + d) 0, rest)

/-- A decimal number does not start with a needless zero. -/
def decimal? (cs : List Char) : Option (Nat × List Char) :=
  match cs with
  | '0' :: rest => some (0, rest)
  | cs => unsigned? 10 cs

def integer? (cs : List Char) : Option (Int × List Char) := do
  let (n, rest) ← match cs with
    | '+' :: rest => (decimal? rest).map fun (n, rest) ↦ ((n : Int), rest)
    | '-' :: rest => (decimal? rest).map fun (n, rest) ↦ (-(n : Int), rest)
    | '0' :: 'x' :: rest => (unsigned? 16 rest).map fun (n, rest) ↦ ((n : Int), rest)
    | '0' :: 'o' :: rest => (unsigned? 8 rest).map fun (n, rest) ↦ ((n : Int), rest)
    | '0' :: 'b' :: rest => (unsigned? 2 rest).map fun (n, rest) ↦ ((n : Int), rest)
    | cs => (decimal? cs).map fun (n, rest) ↦ ((n : Int), rest)
  let bound : Int := Nat.pow 2 63
  if -bound ≤ n ∧ n < bound then return (n, rest) else none

/-! ### Values and statements -/

/-- What follows the blanks, line ends and comments inside an empty list. -/
def skipLines : Nat → List Char → List Char
  | 0, cs => cs
  | fuel + 1, cs =>
    match skipComment (skipBlank cs) with
    | '\n' :: rest => skipLines fuel rest
    | '\r' :: '\n' :: rest => skipLines fuel rest
    | rest => rest

mutual

def value? : Nat → List Char → Option (Value × List Char)
  | 0, _ => none
  | fuel + 1, cs =>
    match cs with
    | '"' :: '"' :: '"' :: rest =>
      (multiBasic? false (dropFirstLineEnd rest)).map fun (text, rest) ↦
        (.text (String.ofList text), rest)
    | '"' :: rest => (basic? rest).map fun (text, rest) ↦ (.text (String.ofList text), rest)
    | '\'' :: '\'' :: '\'' :: rest =>
      (multiLiteral? (dropFirstLineEnd rest)).map fun (text, rest) ↦
        (.text (String.ofList text), rest)
    | '\'' :: rest => (literal? rest).map fun (text, rest) ↦ (.text (String.ofList text), rest)
    | '[' :: rest =>
      match skipLines (rest.length + 1) rest with
      | ']' :: rest => some (.emptyList, rest)
      | _ => none
    | '{' :: rest =>
      match skipBlank rest with
      | '}' :: rest => some (.inline [], rest)
      | rest => (assignments? fuel rest).map fun (entries, rest) ↦ (.inline entries, rest)
    | cs => (integer? cs).map fun (n, rest) ↦ (.integer n, rest)

def assignment? : Nat → List Char → Option ((List String × Value) × List Char)
  | 0, _ => none
  | fuel + 1, cs => do
    let (path, rest) ← path? (cs.length + 1) cs
    match rest with
    | '=' :: rest =>
      let (value, rest) ← value? fuel (skipBlank rest)
      return ((path, value), skipBlank rest)
    | _ => none

/-- The entries of an inline table that is not empty, and the brace after them. -/
def assignments? : Nat → List Char → Option (List (List String × Value) × List Char)
  | 0, _ => none
  | fuel + 1, cs => do
    let (entry, rest) ← assignment? fuel cs
    match rest with
    | '}' :: rest => return ([entry], rest)
    | ',' :: rest =>
      let (entries, rest) ← assignments? fuel rest
      return (entry :: entries, rest)
    | _ => none

end

@[simp] theorem value?_zero (cs : List Char) : value? 0 cs = none := by
  rw [value?]

@[simp] theorem assignment?_zero (cs : List Char) : assignment? 0 cs = none := by
  rw [assignment?]

@[simp] theorem assignments?_zero (cs : List Char) : assignments? 0 cs = none := by
  rw [assignments?]

/-- The statement at the front of a line that is not blank. -/
def statement? (cs : List Char) : Option (Statement × List Char) :=
  match cs with
  | '[' :: rest => do
    let (path, rest) ← path? (rest.length + 1) rest
    match rest with
    | ']' :: rest => return (.header path, skipBlank rest)
    | _ => none
  | cs =>
    (assignment? (3 * cs.length + 3) cs).map fun ((path, value), rest) ↦ (.entry path value, rest)

/-- The statements of all lines; a line may hold blanks and a comment besides. -/
def statements? : Nat → List Char → Option (List Statement)
  | 0, _ => none
  | fuel + 1, cs =>
    match skipBlank cs with
    | [] => some []
    | rest => do
      match lineEnd? (skipComment rest) with
      | some rest => statements? fuel rest
      | none =>
        let (statement, rest) ← statement? rest
        let rest ← lineEnd? (skipComment (skipBlank rest))
        return statement :: (← statements? fuel rest)

end Reader

/-- The statements of a document, which a byte order mark may precede. -/
def statements? (text : String) : Option (List Statement) :=
  let cs := match text.toList with
    | '\uFEFF' :: cs => cs
    | cs => cs
  Reader.statements? (cs.length + 1) cs

end Enrollment.Toml
