namespace Enrollment.Json

/-!
# Binary floating point in sixty-four bits

A finite number is a sign, a mantissa below `2 ^ 53` and a power of two not
below `-1074`.  Each operation rounds to the nearest such number, a tie to the
even mantissa.  A power of ten is a number of its own, so that a decimal, which
is a whole number times or over powers of ten, is rounded at every step and may
miss the number nearest to it by a little.  A number is written with the fewest
digits that are nearest to it and to no other number, the nearest of those,
positionally from `1e-5` up to `1e16` and with an exponent elsewhere.
-/

structure Binary64 where
  negative : Bool
  mantissa : Nat
  exponent : Int
deriving DecidableEq

namespace Binary64

/-- `num / den` to the nearest whole number, a tie to the even one. -/
def roundHalfEven (num den : Nat) : Nat :=
  let q := num / den
  let r := num % den
  if den < 2 * r ∨ (den = 2 * r ∧ q % 2 = 1) then q + 1 else q

/-- `b ^ e` above and `b ^ (-e)` below a fraction line. -/
def scale (b : Nat) (e : Int) (ratio : Nat × Nat) : Nat × Nat :=
  (ratio.1 * b.pow e.toNat, ratio.2 * b.pow (-e).toNat)

/-- The mantissa and the power of two nearest to `num / den`, however large. -/
def nearest (num den : Nat) : Nat × Int :=
  if num = 0 then (0, -1074)
  else
    let guess : Int := (Nat.log2 num : Int) - Nat.log2 den - 53
    let (n, d) := scale 2 (-guess) (num, den)
    let exponent := max (if d * Nat.pow 2 53 ≤ n then guess + 1 else guess) (-1074)
    let (n, d) := scale 2 (-exponent) (num, den)
    let mantissa := roundHalfEven n d
    if mantissa = Nat.pow 2 53 then (Nat.pow 2 52, exponent + 1) else (mantissa, exponent)

/-- The number nearest to `num / den`; nothing if that is out of range. -/
def ofRatio? (negative : Bool) (num den : Nat) : Option Binary64 :=
  let (mantissa, exponent) := nearest num den
  if 971 < exponent then none else some ⟨negative, mantissa, exponent⟩

/-- The largest power of ten in range is `10 ^ maxTen`. -/
def maxTen : Nat := 308

def timesTen? (x : Binary64) (n : Nat) : Option Binary64 :=
  let (m, e) := nearest (Nat.pow 10 n) 1
  let (num, den) := scale 2 (x.exponent + e) (x.mantissa * m, 1)
  ofRatio? x.negative num den

/-- A number over `10 ^ n`, which is never out of range. -/
def overTen (x : Binary64) (n : Nat) : Binary64 :=
  let (m, e) := nearest (Nat.pow 10 n) 1
  let (num, den) := scale 2 (x.exponent - e) (x.mantissa, m)
  let (mantissa, exponent) := nearest num den
  ⟨x.negative, mantissa, exponent⟩

/-- A number over `10 ^ n`, over `10 ^ maxTen` as long as more is left and the
number is not yet zero. -/
def overTens (x : Binary64) (n : Nat) : Binary64 :=
  if n ≤ maxTen then x.overTen n
  else if x.mantissa = 0 then x
  else (x.overTen maxTen).overTens (n - maxTen)
termination_by n
decreasing_by simp only [maxTen] at *; omega

/-- A number scaled by a power of ten; nothing if that is out of range. -/
def scaleTen? (x : Binary64) : Int → Option Binary64
  | .ofNat n =>
    if n ≤ maxTen then x.timesTen? n
    else if x.mantissa = 0 then some x
    else none
  | .negSucc n => some (x.overTens (n + 1))

def width (n : Nat) : Nat := (Nat.toDigits 10 n).length

/-- The power of ten of the leading digit of `num / den`. -/
def leadingPower (num den : Nat) : Int :=
  if den ≤ num then (width (num / den) : Int) - 1
  else -(width ((den - 1) / num) : Int)

/-- The decimal of `count` digits that rounds back to a number with an `even`
mantissa or not, if there is one.  The number, the lowest and the highest value
that round to it are given over the common denominator `den`. -/
def digitsAt? (even : Bool) (value low high den : Nat) (power : Int) : Option Nat :=
  let (n, d) := scale 10 (-power) (value, den)
  let factor := Nat.pow 10 (-power).toNat
  let fits (c : Nat) : Bool :=
    if even then low * factor ≤ c * d && c * d ≤ high * factor
    else low * factor < c * d && c * d < high * factor
  let below := n / d
  let above := below + 1
  let nearer := if 2 * (n % d) < d ∨ (2 * (n % d) = d ∧ below % 2 = 0) then below else above
  if n % d = 0 then some below
  else match fits below, fits above with
    | true, true => some nearer
    | true, false => some below
    | false, true => some above
    | false, false => none

def dropZeros : Nat → Nat → Int → Nat × Int
  | 0, c, p => (c, p)
  | fuel + 1, c, p => if c ≠ 0 ∧ c % 10 = 0 then dropZeros fuel (c / 10) (p + 1) else (c, p)

/-- The shortest decimal `c * 10 ^ p` that rounds to a number that is not zero;
seventeen digits are always enough. -/
def shortest (x : Binary64) : Nat × Int :=
  let quarter := x.exponent - 2
  let value := 4 * x.mantissa
  let low := if x.mantissa = Nat.pow 2 52 ∧ -1074 < x.exponent then value - 1 else value - 2
  let high := value + 2
  let (unit, den) := scale 2 quarter (1, 1)
  let lead := leadingPower (value * unit) den
  let found := (List.range' 1 17).findSome? fun (count : Nat) ↦
    let power := lead - count + 1
    (digitsAt? (x.mantissa % 2 == 0) (value * unit) (low * unit) (high * unit) den power).map
      fun c ↦ (c, power)
  let (c, p) := found.getD (value * unit / den, 0)
  dropZeros (width c) c p

def decimalText (c : Nat) (p : Int) : String :=
  let digits := Nat.toDigits 10 c
  let point : Int := digits.length + p
  if 0 ≤ p ∧ point ≤ 16 then String.ofList (digits ++ List.replicate p.toNat '0' ++ ['.', '0'])
  else if 0 < point ∧ point ≤ 16 then
    String.ofList (digits.take point.toNat ++ '.' :: digits.drop point.toNat)
  else if -5 < point ∧ point ≤ 0 then
    String.ofList ('0' :: '.' :: List.replicate (-point).toNat '0' ++ digits)
  else
    let exponent := point - 1
    let lead := match digits with
      | [d] => [d]
      | d :: rest => d :: '.' :: rest
      | [] => []
    String.ofList (lead ++ 'e' :: (if exponent < 0 then '-' else '+') ::
      Nat.toDigits 10 exponent.natAbs)

def text (x : Binary64) : String :=
  let magnitude :=
    if x.mantissa = 0 then "0.0"
    else
      let (c, p) := x.shortest
      decimalText c p
  if x.negative then "-" ++ magnitude else magnitude

end Binary64
end Enrollment.Json
