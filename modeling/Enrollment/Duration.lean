namespace Enrollment

/-!
# Durations

A duration is a whole number of nanoseconds.  Subtraction stops at zero.  Its
text uses the largest of `s`, `ms`, `µs` and `ns` in which it is at least one,
with as many decimals as it needs and no more.
-/

def decimal (n : Nat) : String :=
  String.ofList (Nat.toDigits 10 n)

structure Duration where
  nanos : Nat
deriving DecidableEq

namespace Duration

def second : Nat := 1000000000

def ofNanos (n : Nat) : Duration := ⟨n⟩
def ofMillis (n : Nat) : Duration := ⟨n * 1000000⟩
def ofSecs (n : Nat) : Duration := ⟨n * second⟩

def secs (d : Duration) : Nat := d.nanos / second

def subsecNanos (d : Duration) : Nat := d.nanos % second

def zero : Duration := ⟨0⟩

def isZero (d : Duration) : Bool := d.nanos == 0

instance : Add Duration := ⟨fun a b ↦ ⟨a.nanos + b.nanos⟩⟩
instance : Sub Duration := ⟨fun a b ↦ ⟨a.nanos - b.nanos⟩⟩
instance : LE Duration := ⟨fun a b ↦ a.nanos ≤ b.nanos⟩
instance : LT Duration := ⟨fun a b ↦ a.nanos < b.nanos⟩
instance (a b : Duration) : Decidable (a ≤ b) := inferInstanceAs (Decidable (a.nanos ≤ b.nanos))
instance (a b : Duration) : Decidable (a < b) := inferInstanceAs (Decidable (a.nanos < b.nanos))
instance : Min Duration := ⟨fun a b ↦ if a ≤ b then a else b⟩
instance : Max Duration := ⟨fun a b ↦ if a ≤ b then b else a⟩

@[simp] theorem nanos_add (a b : Duration) : (a + b).nanos = a.nanos + b.nanos := rfl
@[simp] theorem nanos_sub (a b : Duration) : (a - b).nanos = a.nanos - b.nanos := rfl
theorem le_def {a b : Duration} : a ≤ b ↔ a.nanos ≤ b.nanos := Iff.rfl
theorem lt_def {a b : Duration} : a < b ↔ a.nanos < b.nanos := Iff.rfl

/-- Durations are ordered as their nanoseconds. -/
instance : Std.IsLinearOrder Duration where
  le_refl a := Nat.le_refl a.nanos
  le_trans _ _ _ := Nat.le_trans
  le_antisymm _ _ hle hge := congrArg mk (Nat.le_antisymm hle hge)
  le_total a b := Nat.le_total a.nanos b.nanos

instance : Std.LawfulOrderLT Duration where
  lt_iff _ _ := Nat.lt_iff_le_and_not_ge

@[simp] theorem nanos_min (a b : Duration) : (min a b).nanos = min a.nanos b.nanos := by
  show (if a ≤ b then a else b).nanos = _
  by_cases h : a ≤ b
  · rw [if_pos h]
    exact (Nat.min_eq_left (le_def.mp h)).symm
  · rw [if_neg h]
    rw [le_def] at h
    exact (Nat.min_eq_right (Nat.le_of_not_le h)).symm

@[simp] theorem nanos_max (a b : Duration) : (max a b).nanos = max a.nanos b.nanos := by
  show (if a ≤ b then b else a).nanos = _
  by_cases h : a ≤ b
  · rw [if_pos h]
    exact (Nat.max_eq_right (le_def.mp h)).symm
  · rw [if_neg h]
    rw [le_def] at h
    exact (Nat.max_eq_left (Nat.le_of_not_le h)).symm

/-- `n` parts of a unit of `10 ^ places` parts, without needless zeros. -/
def inUnits (n places : Nat) : String :=
  let unit := Nat.pow 10 places
  let whole := decimal (n / unit)
  let digits := Nat.toDigits 10 (n % unit)
  let padded := List.replicate (places - digits.length) '0' ++ digits
  let fraction := (padded.reverse.dropWhile (· == '0')).reverse
  if fraction.isEmpty then whole else whole ++ "." ++ String.ofList fraction

def text (d : Duration) : String :=
  if 1000000000 ≤ d.nanos then inUnits d.nanos 9 ++ "s"
  else if 1000000 ≤ d.nanos then inUnits d.nanos 6 ++ "ms"
  else if 1000 ≤ d.nanos then inUnits d.nanos 3 ++ "µs"
  else decimal d.nanos ++ "ns"

/-- A whole number of units is written without a fraction. -/
theorem inUnits_whole (n places : Nat) : inUnits (n * Nat.pow 10 places) places = decimal n := by
  have hunit : 0 < 10 ^ places := Nat.pow_pos (by decide)
  simp [inUnits, Nat.mul_div_cancel n hunit]

theorem text_ofSecs {n : Nat} (h : 0 < n) : text (ofSecs n) = decimal n ++ "s" := by
  have hnanos : 1000000000 ≤ (ofSecs n).nanos := Nat.le_mul_of_pos_left second h
  have hunits : inUnits (ofSecs n).nanos 9 = decimal n := inUnits_whole n 9
  rw [text, if_pos hnanos, hunits]

example : text (ofSecs 90) = "90s" := by decide +kernel

example : text ⟨1001⟩ = "1.001µs" := by decide +kernel

end Duration
end Enrollment
