import Enrollment.Json.Record
import Enrollment.Proofs.JsonText
namespace Enrollment.Json

/-!
# Whole numbers

A whole number that sixty-four bits hold, signed or not, is read from its decimal
digits, and what it is read as is written with the same digits again.
-/

/-! ### Digits -/

/-- The value of each decimal digit of a number. -/
def decimalDigits (m : Nat) : List Nat :=
  (Nat.toDigits 10 m).map fun c ↦ c.toNat - '0'.toNat

theorem le_ofDigitChars (cs : List Char) (n : Nat) : n ≤ Nat.ofDigitChars 10 cs n := by
  rw [Nat.ofDigitChars_eq_ofDigitChars_zero]
  have hpos : 0 < 10 ^ cs.length := Nat.pow_pos (by decide)
  exact Nat.le_add_right_of_le (Nat.le_mul_of_pos_left n hpos)

/-- As long as the number fits, all its digits are taken. -/
theorem appendDigits_of_lt {cs : List Char} {n : Nat}
    (h : Nat.ofDigitChars 10 cs n < Nat.pow 2 64) :
    appendDigits n (cs.map fun c ↦ c.toNat - '0'.toNat) = (Nat.ofDigitChars 10 cs n, 0) := by
  induction cs generalizing n with
  | nil => rfl
  | cons c cs ih =>
    rw [Nat.ofDigitChars_cons] at h ⊢
    have hfits : 10 * n + (c.toNat - '0'.toNat) < Nat.pow 2 64 :=
      Nat.lt_of_le_of_lt (le_ofDigitChars cs _) h
    rw [List.map_cons, appendDigits, if_pos hfits]
    exact ih h

theorem appendDigits_decimalDigits {m : Nat} (h : m < Nat.pow 2 64) :
    appendDigits 0 (decimalDigits m) = (m, 0) := by
  have hvalue : Nat.ofDigitChars 10 (Nat.toDigits 10 m) 0 = m := Nat.ofDigitChars_ten_toDigits
  have happend := appendDigits_of_lt (hvalue.symm ▸ h)
  rwa [hvalue] at happend

theorem head?_toDigits {m : Nat} (h : 0 < m) :
    ∃ d, 0 < d ∧ d < 10 ∧ (Nat.toDigits 10 m).head? = some d.digitChar := by
  induction m using Nat.strongRecOn with
  | _ m ih =>
    by_cases hm : m < 10
    · exact ⟨m, h, hm, by rw [Nat.toDigits_of_lt_base hm]; rfl⟩
    · obtain ⟨d, hpos, hd, hhead⟩ := ih (m / 10) (by omega) (by omega)
      refine ⟨d, hpos, hd, ?_⟩
      rw [Nat.toDigits_of_base_le (by decide) (by omega), List.head?_append, hhead]
      rfl

theorem not_needlessZero_decimalDigits (m : Nat) : ¬ NeedlessZero (decimalDigits m) := by
  rintro ⟨hzero, hlength⟩
  rcases Nat.eq_zero_or_pos m with rfl | hm
  · exact absurd hlength (by decide)
  · obtain ⟨d, hpos, hd, hhead⟩ := head?_toDigits hm
    rw [decimalDigits, List.head?_map, hhead, Option.map_some, Nat.toNat_digitChar_of_lt_ten hd]
      at hzero
    simp at hzero
    omega

/-! ### Numbers as they are written -/

/-- The decimal digits of a number, as bytes. -/
def digitBytes (m : Nat) : Bytes := (Nat.toDigits 10 m).map fun c ↦ UInt8.ofNat c.toNat

theorem isDigit_of_mem_toDigits {m : Nat} {c : Char} (h : c ∈ Nat.toDigits 10 m) : c.isDigit :=
  Nat.isDigit_of_mem_toDigits (by decide) (by decide) h

theorem digits_digitBytes (m : Nat) : Digits (digitBytes m) := by
  refine ⟨by simp [digitBytes, Nat.toDigits_ne_nil], fun b hb ↦ ?_⟩
  obtain ⟨c, hc, rfl⟩ := List.mem_map.mp hb
  have hdigit := isDigit_of_mem_toDigits hc
  have hrange := toNat_of_isDigit hdigit
  simp only [Reader.isDigit, toNat_byte_of_isDigit hdigit, Bool.and_eq_true,
    decide_eq_true_eq]
  exact hrange

theorem map_digit_digitBytes (m : Nat) :
    (digitBytes m).map Reader.digit = decimalDigits m := by
  rw [digitBytes, List.map_map]
  refine List.map_congr_left fun c hc ↦ ?_
  exact congrArg (· - 48) (toNat_byte_of_isDigit (isDigit_of_mem_toDigits hc))

theorem takes_digitBytes (m : Nat) :
    Takes Reader.whole? (NotNext Reader.isDigit) (digitBytes m) (decimalDigits m) := by
  intro rest hrest
  have hread := (digits_digitBytes m).takes rest hrest
  rw [map_digit_digitBytes] at hread
  rw [whole?_of_digits? hread, if_neg (not_needlessZero_decimalDigits m)]

theorem utf8_toDigits (m : Nat) : utf8 (Nat.toDigits 10 m) = digitBytes m := by
  refine utf8_of_ascii fun c hc ↦ ?_
  have hrange := toNat_of_isDigit (isDigit_of_mem_toDigits hc)
  omega

/-- How a whole number is read that is written in decimal digits. -/
def wholeLiteral (n : Int) : Literal := ⟨decide (n < 0), decimalDigits n.natAbs, [], none⟩

theorem text_int (n : Int) : (Value.int n).text = toString n := by
  rw [Value.text, Value.write]
  cases n with
  | ofNat m =>
    have hnat : ¬ Int.ofNat m < 0 := Int.not_lt.mpr (Int.natCast_nonneg m)
    rw [if_neg hnat]
    exact Nat.repr_eq_ofList_toDigits.symm
  | negSucc m =>
    rw [if_pos (Int.negSucc_lt_zero m), String.ofList_append]
    exact congrArg ("-" ++ ·) Nat.repr_eq_ofList_toDigits.symm

/-- Neither a sign nor a digit has to be escaped. -/
theorem escape_of_mem_toString {n : Int} {c : Char} (h : c ∈ (toString n).toList) :
    escape c = [c] := by
  rw [← text_int, Value.text, String.toList_ofList, Value.write, List.mem_append] at h
  rcases h with hsign | hdigit
  · split at hsign
    · obtain rfl := List.mem_singleton.mp hsign
      rfl
    · exact absurd hsign List.not_mem_nil
  · have hrange := toNat_of_isDigit (isDigit_of_mem_toDigits hdigit)
    refine escape_of_printable ?_ ?_ (by omega)
    · rintro rfl
      exact absurd hrange (by decide)
    · rintro rfl
      exact absurd hrange (by decide)

/-- The sign of a number, as bytes. -/
def signBytes (n : Int) : Bytes := if n < 0 then [0x2d] else []

theorem ofText_int (n : Int) :
    Bytes.ofText (toString n) = signBytes n ++ digitBytes n.natAbs := by
  rw [← text_int, ofText_eq_utf8, Value.text, String.toList_ofList, Value.write, utf8_append,
    utf8_toDigits, signBytes]
  split <;> rfl

theorem takes_int (n : Int) :
    Takes Reader.number? (NotNext inNumber) (Bytes.ofText (toString n)) (wholeLiteral n) := by
  have hsign (rest : Bytes) : numberSign (signBytes n ++ (digitBytes n.natAbs ++ rest)) =
      (decide (n < 0), digitBytes n.natAbs ++ rest) := by
    by_cases hn : n < 0
    · rw [signBytes, if_pos hn, decide_eq_true hn]
      rfl
    · rw [signBytes, if_neg hn, decide_eq_false hn]
      exact numberSign_digits (digits_digitBytes _) rest
  have htakes := Takes.number hsign (takes_digitBytes n.natAbs) takes_no_fraction nofun
    takes_no_exponent nofun
  rw [List.append_nil, List.append_nil] at htakes
  rw [ofText_int]
  exact htakes

/-- The number is read from its decimal digits wherever they stand. -/
theorem writes_int (n : Int) : Writes (Bytes.ofText (toString n)) (.number (wholeLiteral n)) := by
  have htakes := takes_int n
  cases hbytes : Bytes.ofText (toString n) with
  | nil =>
    rw [ofText_int, List.append_eq_nil_iff] at hbytes
    exact absurd hbytes.2 (digits_digitBytes _).1
  | cons b v =>
    rw [hbytes] at htakes
    exact writes_number blanks_nil htakes

theorem value?_wholeLiteral {n : Int} (hlow : -(Nat.pow 2 63 : Int) ≤ n)
    (hhigh : n < (Nat.pow 2 64 : Int)) : (wholeLiteral n).value? = some (.int n) := by
  have hless : Nat.pow 2 63 < Nat.pow 2 64 := by decide
  have hfits : n.natAbs < Nat.pow 2 64 := by omega
  rw [Literal.value?, wholeLiteral, appendDigits_decimalDigits hfits]
  by_cases hn : n < 0
  · have hrange : 0 < n.natAbs ∧ n.natAbs ≤ Nat.pow 2 63 := by omega
    have habs : -(n.natAbs : Int) = n := by omega
    simp only [List.isEmpty_nil, Option.isNone_none, beq_self_eq_true, Bool.and_self, if_true,
      decide_eq_true hn, if_pos hrange, habs]
  · have habs : (n.natAbs : Int) = n := by omega
    simp only [List.isEmpty_nil, Option.isNone_none, beq_self_eq_true, Bool.and_self, if_true,
      decide_eq_false hn, if_false, habs, Bool.false_eq_true]

/-- What is read is the number, whose text has the same digits again. -/
theorem anyText?_wholeLiteral {n : Int} (hlow : -(Nat.pow 2 63 : Int) ≤ n)
    (hhigh : n < (Nat.pow 2 64 : Int)) (room : Nat) :
    Tree.anyText? room (.number (wholeLiteral n)) = some (some (toString n)) := by
  rw [Tree.anyText?, Tree.value?, value?_wholeLiteral hlow hhigh, ← text_int]
  rfl

end Enrollment.Json
