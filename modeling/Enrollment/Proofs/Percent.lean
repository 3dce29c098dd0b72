import Enrollment.Encoding.Percent
import Enrollment.Proofs.Reading
namespace Enrollment.Percent

/-!
# Percent encoding is read back

The reader takes the pieces of an encoded text one byte at a time.  Nothing that
separates the parts of a longer text stands in an encoded one.
-/

/-- A character that an encoded text may hold. -/
def isWritten (c : Char) : Bool :=
  c == '%' || (c.toNat < 128 && isUnreserved (UInt8.ofNat c.toNat))

theorem hexValue?_upperDigit : ∀ n, n < 16 → Bytes.hexValue? (upperDigit n) = some n := by
  decide

theorem isWritten_upperDigit : ∀ n, n < 16 → isWritten (upperDigit n) = true := by
  decide

theorem isWritten_of_isDigit {c : Char} (h : c.isDigit = true) : isWritten c = true := by
  have hrange := toNat_of_isDigit h
  have hascii : c.toNat < 128 := by omega
  simp [isWritten, isUnreserved, toNat_byte_of_ascii hascii, hascii, hrange]

theorem unreserved_ascii {b : UInt8} (h : isUnreserved b = true) :
    b.toNat < 128 ∧ Char.ofNat b.toNat ≠ '%' := by
  have hrange : b.toNat < 128 ∧ b.toNat ≠ 37 := by
    simp only [isUnreserved, Bool.or_eq_true, Bool.and_eq_true, decide_eq_true_eq,
      beq_iff_eq] at h
    omega
  refine ⟨hrange.1, fun heq ↦ hrange.2 ?_⟩
  have hcode := congrArg Char.toNat heq
  rwa [toNat_ofNat_ascii hrange.1] at hcode

theorem isWritten_of_mem_encodeByte {b : UInt8} {c : Char} (h : c ∈ encodeByte b) :
    isWritten c = true := by
  unfold encodeByte at h
  split at h
  · rename_i hunreserved
    obtain ⟨hascii, -⟩ := unreserved_ascii hunreserved
    rw [List.mem_singleton.mp h, isWritten, toNat_ofNat_ascii hascii, UInt8.ofNat_toNat,
      hunreserved]
    simp [hascii]
  · simp only [List.mem_cons, List.not_mem_nil, or_false] at h
    have hb : b.toNat < 256 := b.toNat_lt
    rcases h with rfl | rfl | rfl
    · rfl
    · exact isWritten_upperDigit _ (by omega)
    · exact isWritten_upperDigit _ (by omega)

theorem isWritten_of_mem_encode {s : String} {c : Char} (h : c ∈ (encode s).toList) :
    isWritten c = true := by
  rw [encode, String.toList_ofList] at h
  obtain ⟨b, -, hc⟩ := List.mem_flatMap.mp h
  exact isWritten_of_mem_encodeByte hc

theorem decodeBytes?_cons {c : Char} (hplain : c ≠ '%') (hascii : c.toNat < 128)
    (rest : List Char) :
    decodeBytes? (c :: rest) = (decodeBytes? rest).map (UInt8.ofNat c.toNat :: ·) := by
  have hread : ¬ (c = '%' ∨ 128 ≤ c.toNat) := by
    rintro (h | h)
    · exact hplain h
    · omega
  rw [decodeBytes?, if_neg hread]
  · cases decodeBytes? rest <;> rfl
  · rintro a b more rfl
    exact absurd rfl hplain

theorem decodeBytes?_escaped {high low : Nat} (hhigh : high < 16) (hlow : low < 16)
    (rest : List Char) :
    decodeBytes? ('%' :: upperDigit high :: upperDigit low :: rest) =
      (decodeBytes? rest).map (UInt8.ofNat (high * 16 + low) :: ·) := by
  rw [decodeBytes?, hexValue?_upperDigit high hhigh, hexValue?_upperDigit low hlow]
  cases decodeBytes? rest <;> rfl

theorem decodeBytes?_encodeByte (b : UInt8) (rest : List Char) :
    decodeBytes? (encodeByte b ++ rest) = (decodeBytes? rest).map (b :: ·) := by
  have hb : b.toNat < 256 := b.toNat_lt
  have hback : UInt8.ofNat b.toNat = b := UInt8.ofNat_toNat
  unfold encodeByte
  split
  · rename_i hunreserved
    obtain ⟨hascii, hplain⟩ := unreserved_ascii hunreserved
    have hcode : (Char.ofNat b.toNat).toNat = b.toNat := toNat_ofNat_ascii hascii
    rw [List.singleton_append, decodeBytes?_cons hplain (hcode.symm ▸ hascii), hcode, hback]
  · have hhigh : b.toNat / 16 < 16 := by omega
    have hlow : b.toNat % 16 < 16 := by omega
    have hwhole : b.toNat / 16 * 16 + b.toNat % 16 = b.toNat := by omega
    rw [List.cons_append, List.cons_append, List.singleton_append,
      decodeBytes?_escaped hhigh hlow, hwhole, hback]

theorem decodeBytes?_flatMap (bs : Bytes) : decodeBytes? (bs.flatMap encodeByte) = some bs := by
  induction bs with
  | nil => rfl
  | cons b bs ih => rw [List.flatMap_cons, decodeBytes?_encodeByte, ih]; rfl

theorem decode?_encode (s : String) : decode? (encode s) = some s := by
  rw [decode?, encode, String.toList_ofList, decodeBytes?_flatMap]
  exact Bytes.text?_ofText s

end Enrollment.Percent
