import Enrollment.Bytes
import Enrollment.Encoding.Base64
import Enrollment.Proofs.Reading
namespace Enrollment

/-!
# Base64 reads what it writes, and nothing else

Whatever the reader accepts is the form in which the writer writes the result,
and what the writer writes is read back, so each byte string has one text.
-/

namespace Base64

def symbolCode (n : Nat) : Nat :=
  if n < 26 then 65 + n else if n < 52 then 71 + n else if n < 62 then n - 4
  else if n = 62 then 43 else 47

theorem symbol_eq (n : Nat) : symbol n = UInt8.ofNat (symbolCode n) := rfl

theorem eq_symbol_of_value? {b : UInt8} {n : Nat} (h : value? b = some n) :
    n < 64 ∧ b = symbol n := by
  have hcode : n < 64 ∧ b.toNat = symbolCode n := by
    unfold value? at h
    unfold symbolCode
    grind
  refine ⟨hcode.1, ?_⟩
  rw [symbol_eq, ← hcode.2, UInt8.ofNat_toNat]

theorem eq_symbol_of_valueAt {b : UInt8} {offset n : Nat} (h : valueAt b offset = .ok n) :
    n < 64 ∧ b = symbol n := by
  unfold valueAt at h
  split at h
  · rename_i m hm
    obtain rfl := Except.ok.inj h
    exact eq_symbol_of_value? hm
  · exact nomatch h

/-- A last group is made of symbols and, after at least two of them, of pads. -/
theorem eq_of_tailValues {offset at_ : Nat} {group : Bytes} {tail : Tail}
    (h : tailValues offset at_ group = .ok tail) :
    group = tail.values.map symbol ++ List.replicate tail.pads pad ∧
      ∀ n ∈ tail.values, n < 64 := by
  induction group generalizing at_ tail with
  | nil =>
    obtain rfl := Except.ok.inj h
    simp
  | cons b rest ih =>
    unfold tailValues at h
    split at h
    · rename_i hb
      split at h
      · exact nomatch h
      · split at h
        · rename_i hall
          obtain rfl := Except.ok.inj h
          have hrest : rest = List.replicate rest.length pad :=
            List.eq_replicate_of_mem fun x hx ↦ by simpa using List.all_eq_true.mp hall x hx
          simp only [List.map_nil, List.nil_append, List.replicate_succ, hb]
          exact ⟨congrArg (pad :: ·) hrest, by simp⟩
        · exact nomatch h
    · simp only [bind_eq_ok_iff] at h
      obtain ⟨n, hv, more, hrest, htail⟩ := h
      obtain rfl := Except.ok.inj htail
      obtain ⟨hn, rfl⟩ := eq_symbol_of_valueAt hv
      obtain ⟨hgroup, hall⟩ := ih hrest
      refine ⟨by simp [← hgroup], ?_⟩
      simpa using ⟨hn, hall⟩

/-- The byte that two numbers make is written with these numbers, if no bit is lost. -/
theorem encodeBytes_one {a b : Nat} (ha : a < 64) (hb : b < 64) (hbits : b % 16 = 0) :
    encodeBytes [UInt8.ofNat (a * 4 + b / 16)] = [symbol a, symbol b, pad, pad] := by
  have h₁ := UInt8.toNat_ofNat_of_lt' (show a * 4 + b / 16 < 256 by omega)
  simp only [encodeBytes, h₁]
  rw [show (a * 4 + b / 16) / 4 = a by omega, show (a * 4 + b / 16) % 4 * 16 = b by omega]

theorem encodeBytes_two {a b c : Nat} (ha : a < 64) (hb : b < 64) (hc : c < 64)
    (hbits : c % 4 = 0) :
    encodeBytes [UInt8.ofNat (a * 4 + b / 16), UInt8.ofNat (b % 16 * 16 + c / 4)] =
      [symbol a, symbol b, symbol c, pad] := by
  have h₁ := UInt8.toNat_ofNat_of_lt' (show a * 4 + b / 16 < 256 by omega)
  have h₂ := UInt8.toNat_ofNat_of_lt' (show b % 16 * 16 + c / 4 < 256 by omega)
  simp only [encodeBytes, h₁, h₂]
  rw [show (a * 4 + b / 16) / 4 = a by omega,
    show (a * 4 + b / 16) % 4 * 16 + (b % 16 * 16 + c / 4) / 16 = b by omega,
    show (b % 16 * 16 + c / 4) % 16 * 4 = c by omega]

/-- The three bytes that four numbers make are written with these numbers. -/
theorem encodeBytes_three {a b c d : Nat} (ha : a < 64) (hb : b < 64) (hc : c < 64) (hd : d < 64)
    (rest : Bytes) :
    encodeBytes (UInt8.ofNat (a * 4 + b / 16) :: UInt8.ofNat (b % 16 * 16 + c / 4) ::
        UInt8.ofNat (c % 4 * 64 + d) :: rest) =
      symbol a :: symbol b :: symbol c :: symbol d :: encodeBytes rest := by
  have h₁ := UInt8.toNat_ofNat_of_lt' (show a * 4 + b / 16 < 256 by omega)
  have h₂ := UInt8.toNat_ofNat_of_lt' (show b % 16 * 16 + c / 4 < 256 by omega)
  have h₃ := UInt8.toNat_ofNat_of_lt' (show c % 4 * 64 + d < 256 by omega)
  simp only [encodeBytes, h₁, h₂, h₃]
  rw [show (a * 4 + b / 16) / 4 = a by omega,
    show (a * 4 + b / 16) % 4 * 16 + (b % 16 * 16 + c / 4) / 16 = b by omega,
    show (b % 16 * 16 + c / 4) % 16 * 4 + (c % 4 * 64 + d) / 64 = c by omega,
    show (c % 4 * 64 + d) % 64 = d by omega]

/-- Two, three or four numbers make one, two or three bytes, in which no bit of
the numbers is lost. -/
theorem eq_encode_of_tailBytes {offset : Nat} {group : Bytes} {values : List Nat} {pads : Nat}
    {bs : Bytes} (hsmall : ∀ n ∈ values, n < 64) (hfull : values.length + pads = 4)
    (htwo : 2 ≤ values.length) (h : tailBytes offset group values = .ok bs) :
    values.map symbol ++ List.replicate pads pad = encodeBytes bs ∧ bs ≠ [] := by
  match values, hsmall, hfull, htwo, h with
  | [a, b], hsmall, hfull, _, h =>
    have ha : a < 64 := hsmall a (by simp)
    have hb : b < 64 := hsmall b (by simp)
    obtain rfl : pads = 2 := by
      simp only [List.length_cons, List.length_nil] at hfull
      omega
    simp only [tailBytes] at h
    split at h
    · rename_i hbits
      obtain rfl := Except.ok.inj h
      exact ⟨(encodeBytes_one ha hb hbits).symm, List.cons_ne_nil _ _⟩
    · exact nomatch h
  | [a, b, c], hsmall, hfull, _, h =>
    have ha : a < 64 := hsmall a (by simp)
    have hb : b < 64 := hsmall b (by simp)
    have hc : c < 64 := hsmall c (by simp)
    obtain rfl : pads = 1 := by
      simp only [List.length_cons, List.length_nil] at hfull
      omega
    simp only [tailBytes] at h
    split at h
    · rename_i hbits
      obtain rfl := Except.ok.inj h
      exact ⟨(encodeBytes_two ha hb hc hbits).symm, List.cons_ne_nil _ _⟩
    · exact nomatch h
  | [a, b, c, d], hsmall, hfull, _, h =>
    have ha : a < 64 := hsmall a (by simp)
    have hb : b < 64 := hsmall b (by simp)
    have hc : c < 64 := hsmall c (by simp)
    have hd : d < 64 := hsmall d (by simp)
    obtain rfl : pads = 0 := by
      simp only [List.length_cons, List.length_nil] at hfull
      omega
    obtain rfl := Except.ok.inj h
    exact ⟨(encodeBytes_three ha hb hc hd []).symm, List.cons_ne_nil _ _⟩
  | a :: b :: c :: d :: e :: rest, _, hfull, _, _ =>
    simp only [List.length_cons] at hfull
    omega

theorem eq_encode_of_decodeTail {offset : Nat} {group bs : Bytes}
    (h : decodeTail offset group = .ok bs) :
    group = encodeBytes bs ∧ (group ≠ [] → bs ≠ []) := by
  unfold decodeTail at h
  cases htail : tailValues offset 0 group with
  | error fault => simp [htail, bind, Except.bind] at h
  | ok tail =>
    obtain ⟨hgroup, hsmall⟩ := eq_of_tailValues htail
    cases group with
    | nil =>
      obtain rfl := Except.ok.inj htail
      obtain rfl := Except.ok.inj h
      exact ⟨rfl, fun hne ↦ absurd rfl hne⟩
    | cons b rest =>
      by_cases htwo : tail.values.length < 2
      · simp [htail, htwo, bind, Except.bind, throw, throwThe, MonadExceptOf.throw] at h
      · by_cases hfull : tail.values.length + tail.pads = 4
        · have hbytes : tailBytes offset (b :: rest) tail.values = .ok bs := by
            simpa [htail, htwo, hfull, bind, Except.bind, pure, Except.pure] using h
          obtain ⟨hencode, hne⟩ := eq_encode_of_tailBytes hsmall hfull (by omega) hbytes
          exact ⟨hgroup.trans hencode, fun _ ↦ hne⟩
        · simp [htail, htwo, hfull, bind, Except.bind, throw, throwThe, MonadExceptOf.throw] at h

theorem eq_encode_of_decodeGroups {offset : Nat} {text bs : Bytes}
    (h : decodeGroups offset text = .ok bs) :
    text = encodeBytes bs ∧ (text ≠ [] → bs ≠ []) := by
  fun_induction decodeGroups offset text generalizing bs with
  | case1 offset a b c d e rest ih =>
    simp only [bind_eq_ok_iff] at h
    obtain ⟨w, ha, x, hb, y, hc, z, hd, more, hmore, hbytes⟩ := h
    obtain rfl := Except.ok.inj hbytes
    obtain ⟨hw, rfl⟩ := eq_symbol_of_valueAt ha
    obtain ⟨hx, rfl⟩ := eq_symbol_of_valueAt hb
    obtain ⟨hy, rfl⟩ := eq_symbol_of_valueAt hc
    obtain ⟨hz, rfl⟩ := eq_symbol_of_valueAt hd
    rw [encodeBytes_three hw hx hy hz, ← (ih hmore).1]
    exact ⟨rfl, by simp⟩
  | case2 offset group => exact eq_encode_of_decodeTail h

/-- What the reader accepts is what the writer writes, and only nothing stands
for nothing. -/
theorem eq_encode_of_decode {text bs : Bytes} (h : decode text = .ok bs) :
    text = encodeBytes bs ∧ (text ≠ [] → bs ≠ []) := by
  unfold decode at h
  split at h
  · split at h
    · exact nomatch h
    · exact eq_encode_of_decodeGroups h
  · rename_i hlast
    obtain rfl := Except.ok.inj h
    obtain rfl := List.getLast?_eq_none_iff.mp hlast
    exact ⟨rfl, fun hne ↦ absurd rfl hne⟩

/-! ### What is written is read -/

theorem valueAt_symbol {n : Nat} (h : n < 64) (offset : Nat) :
    valueAt (symbol n) offset = .ok n := by
  rw [valueAt, value?_symbol n h]

theorem tailValues_symbol {n : Nat} (h : n < 64) (offset at_ : Nat) (rest : Bytes) :
    tailValues offset at_ (symbol n :: rest) = do
      let tail ← tailValues offset (at_ + 1) rest
      return ⟨n :: tail.values, tail.pads⟩ := by
  rw [tailValues, if_neg (symbol_ne_pad n h), valueAt_symbol h]
  rfl

/-- A complete last group stands for the numbers of its symbols. -/
theorem tailValues_symbols {values : List Nat} (hsmall : ∀ n ∈ values, n < 64)
    (offset pads at_ : Nat) (htwo : 2 ≤ at_ + values.length) :
    tailValues offset at_ (values.map symbol ++ List.replicate pads pad) = .ok ⟨values, pads⟩ := by
  induction values generalizing at_ with
  | nil =>
    cases pads with
    | zero => rfl
    | succ pads =>
      have hlate : ¬ at_ < 2 := by
        simp only [List.length_nil] at htwo
        omega
      simp [List.replicate_succ, tailValues, hlate]
  | cons n values ih =>
    have hn : n < 64 := hsmall n (by simp)
    have hrest := ih (fun m hm ↦ hsmall m (by simp [hm])) (at_ + 1) (by
      simp only [List.length_cons] at htwo
      omega)
    rw [List.map_cons, List.cons_append, tailValues_symbol hn, hrest]
    rfl

theorem decodeTail_symbols {values : List Nat} {pads : Nat} (hsmall : ∀ n ∈ values, n < 64)
    (htwo : 2 ≤ values.length) (hfull : values.length + pads = 4) (offset : Nat) :
    decodeTail offset (values.map symbol ++ List.replicate pads pad) =
      tailBytes offset (values.map symbol ++ List.replicate pads pad) values := by
  have htail := tailValues_symbols hsmall offset pads 0 (by omega)
  have hshort : ¬ values.length < 2 := by omega
  simp [decodeTail, htail, hshort, hfull, bind, Except.bind]

theorem ofNat_eq {n : Nat} {b : UInt8} (h : n = b.toNat) : UInt8.ofNat n = b := by
  rw [h, UInt8.ofNat_toNat]

/-- The four numbers of three bytes, and the bytes that they make. -/
theorem bytes_of_three (a b c : UInt8) :
    UInt8.ofNat (a.toNat / 4 * 4 + (a.toNat % 4 * 16 + b.toNat / 16) / 16) = a ∧
      UInt8.ofNat ((a.toNat % 4 * 16 + b.toNat / 16) % 16 * 16 +
        (b.toNat % 16 * 4 + c.toNat / 64) / 4) = b ∧
      UInt8.ofNat ((b.toNat % 16 * 4 + c.toNat / 64) % 4 * 64 + c.toNat % 64) = c := by
  have hb := b.toNat_lt
  have hc := c.toNat_lt
  exact ⟨ofNat_eq (by omega), ofNat_eq (by omega), ofNat_eq (by omega)⟩

/-- A last group is read as the bytes it was written for. -/
theorem decodeTail_encodeBytes (offset : Nat) {group : Bytes} (h : group.length ≤ 3) :
    decodeTail offset (encodeBytes group) = .ok group := by
  match group, h with
  | [], _ => rfl
  | [a], _ =>
    have ha := a.toNat_lt
    have hsmall : ∀ n ∈ [a.toNat / 4, a.toNat % 4 * 16], n < 64 := by
      simp only [List.forall_mem_cons, List.not_mem_nil, false_implies, implies_true, and_true]
      omega
    have hread : decodeTail offset (encodeBytes [a]) = _ :=
      @decodeTail_symbols _ 2 hsmall (by simp) rfl offset
    have hbits : a.toNat % 4 * 16 % 16 = 0 := by omega
    have hbyte : UInt8.ofNat (a.toNat / 4 * 4 + a.toNat % 4 * 16 / 16) = a := ofNat_eq (by omega)
    rw [hread, tailBytes, if_pos hbits, hbyte]
  | [a, b], _ =>
    have ha := a.toNat_lt
    have hb := b.toNat_lt
    have hsmall : ∀ n ∈ [a.toNat / 4, a.toNat % 4 * 16 + b.toNat / 16, b.toNat % 16 * 4],
        n < 64 := by
      simp only [List.forall_mem_cons, List.not_mem_nil, false_implies, implies_true, and_true]
      omega
    have hread : decodeTail offset (encodeBytes [a, b]) = _ :=
      @decodeTail_symbols _ 1 hsmall (by simp) rfl offset
    have hbits : b.toNat % 16 * 4 % 4 = 0 := by omega
    obtain ⟨hfirst, hsecond, -⟩ := bytes_of_three a b 0
    simp only [UInt8.toNat_zero, Nat.zero_div, Nat.add_zero] at hsecond
    rw [hread, tailBytes, if_pos hbits, hfirst, hsecond]
  | [a, b, c], _ =>
    have ha := a.toNat_lt
    have hb := b.toNat_lt
    have hc := c.toNat_lt
    have hsmall : ∀ n ∈ [a.toNat / 4, a.toNat % 4 * 16 + b.toNat / 16,
        b.toNat % 16 * 4 + c.toNat / 64, c.toNat % 64], n < 64 := by
      simp only [List.forall_mem_cons, List.not_mem_nil, false_implies, implies_true, and_true]
      omega
    have hread : decodeTail offset (encodeBytes [a, b, c]) = _ :=
      @decodeTail_symbols _ 0 hsmall (by simp) rfl offset
    obtain ⟨hfirst, hsecond, hthird⟩ := bytes_of_three a b c
    rw [hread, tailBytes, hfirst, hsecond, hthird]

theorem encodeBytes_eq_nil_iff {bs : Bytes} : encodeBytes bs = [] ↔ bs = [] := by
  fun_cases encodeBytes bs <;> simp

theorem decodeGroups_encodeBytes (offset : Nat) (bs : Bytes) :
    decodeGroups offset (encodeBytes bs) = .ok bs := by
  fun_induction encodeBytes bs generalizing offset with
  | case1 a b c rest ih =>
    have hb := b.toNat_lt
    have hc := c.toNat_lt
    cases hmore : encodeBytes rest with
    | nil =>
      obtain rfl := encodeBytes_eq_nil_iff.mp hmore
      have hlast : [a, b, c].length ≤ 3 := by simp
      exact decodeTail_encodeBytes offset hlast
    | cons e more =>
      obtain ⟨hfirst, hsecond, hthird⟩ := bytes_of_three a b c
      have hrest : decodeGroups (offset + 4) (e :: more) = .ok rest := hmore ▸ ih (offset + 4)
      have ha := a.toNat_lt
      rw [decodeGroups, valueAt_symbol (by omega), valueAt_symbol (by omega),
        valueAt_symbol (by omega), valueAt_symbol (by omega), hrest]
      simp only [bind, Except.bind, pure, Except.pure, hfirst, hsecond, hthird]
  | case2 a b =>
    have hlast : [a, b].length ≤ 3 := by simp
    exact decodeTail_encodeBytes offset hlast
  | case3 a =>
    have hlast : [a].length ≤ 3 := by simp
    exact decodeTail_encodeBytes offset hlast
  | case4 => rfl

theorem length_encodeBytes_mod (bs : Bytes) : (encodeBytes bs).length % 4 = 0 := by
  fun_induction encodeBytes bs with
  | case1 a b c rest ih =>
    simp only [List.length_cons]
    omega
  | _ => simp

/-- The text of some bytes is read as these bytes. -/
theorem decode_encodeBytes (bs : Bytes) : decode (encodeBytes bs) = .ok bs := by
  cases hlast : (encodeBytes bs).getLast? with
  | none =>
    obtain rfl := encodeBytes_eq_nil_iff.mp (List.getLast?_eq_none_iff.mp hlast)
    rfl
  | some b =>
    have hwhole : ¬ (encodeBytes bs).length % 4 = 1 := by
      rw [length_encodeBytes_mod]
      decide
    simp only [decode, hlast, hwhole, false_and, if_false]
    exact decodeGroups_encodeBytes 0 bs

/-! ### Base64 as text -/

theorem symbol_lt (n : Nat) : (symbol n).toNat < 128 := by
  rw [symbol_eq, UInt8.toNat_ofNat']
  unfold symbolCode
  grind

theorem encodeBytes_lt {bs : Bytes} : ∀ b ∈ encodeBytes bs, b.toNat < 128 := by
  have hpad : pad.toNat < 128 := by decide
  fun_induction encodeBytes bs with
  | case1 a b c rest ih => simpa [symbol_lt] using ih
  | case2 a b => simpa [symbol_lt] using hpad
  | case3 a => simpa [symbol_lt] using hpad
  | case4 => simp

theorem isSome_value?_symbol (n : Nat) : (value? (symbol n)).isSome := by
  rcases Nat.lt_or_ge n 64 with h | h
  · rw [value?_symbol n h]
    rfl
  · have hlast : symbol n = symbol 63 := by
      rw [symbol_eq, symbol_eq]
      congr 1
      unfold symbolCode
      grind
    rw [hlast]
    rfl

/-- Every byte that is written is a symbol or a pad. -/
theorem symbol_or_pad_of_mem {bs : Bytes} {b : UInt8} (h : b ∈ encodeBytes bs) :
    (value? b).isSome ∨ b = pad := by
  fun_induction encodeBytes bs with
  | case1 x y z rest ih =>
    simp only [List.mem_cons] at h
    rcases h with rfl | rfl | rfl | rfl | h
    · exact .inl (isSome_value?_symbol _)
    · exact .inl (isSome_value?_symbol _)
    · exact .inl (isSome_value?_symbol _)
    · exact .inl (isSome_value?_symbol _)
    · exact ih h
  | case2 x y =>
    simp only [List.mem_cons, List.not_mem_nil, or_false] at h
    rcases h with rfl | rfl | rfl | rfl
    · exact .inl (isSome_value?_symbol _)
    · exact .inl (isSome_value?_symbol _)
    · exact .inl (isSome_value?_symbol _)
    · exact .inr rfl
  | case3 x =>
    simp only [List.mem_cons, List.not_mem_nil, or_false] at h
    rcases h with rfl | rfl | rfl | rfl
    · exact .inl (isSome_value?_symbol _)
    · exact .inl (isSome_value?_symbol _)
    · exact .inr rfl
    · exact .inr rfl
  | case4 => exact nomatch h

theorem flatMap_utf8_of_ascii {symbols : Bytes} (h : ∀ b ∈ symbols, b.toNat < 128) :
    (symbols.map fun b ↦ Char.ofNat b.toNat).flatMap String.utf8EncodeChar = symbols := by
  induction symbols with
  | nil => rfl
  | cons b symbols ih =>
    have hb := utf8EncodeChar_ascii b.toNat (h b (by simp))
    rw [UInt8.ofNat_toNat] at hb
    rw [List.map_cons, List.flatMap_cons, hb, ih fun x hx ↦ h x (by simp [hx])]
    rfl

/-- What holds of all symbols and of the pad holds of every character of a text. -/
theorem forall_mem_encode {p : Char → Prop}
    (h : ∀ n, n < 256 → (value? (UInt8.ofNat n)).isSome ∨ n = 61 → p (Char.ofNat n)) {bs : Bytes}
    {c : Char} (hc : c ∈ (encode bs).toList) : p c := by
  rw [encode, String.toList_ofList] at hc
  obtain ⟨b, hb, rfl⟩ := List.mem_map.mp hc
  refine h b.toNat b.toNat_lt ?_
  rw [UInt8.ofNat_toNat]
  exact (symbol_or_pad_of_mem hb).imp_right fun hpad ↦ congrArg UInt8.toNat hpad

theorem ofText_encode (bs : Bytes) : Bytes.ofText (encode bs) = encodeBytes bs := by
  have hascii : ∀ b ∈ encodeBytes bs, b.toNat < 128 := encodeBytes_lt
  simpa [encode, Bytes.ofText] using flatMap_utf8_of_ascii hascii

/-- A text that is read as some bytes is the canonical text of these bytes. -/
theorem eq_encode_of_decode_ofText {text : String} {bs : Bytes}
    (h : decode (Bytes.ofText text) = .ok bs) : text = encode bs ∧ (text ≠ "" → bs ≠ []) := by
  obtain ⟨htext, hne⟩ := eq_encode_of_decode h
  refine ⟨Bytes.ofText_injective (htext.trans (ofText_encode bs).symm), ?_⟩
  intro hnonempty
  apply hne
  intro hnil
  exact hnonempty (Bytes.ofText_injective hnil)

theorem decode_ofText_encode (bs : Bytes) : decode (Bytes.ofText (encode bs)) = .ok bs := by
  rw [ofText_encode, decode_encodeBytes]

theorem encode_ne_empty {bs : Bytes} (h : bs ≠ []) : encode bs ≠ "" := by
  intro hempty
  have hnil : encodeBytes bs = [] := by
    rw [← ofText_encode, hempty]
    rfl
  exact h (encodeBytes_eq_nil_iff.mp hnil)

end Base64
end Enrollment
