import Mathlib.Data.List.Forall2
import Enrollment.Proofs.Base64
import Enrollment.Proofs.JsonPlaces
import Enrollment.Proofs.Members
import Enrollment.Proofs.Percent
namespace Enrollment.Json

/-!
# What is written is read

A written text is read as the pieces it was escaped into, which stand for the text
again, and an object as its members in their order.
-/

/-- The bytes of some characters. -/
def utf8 (cs : List Char) : Bytes := cs.flatMap String.utf8EncodeChar

@[simp] theorem utf8_nil : utf8 [] = [] := rfl

@[simp] theorem utf8_cons (c : Char) (cs : List Char) :
    utf8 (c :: cs) = String.utf8EncodeChar c ++ utf8 cs := rfl

@[simp] theorem utf8_append (cs ds : List Char) : utf8 (cs ++ ds) = utf8 cs ++ utf8 ds := by
  simp [utf8]

theorem ofText_eq_utf8 (s : String) : Bytes.ofText s = utf8 s.toList := rfl

/-! ### Characters -/

theorem le_toNat_ofNat {n : Nat} (h : 128 ≤ n) (h' : n < 256) : 128 ≤ (UInt8.ofNat n).toNat := by
  rwa [UInt8.toNat_ofNat_of_lt' h']

/-- No byte of a character beyond ASCII is itself an ASCII one. -/
theorem le_of_mem_utf8EncodeChar {c : Char} {b : UInt8} (hc : 128 ≤ c.toNat)
    (hb : b ∈ String.utf8EncodeChar c) : 128 ≤ b.toNat := by
  have hc' : ¬ c.val.toNat ≤ 127 := by
    have hval : 128 ≤ c.val.toNat := hc
    omega
  rw [String.utf8EncodeChar, if_neg hc'] at hb
  split at hb
  · simp only [List.mem_cons, List.not_mem_nil, or_false] at hb
    rcases hb with rfl | rfl <;> exact le_toNat_ofNat (by omega) (by omega)
  · split at hb <;> simp only [List.mem_cons, List.not_mem_nil, or_false] at hb
    · rcases hb with rfl | rfl | rfl <;> exact le_toNat_ofNat (by omega) (by omega)
    · rcases hb with rfl | rfl | rfl | rfl <;> exact le_toNat_ofNat (by omega) (by omega)

theorem utf8EncodeChar_of_lt {c : Char} (h : c.toNat < 128) :
    String.utf8EncodeChar c = [UInt8.ofNat c.toNat] := by
  simpa [Char.ofNat_toNat] using utf8EncodeChar_ascii c.toNat h

theorem utf8_of_ascii {cs : List Char} (h : ∀ c ∈ cs, c.toNat < 128) :
    utf8 cs = cs.map fun c ↦ UInt8.ofNat c.toNat := by
  induction cs with
  | nil => rfl
  | cons c cs ih =>
    rw [List.forall_mem_cons] at h
    rw [utf8_cons, utf8EncodeChar_of_lt h.1, ih h.2]
    rfl

/-- A character that is written as it is. -/
theorem escape_of_printable {c : Char} (hquote : c ≠ '"') (hslash : c ≠ '\\')
    (hlow : 0x20 ≤ c.toNat) : escape c = [c] := by
  fun_cases escape c with
  | case1 => exact absurd rfl hquote
  | case2 => exact absurd rfl hslash
  | case8 _ _ _ _ _ _ _ _ hcontrol => omega
  | case9 => rfl
  | _ => exact absurd hlow (by decide)

theorem quote_of_plain {s : String} (h : ∀ c ∈ s.toList, escape c = [c]) :
    quote s = '"' :: s.toList ++ ['"'] := by
  have hbody : s.toList.flatMap escape = s.toList := by
    rw [List.flatMap_congr h]
    simp
  rw [quote, hbody]

/-- How a character is read back that was written in a string. -/
def pieces (c : Char) : List Piece :=
  if c = '"' ∨ c = '\\' ∨ c = '\x08' ∨ c = '\x0c' ∨ c = '\n' ∨ c = '\r' ∨ c = '\t' ∨
      0x20 ≤ c.toNat then
    (String.utf8EncodeChar c).map .byte
  else [.unit c.toNat]

theorem string?_plains {bs : Bytes} (h : ∀ b ∈ bs, IsPlain b) (rest : Bytes) :
    Reader.string? (bs ++ rest) =
      (Reader.string? rest).map fun (ps, rest) ↦ (bs.map .byte ++ ps, rest) := by
  induction bs with
  | nil => simp
  | cons b bs ih =>
    rw [List.forall_mem_cons] at h
    rw [List.cons_append, string?_plain h.1, ih h.2, Option.map_map]
    rfl

/-- The digits in which a control character is written. -/
theorem codeUnit?_hexDigits : ∀ n, n < 0x20 →
    utf8 [Bytes.hexDigit (n / 16), Bytes.hexDigit (n % 16)] =
        [UInt8.ofNat (Bytes.hexDigit (n / 16)).toNat, UInt8.ofNat (Bytes.hexDigit (n % 16)).toNat] ∧
      Reader.codeUnit? 0x30 0x30 (UInt8.ofNat (Bytes.hexDigit (n / 16)).toNat)
        (UInt8.ofNat (Bytes.hexDigit (n % 16)).toNat) = some n := by
  decide

/-- The bytes of a character that is written as it is. -/
theorem isPlain_of_mem_utf8EncodeChar {c : Char} {b : UInt8} (hquote : c ≠ '"') (hslash : c ≠ '\\')
    (hlow : 0x20 ≤ c.toNat) (hb : b ∈ String.utf8EncodeChar c) : IsPlain b := by
  by_cases hascii : c.toNat < 128
  · rw [utf8EncodeChar_of_lt hascii, List.mem_singleton] at hb
    have hcode : b.toNat = c.toNat := by rw [hb, toNat_byte_of_ascii hascii]
    have hchar {d : Char} (h : b.toNat = d.toNat) : c = d :=
      Char.toNat_inj.mp (hcode.symm.trans h)
    refine ⟨?_, ?_, by omega⟩
    · rintro rfl
      exact hquote (hchar rfl)
    · rintro rfl
      exact hslash (hchar rfl)
  · have hhigh : 128 ≤ b.toNat := le_of_mem_utf8EncodeChar (by omega) hb
    refine ⟨?_, ?_, by omega⟩
    · rintro rfl
      exact absurd hhigh (by decide)
    · rintro rfl
      exact absurd hhigh (by decide)

theorem string?_escape (c : Char) (rest : Bytes) :
    Reader.string? (utf8 (escape c) ++ rest) =
      (Reader.string? rest).map fun (ps, rest) ↦ (pieces c ++ ps, rest) := by
  fun_cases escape c with
  | case8 _ hquote hslash hb hf hn hr ht hlow =>
    obtain ⟨hdigits, hread⟩ := codeUnit?_hexDigits c.toNat hlow
    have hpieces : pieces c = [.unit c.toNat] := by
      rw [pieces, if_neg]
      simp only [not_or]
      exact ⟨hquote, hslash, hb, hf, hn, hr, ht, Nat.not_le.mpr hlow⟩
    have hbytes : utf8 ['\\', 'u', '0', '0', Bytes.hexDigit (c.toNat / 16),
        Bytes.hexDigit (c.toNat % 16)] = [0x5c, 0x75, 0x30, 0x30] ++
          utf8 [Bytes.hexDigit (c.toNat / 16), Bytes.hexDigit (c.toNat % 16)] := rfl
    rw [hbytes, hdigits, hpieces]
    exact string?_unit hread rest
  | case9 _ hquote hslash _ _ _ _ _ hhigh =>
    rw [Nat.not_lt] at hhigh
    have hpieces : pieces c = (String.utf8EncodeChar c).map .byte := by
      rw [pieces, if_pos]
      simp only [hhigh, or_true]
    rw [hpieces, utf8_cons, utf8_nil, List.append_nil]
    exact string?_plains
      (fun b hmem ↦ isPlain_of_mem_utf8EncodeChar hquote hslash hhigh hmem) rest
  | _ => exact string?_escape? rfl rest

/-! ### Texts -/

/-- How a text is read back that was written as a string. -/
def written (s : String) : List Piece := s.toList.flatMap pieces

/-- A text is read up to the quote after it. -/
theorem string?_written (s : String) (rest : Bytes) :
    Reader.string? (utf8 (s.toList.flatMap escape) ++ 0x22 :: rest) = some (written s, rest) := by
  unfold written
  induction s.toList with
  | nil =>
    rw [List.flatMap_nil, utf8_nil, List.nil_append, Reader.string?.eq_def]
    rfl
  | cons c cs ih =>
    rw [List.flatMap_cons, utf8_append, List.append_assoc, string?_escape, ih]
    rfl

theorem pieceBytes?_byte (b : UInt8) (ps : List Piece) :
    pieceBytes? (.byte b :: ps) = (pieceBytes? ps).map (b :: ·) := by
  rw [pieceBytes?]
  cases pieceBytes? ps <;> rfl

theorem pieceBytes?_bytes (bs : Bytes) (ps : List Piece) :
    pieceBytes? (bs.map .byte ++ ps) = (pieceBytes? ps).map (bs ++ ·) := by
  induction bs with
  | nil => simp
  | cons b bs ih =>
    rw [List.map_cons, List.cons_append, pieceBytes?_byte, ih, Option.map_map]
    rfl

/-- A code unit that is no half of a pair stands for a character of its own. -/
theorem pieceBytes?_unit {n : Nat} (hhigh : isHighSurrogate n = false)
    (hlow : isLowSurrogate n = false) (ps : List Piece) :
    pieceBytes? (.unit n :: ps) =
      (pieceBytes? ps).map (String.utf8EncodeChar (Char.ofNat n) ++ ·) := by
  have hsingle : (isHighSurrogate n || isLowSurrogate n) = false := by rw [hhigh, hlow]; rfl
  match ps with
  | [] => simp [pieceBytes?, hsingle]
  | .byte b :: ps =>
    conv_lhs => rw [pieceBytes?.eq_def]
    simp only [hsingle]
    cases pieceBytes? (.byte b :: ps) <;> rfl
  | .unit low :: ps =>
    conv_lhs => rw [pieceBytes?.eq_def]
    simp only [hhigh, hlow]
    cases pieceBytes? (.unit low :: ps) <;> rfl

theorem pieceBytes?_pieces (c : Char) (ps : List Piece) :
    pieceBytes? (pieces c ++ ps) = (pieceBytes? ps).map (String.utf8EncodeChar c ++ ·) := by
  unfold pieces
  split
  · exact pieceBytes?_bytes _ ps
  · rename_i hcontrol
    have hlow : c.toNat < 0x20 := by
      simp only [not_or] at hcontrol
      omega
    have hhigh : isHighSurrogate c.toNat = false := by
      simp only [isHighSurrogate, Bool.and_eq_false_iff, decide_eq_false_iff_not]
      omega
    have hlow : isLowSurrogate c.toNat = false := by
      simp only [isLowSurrogate, Bool.and_eq_false_iff, decide_eq_false_iff_not]
      omega
    rw [List.singleton_append, pieceBytes?_unit hhigh hlow, Char.ofNat_toNat]

/-- The pieces of a written text make the text. -/
theorem text?_written (s : String) : text? (written s) = some s := by
  have hbytes (cs : List Char) : pieceBytes? (cs.flatMap pieces) = some (utf8 cs) := by
    induction cs with
    | nil => rfl
    | cons c cs ih =>
      rw [List.flatMap_cons, pieceBytes?_pieces, ih]
      rfl
  rw [text?, written, hbytes]
  exact Bytes.text?_ofText s

/-! ### Values -/

/-- Wherever the value is written, it is read as this tree. -/
def ReadAs (v : Value) (t : Tree) : Prop :=
  ∀ (n : Nat) (rest : Bytes), 2 * (utf8 v.write).length ≤ n →
    Reader.value? n (utf8 v.write ++ rest) = some (t, rest)

theorem utf8_quote (s : String) :
    utf8 (quote s) = 0x22 :: (utf8 (s.toList.flatMap escape) ++ [0x22]) := by
  rw [quote, List.cons_append, utf8_cons, utf8_append]
  rfl

theorem readAs_string (s : String) : ReadAs (.string s) (.string (written s)) := by
  intro n rest hn
  rw [Value.write, utf8_quote] at hn ⊢
  obtain ⟨n, rfl⟩ : ∃ k, n = k + 1 := ⟨n - 1, by simp at hn; omega⟩
  have hread : Shape n (0x22 :: (utf8 (s.toList.flatMap escape) ++ 0x22 :: rest))
      (.string (written s)) rest :=
    .string (string?_written s rest)
  simpa using hread.value? blanks_nil

theorem ReadAs.writes {v : Value} {t : Tree} (h : ReadAs v t) : Writes (utf8 v.write) t :=
  fun n hn rest _ ↦ h n rest hn

theorem opens_quote (name : String) : Opens (utf8 (quote name) ++ [0x3a]) (written name) :=
  ⟨[], utf8 (name.toList.flatMap escape) ++ [0x22], [], by simp [utf8_quote], blanks_nil,
    blanks_nil, fun rest _ ↦ by simpa using string?_written name rest⟩

/-- The members of an object are written in their order. -/
theorem sequence_writeMembers {ms : List (String × Value)} {ts : Members} (hne : ms ≠ [])
    (h : List.Forall₂ (fun m t ↦ m.1 = t.1 ∧ ReadAs m.2 t.2) ms ts) :
    Sequence WritesMember 0x7d (utf8 (writeMembers ms) ++ [0x7d])
      (ts.map fun t ↦ (written t.1, t.2)) := by
  induction h with
  | nil => exact absurd rfl hne
  | @cons m t ms ts hm hms ih =>
    obtain ⟨name, v⟩ := m
    obtain ⟨name', t⟩ := t
    obtain ⟨rfl : name = name', hread : ReadAs v t⟩ := hm
    have hcolon : String.utf8EncodeChar ':' = [0x3a] := rfl
    have hcomma : String.utf8EncodeChar ',' = [0x2c] := rfl
    have hmember : WritesMember (utf8 (quote name) ++ [0x3a] ++ utf8 v.write) (written name, t) :=
      ⟨_, _, rfl, opens_quote name, hread.writes⟩
    cases hms with
    | nil => simpa [writeMembers, hcolon] using Sequence.last hmember blanks_nil
    | cons hm' hms' =>
      simpa [writeMembers, hcolon, hcomma] using
        Sequence.more hmember blanks_nil (ih (by simp))

/-- An object with members is read as one with the same names. -/
theorem readAs_object {ms : List (String × Value)} {ts : Members} (hne : ms ≠ [])
    (h : List.Forall₂ (fun m t ↦ m.1 = t.1 ∧ ReadAs m.2 t.2) ms ts) :
    ReadAs (.object ms) (.object (ts.map fun t ↦ (written t.1, t.2))) := by
  intro n rest hn
  have hopen : String.utf8EncodeChar '\x7b' = [0x7b] := rfl
  have hclose : String.utf8EncodeChar '\x7d' = [0x7d] := rfl
  have hwrite : utf8 (Value.object ms).write = 0x7b :: (utf8 (writeMembers ms) ++ [0x7d]) := by
    simp [Value.write, hopen, hclose]
  rw [hwrite, List.length_cons] at hn
  obtain ⟨n, rfl⟩ : ∃ k, n = k + 1 := ⟨n - 1, by omega⟩
  have hmembers := (sequence_writeMembers hne h).reads_members n (by omega) rest trivial
  rw [hwrite]
  exact (Shape.members hmembers).value? blanks_nil

/-- A written value is a whole document. -/
theorem ofBytes?_text {v : Value} {t : Tree} (h : ReadAs v t) :
    Tree.ofBytes? (Bytes.ofText v.text) = some t := by
  have hread := h (2 * (utf8 v.write).length + 1) [] (by omega)
  rw [List.append_nil] at hread
  rw [Value.text, ofText_eq_utf8, String.toList_ofList, Tree.ofBytes?, hread]
  rfl

theorem object?_written (ts : Members) :
    Tree.object? (.object (ts.map fun t ↦ (written t.1, t.2))) = some ts := by
  rw [Tree.object?, keyed?]
  induction ts with
  | nil => rfl
  | cons t ts ih => simp [text?_written, ih]

end Enrollment.Json
