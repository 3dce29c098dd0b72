import Enrollment.Json.Reader
import Enrollment.Proofs.Reading
namespace Enrollment.Json

/-!
# Where the parts of a document end

A reader takes some bytes off the front of a document and leaves the rest.  It takes
the same bytes for the same thing whatever comes after them, except that a number has
to end where something stands that cannot belong to it.  So a document is put together
of the texts of its parts, and any part may be written anew where it stands.
-/

section Takes

variable {α : Type}

/-- With something fit after them these bytes are read as this, and what is after them
is left. -/
def Takes (read : Bytes → Option (α × Bytes)) (Fit : Bytes → Prop) (v : Bytes) (a : α) : Prop :=
  ∀ rest, Fit rest → read (v ++ rest) = some (a, rest)

/-- What is read stood in front of what is left. -/
def Sound (read : Bytes → Option (α × Bytes)) (Entry : Bytes → α → Prop) : Prop :=
  ∀ ⦃bs a rest⦄, read bs = some (a, rest) → ∃ v, bs = v ++ rest ∧ Entry v a

/-- Anything may follow. -/
def Anything (_ : Bytes) : Prop := True

/-- If something follows, it does not start with such a byte. -/
def NotNext (p : UInt8 → Bool) (rest : Bytes) : Prop := ∀ b ∈ rest.head?, p b = false

section

variable {p q : UInt8 → Bool} {v rest : Bytes}

theorem NotNext.left (h : NotNext (fun b ↦ p b || q b) rest) : NotNext p rest :=
  fun b hb ↦ (Bool.or_eq_false_iff.mp (h b hb)).1

theorem NotNext.right (h : NotNext (fun b ↦ p b || q b) rest) : NotNext q rest :=
  fun b hb ↦ (Bool.or_eq_false_iff.mp (h b hb)).2

theorem NotNext.append (hv : NotNext p v) (h : NotNext p rest) : NotNext p (v ++ rest) := by
  cases v with
  | nil => exact h
  | cons b v => exact hv

end

end Takes

/-! ### Blanks -/

def Blanks (bs : Bytes) : Prop := ∀ b ∈ bs, Reader.isBlank b

theorem blanks_nil : Blanks [] := nofun

theorem skipBlank_of_head {b : UInt8} (h : Reader.isBlank b = false) (rest : Bytes) :
    Reader.skipBlank (b :: rest) = b :: rest := by
  rw [Reader.skipBlank, List.dropWhile_cons_of_neg (by simp [h])]

theorem skipBlank_append {s : Bytes} (h : Blanks s) (bs : Bytes) :
    Reader.skipBlank (s ++ bs) = Reader.skipBlank bs :=
  List.dropWhile_append_of_pos h

theorem Blanks.skip {s : Bytes} (h : Blanks s) {b : UInt8} (hb : Reader.isBlank b = false)
    (rest : Bytes) : Reader.skipBlank (s ++ b :: rest) = b :: rest := by
  rw [skipBlank_append h, skipBlank_of_head hb]

theorem exists_blanks (bs : Bytes) : ∃ s, Blanks s ∧ bs = s ++ Reader.skipBlank bs :=
  ⟨bs.takeWhile Reader.isBlank, fun _ hb ↦ List.mem_takeWhile_imp hb,
    List.takeWhile_append_dropWhile.symm⟩

theorem skipBlank_idem (bs : Bytes) :
    Reader.skipBlank (Reader.skipBlank bs) = Reader.skipBlank bs := by
  obtain ⟨s, hs, h⟩ := exists_blanks bs
  have hskip := skipBlank_append hs (Reader.skipBlank bs)
  rw [← h] at hskip
  exact hskip.symm

theorem exists_blanks_of_skipBlank {bs rest : Bytes} (h : Reader.skipBlank bs = rest) :
    ∃ s, Blanks s ∧ bs = s ++ rest := by
  subst h
  exact exists_blanks bs

/-! ### Numbers -/

/-- Digits, of which there is at least one. -/
def Digits (v : Bytes) : Prop := v ≠ [] ∧ ∀ b ∈ v, Reader.isDigit b

theorem Digits.takes {v : Bytes} (h : Digits v) :
    Takes Reader.digits? (NotNext Reader.isDigit) v (v.map Reader.digit) := by
  intro rest hrest
  have htaken : (v ++ rest).takeWhile Reader.isDigit = v := takeWhile_run h.2 hrest
  have hleft : (v ++ rest).dropWhile Reader.isDigit = rest := dropWhile_run h.2 hrest
  rw [Reader.digits?, htaken, hleft]
  cases v with
  | nil => exact absurd rfl h.1
  | cons b v => rfl

theorem exists_digits {bs rest : Bytes} {ds : List Nat}
    (h : Reader.digits? bs = some (ds, rest)) :
    ∃ v, Digits v ∧ bs = v ++ rest ∧ ds = v.map Reader.digit := by
  rw [Reader.digits?] at h
  split at h
  · exact nomatch h
  · next hne =>
    cases h
    exact ⟨_, ⟨hne, fun _ hb ↦ List.mem_takeWhile_imp hb⟩,
      List.takeWhile_append_dropWhile.symm, rfl⟩

theorem Digits.head {v : Bytes} (h : Digits v) :
    ∃ b v', v = b :: v' ∧ Reader.isDigit b := by
  cases v with
  | nil => exact absurd rfl h.1
  | cons b v => exact ⟨b, v, rfl, h.2 b (by simp)⟩

/-- A zero in front of another digit. -/
def NeedlessZero (ds : List Nat) : Prop := ds.head? = some 0 ∧ 1 < ds.length

instance (ds : List Nat) : Decidable (NeedlessZero ds) := inferInstanceAs (Decidable (_ ∧ _))

theorem whole?_of_digits? {bs rest : Bytes} {ds : List Nat}
    (h : Reader.digits? bs = some (ds, rest)) :
    Reader.whole? bs = if NeedlessZero ds then none else some (ds, rest) := by
  rw [Reader.whole?, h]
  match ds with
  | [] => rfl
  | [d] => simp [NeedlessZero]
  | 0 :: _ :: _ => simp [NeedlessZero]
  | (d + 1) :: _ :: _ => simp [NeedlessZero]

theorem exists_whole {bs rest : Bytes} {ds : List Nat} (h : Reader.whole? bs = some (ds, rest)) :
    ∃ v, Digits v ∧ bs = v ++ rest ∧ Takes Reader.whole? (NotNext Reader.isDigit) v ds := by
  obtain ⟨⟨ds', rest'⟩, hdigits, -⟩ := Option.bind_eq_some_iff.mp h
  obtain ⟨v, hv, rfl, rfl⟩ := exists_digits hdigits
  rw [whole?_of_digits? hdigits] at h
  split at h
  · exact nomatch h
  · next hzero =>
    cases h
    refine ⟨v, hv, rfl, fun more hmore ↦ ?_⟩
    rw [whole?_of_digits? (hv.takes more hmore), if_neg hzero]

/-- A byte that would go on with a fraction. -/
def inFraction (b : UInt8) : Bool := Reader.isDigit b || b == 0x2e

/-- A byte that would go on with an exponent. -/
def inExponent (b : UInt8) : Bool := Reader.isDigit b || b == 0x65 || b == 0x45

theorem takes_no_fraction : Takes Reader.fraction? (NotNext inFraction) [] [] := by
  intro rest hrest
  unfold Reader.fraction?
  rw [List.nil_append]
  split
  · exact absurd (hrest 0x2e rfl) (by decide)
  · rfl

theorem exists_fraction {bs rest : Bytes} {ds : List Nat}
    (h : Reader.fraction? bs = some (ds, rest)) :
    ∃ v, (∀ b ∈ v.head?, b = 0x2e) ∧ bs = v ++ rest ∧
      Takes Reader.fraction? (NotNext inFraction) v ds := by
  unfold Reader.fraction? at h
  split at h
  · next more =>
    obtain ⟨v, hv, rfl, rfl⟩ := exists_digits h
    exact ⟨0x2e :: v, by simp, rfl, fun rest hrest ↦ hv.takes rest (NotNext.left hrest)⟩
  · cases h
    exact ⟨[], by simp, rfl, takes_no_fraction⟩

/-- The sign of an exponent, which may be missing. -/
def exponentSign (bs : Bytes) : Bool × Bytes :=
  match bs with
  | 0x2d :: rest => (true, rest)
  | 0x2b :: rest => (false, rest)
  | _ => (false, bs)

theorem exponent?_cons (e : UInt8) (bs : Bytes) :
    Reader.exponent? (e :: bs) =
      if e = 0x65 ∨ e = 0x45 then
        (Reader.digits? (exponentSign bs).2).map fun (ds, rest) ↦
          (some (if (exponentSign bs).1 then -(Reader.ofDigits ds : Int)
            else Reader.ofDigits ds), rest)
      else some (none, e :: bs) := rfl

theorem exists_exponentSign (bs : Bytes) :
    ∃ sign, bs = sign ++ (exponentSign bs).2 ∧ ∀ v, Digits v → ∀ rest,
      exponentSign (sign ++ (v ++ rest)) = ((exponentSign bs).1, v ++ rest) := by
  unfold exponentSign
  split
  · exact ⟨[0x2d], rfl, fun v _ rest ↦ rfl⟩
  · exact ⟨[0x2b], rfl, fun v _ rest ↦ rfl⟩
  · refine ⟨[], rfl, fun v hv rest ↦ ?_⟩
    obtain ⟨b, v, rfl, hb⟩ := hv.head
    have hminus : b ≠ 0x2d := by
      rintro rfl
      exact absurd hb (by decide)
    have hplus : b ≠ 0x2b := by
      rintro rfl
      exact absurd hb (by decide)
    simp [hminus, hplus]

theorem takes_no_exponent : Takes Reader.exponent? (NotNext inExponent) [] none := by
  intro rest hrest
  cases rest with
  | nil => rfl
  | cons b rest =>
    have hb : ¬ (b = 0x65 ∨ b = 0x45) := by
      rintro (rfl | rfl) <;> exact absurd (hrest _ rfl) (by decide)
    rw [List.nil_append, exponent?_cons, if_neg hb]

theorem exists_exponent {bs rest : Bytes} {e : Option Int}
    (h : Reader.exponent? bs = some (e, rest)) :
    ∃ v, (∀ b ∈ v.head?, b = 0x65 ∨ b = 0x45) ∧ bs = v ++ rest ∧
      Takes Reader.exponent? (NotNext inExponent) v e := by
  cases bs with
  | nil =>
    cases h
    exact ⟨[], by simp, rfl, takes_no_exponent⟩
  | cons b bs =>
    rw [exponent?_cons] at h
    split at h
    · next hb =>
      obtain ⟨sign, hsign, hagain⟩ := exists_exponentSign bs
      obtain ⟨⟨ds, rest'⟩, hdigits, hread⟩ := Option.map_eq_some_iff.mp h
      obtain ⟨v, hv, hv', rfl⟩ := exists_digits hdigits
      cases hread
      refine ⟨b :: (sign ++ v), by simpa using hb, ?_, fun more hmore ↦ ?_⟩
      · rw [hsign, hv']
        simp
      · have hmore' : NotNext Reader.isDigit more := NotNext.left (NotNext.left hmore)
        rw [List.cons_append, List.append_assoc, exponent?_cons, if_pos hb, hagain v hv more,
          hv.takes more hmore']
        rfl
    · cases h
      exact ⟨[], by simp, rfl, takes_no_exponent⟩

/-- A byte that would go on with a number. -/
def inNumber (b : UInt8) : Bool := inFraction b || inExponent b

/-- The sign of a number, which may be missing. -/
def numberSign (bs : Bytes) : Bool × Bytes :=
  match bs with
  | 0x2d :: rest => (true, rest)
  | _ => (false, bs)

theorem number?_eq (bs : Bytes) :
    Reader.number? bs = (do
      let (whole, more) ← Reader.whole? (numberSign bs).2
      let (fraction, more) ← Reader.fraction? more
      let (exponent, more) ← Reader.exponent? more
      return (⟨(numberSign bs).1, whole, fraction, exponent⟩, more)) := rfl

theorem numberSign_digits {v : Bytes} (hv : Digits v) (rest : Bytes) :
    numberSign (v ++ rest) = (false, v ++ rest) := by
  obtain ⟨b, v, rfl, hb⟩ := hv.head
  have hminus : b ≠ 0x2d := by
    rintro rfl
    exact absurd hb (by decide)
  simp [numberSign, hminus]

theorem exists_numberSign (bs : Bytes) :
    ∃ sign, (∀ b ∈ sign.head?, b = 0x2d) ∧ bs = sign ++ (numberSign bs).2 ∧
      ∀ v, Digits v → ∀ rest,
        numberSign (sign ++ (v ++ rest)) = ((numberSign bs).1, v ++ rest) := by
  unfold numberSign
  split
  · exact ⟨[0x2d], by simp, rfl, fun v _ rest ↦ rfl⟩
  · exact ⟨[], by simp, rfl, fun v hv rest ↦ numberSign_digits hv rest⟩

/-- A number is put together of its parts. -/
theorem Takes.number {negative : Bool} {whole fraction : List Nat} {exponent : Option Int}
    {sign w f e : Bytes} (hsign : ∀ rest, numberSign (sign ++ (w ++ rest)) = (negative, w ++ rest))
    (hw : Takes Reader.whole? (NotNext Reader.isDigit) w whole)
    (hf : Takes Reader.fraction? (NotNext inFraction) f fraction) (hpoint : ∀ b ∈ f.head?, b = 0x2e)
    (he : Takes Reader.exponent? (NotNext inExponent) e exponent)
    (hletter : ∀ b ∈ e.head?, b = 0x65 ∨ b = 0x45) :
    Takes Reader.number? (NotNext inNumber) (sign ++ (w ++ (f ++ e)))
      ⟨negative, whole, fraction, exponent⟩ := by
  intro rest hrest
  have hfraction : NotNext inFraction rest := NotNext.left hrest
  have hexponent : NotNext inExponent rest := NotNext.right hrest
  have hafterFraction : NotNext inFraction (e ++ rest) := by
    refine NotNext.append (fun b hb ↦ ?_) hfraction
    rcases hletter b hb with rfl | rfl <;> rfl
  have hafterWhole : NotNext Reader.isDigit (f ++ (e ++ rest)) := by
    refine NotNext.append (fun b hb ↦ ?_) (NotNext.left hafterFraction)
    rw [hpoint b hb]
    rfl
  simp only [List.append_assoc]
  rw [number?_eq, hsign, hw _ hafterWhole]
  simp only [Option.bind_eq_bind, Option.bind_some, hf _ hafterFraction, he _ hexponent]
  rfl

/-- A number is read as far as bytes follow that belong to numbers. -/
theorem exists_number {bs rest : Bytes} {l : Literal} (h : Reader.number? bs = some (l, rest)) :
    ∃ b v, (b = 0x2d ∨ Reader.isDigit b) ∧ bs = b :: v ++ rest ∧
      Takes Reader.number? (NotNext inNumber) (b :: v) l := by
  rw [number?_eq] at h
  simp only [Option.bind_eq_bind, Option.bind_eq_some_iff, Prod.exists] at h
  obtain ⟨whole, more, hwhole, fraction, more', hfraction, exponent, more'', hexponent, h⟩ := h
  cases h
  obtain ⟨sign, hminus, hsign, hagain⟩ := exists_numberSign bs
  obtain ⟨w, hw, hw', hwtakes⟩ := exists_whole hwhole
  obtain ⟨f, hpoint, rfl, hf⟩ := exists_fraction hfraction
  obtain ⟨e, hletter, rfl, he⟩ := exists_exponent hexponent
  have htakes := Takes.number (hagain w hw) hwtakes hf hpoint he hletter
  obtain ⟨b, w', rfl, hb⟩ := hw.head
  cases sign with
  | nil => exact ⟨b, w' ++ (f ++ e), .inr hb, by rw [hsign, hw']; simp, htakes⟩
  | cons c sign =>
    exact ⟨c, sign ++ (b :: w' ++ (f ++ e)), .inl (hminus c rfl), by rw [hsign, hw']; simp, htakes⟩

/-- A byte that starts a number starts nothing else. -/
theorem number_head {b : UInt8} (h : b = 0x2d ∨ Reader.isDigit b) :
    Reader.isBlank b = false ∧ b ≠ 0x22 ∧ b ≠ 0x5b ∧ b ≠ 0x7b ∧ b ≠ 0x74 ∧ b ≠ 0x66 ∧
      b ≠ 0x6e := by
  have hall : ∀ b : UInt8, (b = 0x2d ∨ Reader.isDigit b) → Reader.isBlank b = false ∧
      b ∉ ([0x22, 0x5b, 0x7b, 0x74, 0x66, 0x6e] : Bytes) := by
    apply forall_byte
    decide +kernel
  simpa using hall b h

/-! ### Strings and words -/

/-- A byte that stands for itself in a string. -/
def IsPlain (b : UInt8) : Prop := b ≠ 0x22 ∧ b ≠ 0x5c ∧ 0x20 ≤ b.toNat

theorem string?_plain {b : UInt8} (h : IsPlain b) (rest : Bytes) :
    Reader.string? (b :: rest) =
      (Reader.string? rest).map fun (ps, rest) ↦ (.byte b :: ps, rest) := by
  have hlow : ¬ b.toNat < 0x20 := Nat.not_lt.mpr h.2.2
  rw [Reader.string?.eq_def]
  simp only [h.1, h.2.1, hlow, if_false]
  cases Reader.string? rest <;> rfl

theorem string?_escape? {e b : UInt8} (h : Reader.escape? e = some b) (rest : Bytes) :
    Reader.string? (0x5c :: e :: rest) =
      (Reader.string? rest).map fun (ps, rest) ↦ (.byte b :: ps, rest) := by
  have hunit : e ≠ 0x75 := by
    rintro rfl
    exact nomatch h
  have hslash : (0x5c : UInt8) ≠ 0x22 := by decide
  rw [Reader.string?.eq_def]
  simp only [hslash, hunit, if_false, if_true, h]
  cases Reader.string? rest <;> rfl

theorem string?_unit {w x y z : UInt8} {n : Nat} (h : Reader.codeUnit? w x y z = some n)
    (rest : Bytes) :
    Reader.string? (0x5c :: 0x75 :: w :: x :: y :: z :: rest) =
      (Reader.string? rest).map fun (ps, rest) ↦ (.unit n :: ps, rest) := by
  have hslash : (0x5c : UInt8) ≠ 0x22 := by decide
  rw [Reader.string?.eq_def]
  simp only [hslash, if_false, if_true, h]
  cases Reader.string? rest <;> rfl

theorem Takes.string_cons {front v : Bytes} {p : Piece} {ps : List Piece}
    (hfront : ∀ more, Reader.string? (front ++ more) =
      (Reader.string? more).map fun (ps, rest) ↦ (p :: ps, rest))
    (h : Takes Reader.string? Anything v ps) :
    Takes Reader.string? Anything (front ++ v) (p :: ps) := by
  intro rest hrest
  rw [List.append_assoc, hfront, h rest hrest]
  rfl

/-- A string ends at its quote, whatever comes after that. -/
theorem exists_string {bs rest : Bytes} {ps : List Piece}
    (h : Reader.string? bs = some (ps, rest)) :
    ∃ v, bs = v ++ rest ∧ Takes Reader.string? Anything v ps := by
  fun_induction Reader.string? bs generalizing ps with
  | case2 more =>
    cases h
    refine ⟨[0x22], rfl, fun rest _ ↦ ?_⟩
    rw [List.singleton_append, Reader.string?.eq_def]
    rfl
  | case4 w x y z more _ ih =>
    simp only [Option.bind_eq_bind, Option.bind_eq_some_iff, Prod.exists] at h
    obtain ⟨code, hcode, ps', rest', hmore, h⟩ := h
    cases h
    obtain ⟨v, rfl, hv⟩ := ih hmore
    exact ⟨[0x5c, 0x75, w, x, y, z] ++ v, rfl, hv.string_cons (string?_unit hcode)⟩
  | case6 e more _ _ ih =>
    simp only [Option.bind_eq_bind, Option.bind_eq_some_iff, Prod.exists] at h
    obtain ⟨b, hb, ps', rest', hmore, h⟩ := h
    cases h
    obtain ⟨v, rfl, hv⟩ := ih hmore
    exact ⟨[0x5c, e] ++ v, rfl, hv.string_cons (string?_escape? hb)⟩
  | case8 b more hquote hslash hlow ih =>
    simp only [Option.bind_eq_bind, Option.bind_eq_some_iff, Prod.exists] at h
    obtain ⟨ps', rest', hmore, h⟩ := h
    cases h
    obtain ⟨v, rfl, hv⟩ := ih hmore
    have hplain : IsPlain b := ⟨hquote, hslash, Nat.not_lt.mp hlow⟩
    exact ⟨[b] ++ v, rfl, hv.string_cons (string?_plain hplain)⟩
  | _ => exact nomatch h

theorem word?_append (letters : Bytes) (t : Tree) (rest : Bytes) :
    Reader.word? letters t (letters ++ rest) = some (t, rest) := by
  have hletters : letters.isPrefixOf (letters ++ rest) = true :=
    List.isPrefixOf_iff_prefix.mpr (List.prefix_append _ _)
  rw [Reader.word?, if_pos hletters, List.drop_left]

theorem exists_word {letters bs rest : Bytes} {t t' : Tree}
    (h : Reader.word? letters t bs = some (t', rest)) : t = t' ∧ bs = letters ++ rest := by
  rw [Reader.word?] at h
  split at h
  · next hletters =>
    cases h
    obtain ⟨more, rfl⟩ := List.isPrefixOf_iff_prefix.mp hletters
    exact ⟨rfl, by rw [List.drop_left]⟩
  · exact nomatch h

end Enrollment.Json
