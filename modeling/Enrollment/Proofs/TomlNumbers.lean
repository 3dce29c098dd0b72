import Enrollment.Proofs.Reading
import Enrollment.Toml.Statement
namespace Enrollment.Toml

/-!
# How a number may be written

Digits of a base, with single underscores between them, make a number; a sign or the
mark of a base may stand in front.  The reader takes these texts and no others.
-/

/-! ### Digits -/

/-- A digit of this value; those beyond nine are letters of either case. -/
def IsDigit (base d : Nat) (c : Char) : Prop :=
  d < base ∧ (c = Nat.digitChar d ∨ c = (Nat.digitChar d).toUpper)

instance (base d : Nat) (c : Char) : Decidable (IsDigit base d c) :=
  inferInstanceAs (Decidable (_ ∧ _))

def ofDigits (base : Nat) (ds : List Nat) : Nat := ds.foldl (fun n d ↦ base * n + d) 0

/-- Digits, between any two of which an underscore may stand. -/
inductive DigitsText (base : Nat) : List Nat → List Char → Prop
  | last {d : Nat} {c : Char} (h : IsDigit base d c) : DigitsText base [d] [c]
  | next {d : Nat} {c : Char} {ds : List Nat} {cs : List Char} (h : IsDigit base d c)
      (hrest : DigitsText base ds cs) : DigitsText base (d :: ds) (c :: cs)
  | apart {d : Nat} {c : Char} {ds : List Nat} {cs : List Char} (h : IsDigit base d c)
      (hrest : DigitsText base ds cs) : DigitsText base (d :: ds) (c :: '_' :: cs)

/-- What may follow a digit, as far as it belongs to the same number. -/
inductive MoreDigits (base : Nat) : List Nat → List Char → Prop
  | none : MoreDigits base [] []
  | here {ds : List Nat} {cs : List Char} (h : DigitsText base ds cs) : MoreDigits base ds cs
  | apart {ds : List Nat} {cs : List Char} (h : DigitsText base ds cs) :
      MoreDigits base ds ('_' :: cs)

/-- After a value comes the end of its line, a blank or a comment, or what goes on with
a table around it. -/
def EndsValue (rest : List Char) : Prop :=
  ∀ c ∈ rest.head?, c ∈ [' ', '\t', '#', '\n', '\r', ',', '\x7d']

theorem hexValue?_of_isDigit {base d : Nat} {c : Char} (hbase : base ≤ 16) (h : IsDigit base d c) :
    Bytes.hexValue? c = some d := by
  have hall : ∀ d, d < 16 → Bytes.hexValue? (Nat.digitChar d) = some d ∧
      Bytes.hexValue? (Nat.digitChar d).toUpper = some d := by
    decide
  obtain ⟨hd, rfl | rfl⟩ := h
  · exact (hall d (by omega)).1
  · exact (hall d (by omega)).2

theorem toNat_of_hexValue? {c : Char} {d : Nat} (h : Bytes.hexValue? c = some d) :
    c.toNat < 128 := by
  have hle {c last : Char} (h : c ≤ last) (hlast : last.toNat < 128) : c.toNat < 128 :=
    Nat.lt_of_le_of_lt (UInt32.le_iff_toNat_le.mp h) hlast
  unfold Bytes.hexValue? at h
  split_ifs at h with hdecimal hlower hupper
  · exact hle hdecimal.2 (by decide)
  · exact hle hlower.2 (by decide)
  · exact hle hupper.2 (by decide)

theorem isDigit_of_hexValue? {c : Char} {d : Nat} (h : Bytes.hexValue? c = some d) :
    IsDigit 16 d c := by
  have hall : ∀ n, n < 128 → ∀ d ∈ Bytes.hexValue? (Char.ofNat n), IsDigit 16 d (Char.ofNat n) := by
    decide +kernel
  have hread := hall c.toNat (toNat_of_hexValue? h) d
  rw [Char.ofNat_toNat] at hread
  exact hread h

theorem digitValue?_eq_some_iff {base d : Nat} {c : Char} (hbase : base ≤ 16) :
    Reader.digitValue? base c = some d ↔ IsDigit base d c := by
  rw [Reader.digitValue?, Option.filter_eq_some_iff, decide_eq_true_eq]
  constructor
  · rintro ⟨h, hd⟩
    exact ⟨hd, (isDigit_of_hexValue? h).2⟩
  · intro h
    exact ⟨hexValue?_of_isDigit hbase h, h.1⟩

theorem not_underscore_of_isDigit {base d : Nat} {c : Char} (hbase : base ≤ 16)
    (h : IsDigit base d c) : c ≠ '_' := by
  rintro rfl
  exact nomatch hexValue?_of_isDigit hbase h

theorem digits_cons {base d : Nat} {c : Char} (hbase : base ≤ 16) (h : IsDigit base d c)
    (rest : List Char) :
    Reader.digits base (c :: rest) =
      (d :: (Reader.digits base rest).1, (Reader.digits base rest).2) := by
  have hplain := not_underscore_of_isDigit hbase h
  rw [Reader.digits]
  · rw [(digitValue?_eq_some_iff hbase).mpr h]
  · rintro c' rest' rfl
    exact absurd rfl hplain

theorem digits_underscore {base d : Nat} {c : Char} (hbase : base ≤ 16) (h : IsDigit base d c)
    (rest : List Char) :
    Reader.digits base ('_' :: c :: rest) = Reader.digits base (c :: rest) := by
  rw [digits_cons hbase h, Reader.digits, (digitValue?_eq_some_iff hbase).mpr h]

theorem digits_endsValue {base : Nat} {rest : List Char} (h : EndsValue rest) :
    Reader.digits base rest = ([], rest) := by
  cases rest with
  | nil => rfl
  | cons c rest =>
    have hc := h c rfl
    simp only [List.mem_cons, List.not_mem_nil, or_false] at hc
    rcases hc with rfl | rfl | rfl | rfl | rfl | rfl | rfl <;> rfl

theorem DigitsText.head {base : Nat} {ds : List Nat} {cs : List Char} (h : DigitsText base ds cs) :
    ∃ d ds' c more, ds = d :: ds' ∧ cs = c :: more ∧ IsDigit base d c := by
  cases h with
  | last h => exact ⟨_, _, _, _, rfl, rfl, h⟩
  | next h => exact ⟨_, _, _, _, rfl, rfl, h⟩
  | apart h => exact ⟨_, _, _, _, rfl, rfl, h⟩

theorem digits_text {base : Nat} {ds : List Nat} {cs rest : List Char} (hbase : base ≤ 16)
    (h : DigitsText base ds cs) (hrest : EndsValue rest) :
    Reader.digits base (cs ++ rest) = (ds, rest) := by
  induction h with
  | last h => rw [List.singleton_append, digits_cons hbase h, digits_endsValue hrest]
  | next h _ ih => rw [List.cons_append, digits_cons hbase h, ih]
  | apart h hmore ih =>
    obtain ⟨d', ds', c', more, rfl, rfl, h'⟩ := hmore.head
    rw [List.cons_append, digits_cons hbase h, List.cons_append, List.cons_append,
      digits_underscore hbase h', ← List.cons_append, ih]

theorem MoreDigits.digitsText {base d : Nat} {c : Char} {ds : List Nat} {cs : List Char}
    (h : MoreDigits base ds cs) (hc : IsDigit base d c) : DigitsText base (d :: ds) (c :: cs) := by
  cases h with
  | none => exact .last hc
  | here h => exact .next hc h
  | apart h => exact .apart hc h

/-- Whatever is read as digits are digits that could follow another one. -/
theorem exists_moreDigits {base : Nat} (hbase : base ≤ 16) (cs : List Char) :
    ∃ front, MoreDigits base (Reader.digits base cs).1 front ∧
      cs = front ++ (Reader.digits base cs).2 := by
  fun_induction Reader.digits base cs with
  | case1 c rest d hd ds rest' hread ih =>
    obtain ⟨front, hfront, hrest⟩ := ih
    rw [hread] at hfront hrest
    have hc := (digitValue?_eq_some_iff hbase).mp hd
    exact ⟨'_' :: c :: front, .apart (hfront.digitsText hc), by simp [hrest]⟩
  | case2 => exact ⟨[], .none, rfl⟩
  | case3 c rest _ d hd ds rest' hread ih =>
    obtain ⟨front, hfront, hrest⟩ := ih
    rw [hread] at hfront hrest
    have hc := (digitValue?_eq_some_iff hbase).mp hd
    exact ⟨c :: front, .here (hfront.digitsText hc), by simp [hrest]⟩
  | case4 => exact ⟨[], .none, rfl⟩
  | case5 => exact ⟨[], .none, rfl⟩

theorem unsigned?_text {base : Nat} {ds : List Nat} {cs rest : List Char} (hbase : base ≤ 16)
    (h : DigitsText base ds cs) (hrest : EndsValue rest) :
    Reader.unsigned? base (cs ++ rest) = some (ofDigits base ds, rest) := by
  obtain ⟨d, ds, c, more, rfl, rfl, hd⟩ := h.head
  have hfirst := (digitValue?_eq_some_iff hbase).mpr hd
  have hdigits := digits_text hbase h hrest
  rw [List.cons_append] at hdigits ⊢
  simp [Reader.unsigned?, hfirst, hdigits, ofDigits]

theorem digitsText_of_unsigned? {base n : Nat} {cs rest : List Char} (hbase : base ≤ 16)
    (h : Reader.unsigned? base cs = some (n, rest)) :
    ∃ d ds front, DigitsText base (d :: ds) front ∧ n = ofDigits base (d :: ds) ∧
      cs = front ++ rest := by
  obtain ⟨c, hhead, h⟩ := Option.bind_eq_some_iff.mp h
  obtain ⟨d, hd, h⟩ := Option.bind_eq_some_iff.mp h
  obtain ⟨more, rfl⟩ := List.head?_eq_some_iff.mp hhead
  have hc := (digitValue?_eq_some_iff hbase).mp hd
  obtain ⟨front, hfront, hmore⟩ := exists_moreDigits hbase more
  rw [digits_cons hbase hc] at h
  obtain ⟨rfl, rfl⟩ := Prod.mk.inj (Option.some.inj h)
  exact ⟨d, _, c :: front, hfront.digitsText hc, rfl, by rw [List.cons_append, ← hmore]⟩

/-! ### Numbers -/

/-- A decimal number without a needless zero in front. -/
inductive DecimalText : Nat → List Char → Prop
  | zero : DecimalText 0 ['0']
  | mk {d : Nat} {ds : List Nat} {cs : List Char} (hd : d ≠ 0) (h : DigitsText 10 (d :: ds) cs) :
      DecimalText (ofDigits 10 (d :: ds)) cs

/-- The marks of the other bases. -/
def bases : List (Char × Nat) := [('x', 16), ('o', 8), ('b', 2)]

/-- A decimal number with or without a sign, or one in another base. -/
inductive NumberText : Int → List Char → Prop
  | decimal {n : Nat} {cs : List Char} (h : DecimalText n cs) : NumberText n cs
  | plus {n : Nat} {cs : List Char} (h : DecimalText n cs) : NumberText n ('+' :: cs)
  | minus {n : Nat} {cs : List Char} (h : DecimalText n cs) : NumberText (-n) ('-' :: cs)
  | marked {mark : Char} {base : Nat} {ds : List Nat} {cs : List Char}
      (hmark : (mark, base) ∈ bases) (h : DigitsText base ds cs) :
      NumberText (ofDigits base ds) ('0' :: mark :: cs)

/-- The numbers of sixty-four bits. -/
def InRange (n : Int) : Prop := -(Nat.pow 2 63 : Int) ≤ n ∧ n < (Nat.pow 2 63 : Int)

instance (n : Int) : Decidable (InRange n) := inferInstanceAs (Decidable (_ ∧ _))

/-- The first digit of a decimal number is none of the characters that other values, and
what may stand in front of values, start with. -/
theorem not_mark_of_isDigit {d : Nat} {c : Char} (h : IsDigit 10 d c) :
    c ∉ ['+', '-', ' ', '\t', '"', '\'', '[', '\x7b'] := by
  have hall : ∀ d, d < 10 → Nat.digitChar d ∉ ['+', '-', ' ', '\t', '"', '\'', '[', '\x7b'] ∧
      (Nat.digitChar d).toUpper ∉ ['+', '-', ' ', '\t', '"', '\'', '[', '\x7b'] := by
    decide
  obtain ⟨hd, rfl | rfl⟩ := h
  · exact (hall d hd).1
  · exact (hall d hd).2

theorem isDigit_zero_iff {c : Char} : IsDigit 10 0 c ↔ c = '0' := by
  simp [IsDigit, Nat.digitChar]

/-- Only the digit zero is written with a zero. -/
theorem eq_zero_of_isDigit {d : Nat} (h : IsDigit 10 d '0') : d = 0 := by
  have hread := hexValue?_of_isDigit (by decide) h
  exact (Option.some.inj hread).symm

theorem DecimalText.head {n : Nat} {cs : List Char} (h : DecimalText n cs) :
    ∃ d c more, cs = c :: more ∧ IsDigit 10 d c := by
  cases h with
  | zero => exact ⟨0, '0', [], rfl, isDigit_zero_iff.mpr rfl⟩
  | mk hd h =>
    obtain ⟨d, ds, c, more, -, hcs, hc⟩ := h.head
    exact ⟨d, c, more, hcs, hc⟩

theorem decimal?_text {n : Nat} {cs rest : List Char} (h : DecimalText n cs)
    (hrest : EndsValue rest) : Reader.decimal? (cs ++ rest) = some (n, rest) := by
  cases h with
  | zero => rfl
  | mk hd h =>
    have hread := unsigned?_text (by decide) h hrest
    obtain ⟨d', ds', c, more, heq, rfl, hc⟩ := h.head
    obtain ⟨rfl, rfl⟩ := List.cons.inj heq
    rw [List.cons_append] at hread ⊢
    rw [Reader.decimal?]
    · exact hread
    · rintro rest' ⟨⟩
      exact hd (eq_zero_of_isDigit hc)

theorem decimalText_of_decimal? {n : Nat} {cs rest : List Char}
    (h : Reader.decimal? cs = some (n, rest)) :
    ∃ front, DecimalText n front ∧ cs = front ++ rest := by
  unfold Reader.decimal? at h
  split at h
  · obtain ⟨rfl, rfl⟩ := Prod.mk.inj (Option.some.inj h)
    exact ⟨['0'], .zero, rfl⟩
  · rename_i hzero
    obtain ⟨d, ds, front, hdigits, rfl, rfl⟩ := digitsText_of_unsigned? (by decide) h
    obtain ⟨d', ds', c, more, heq, rfl, hc⟩ := hdigits.head
    obtain ⟨rfl, rfl⟩ := List.cons.inj heq
    refine ⟨c :: more, .mk ?_ hdigits, rfl⟩
    rintro rfl
    exact hzero (more ++ rest) (by rw [isDigit_zero_iff.mp hc, List.cons_append])

/-- Without a sign and without a mark a number is read as a decimal one. -/
theorem integer?_decimal {d : Nat} {c : Char} (hc : IsDigit 10 d c) {more rest : List Char}
    {n : Nat} (hread : Reader.decimal? (c :: more) = some (n, rest)) (hn : InRange n)
    (hmark : ∀ m ∈ more.head?, m ∉ bases.map Prod.fst ∨ c ≠ '0') :
    Reader.integer? (c :: more) = some ((n : Int), rest) := by
  have hsign := not_mark_of_isDigit hc
  simp only [List.mem_cons, List.not_mem_nil, or_false, not_or] at hsign
  unfold Reader.integer?
  split
  case h_6 =>
    simp only [hread, Option.map_some, Option.bind_eq_bind]
    rw [Option.bind_some]
    exact if_pos hn
  all_goals
    rename_i heq
    obtain ⟨rfl, rfl⟩ := List.cons.inj heq
    simp [bases] at hsign hmark

theorem integer?_text {n : Int} {cs rest : List Char} (h : NumberText n cs) (hn : InRange n)
    (hrest : EndsValue rest) : Reader.integer? (cs ++ rest) = some (n, rest) := by
  cases h with
  | decimal h =>
    have hread := decimal?_text h hrest
    cases h with
    | zero =>
      refine integer?_decimal (isDigit_zero_iff.mpr rfl) hread hn fun m hm ↦ .inl fun hmark ↦ ?_
      have hend := hrest m hm
      simp only [bases, List.map_cons, List.map_nil, List.mem_cons, List.not_mem_nil,
        or_false] at hmark
      rcases hmark with rfl | rfl | rfl <;> simp at hend
    | mk hd h =>
      obtain ⟨d', ds', c, more, heq, rfl, hc⟩ := h.head
      obtain ⟨rfl, rfl⟩ := List.cons.inj heq
      refine integer?_decimal hc hread hn fun m hm ↦ .inr ?_
      rintro rfl
      exact hd (eq_zero_of_isDigit hc)
  | plus h =>
    simp only [Reader.integer?, List.cons_append, decimal?_text h hrest, Option.map_some,
      Option.bind_eq_bind]
    rw [Option.bind_some]
    exact if_pos hn
  | minus h =>
    simp only [Reader.integer?, List.cons_append, decimal?_text h hrest, Option.map_some,
      Option.bind_eq_bind]
    rw [Option.bind_some]
    exact if_pos hn
  | marked hmark h =>
    simp only [bases, List.mem_cons, Prod.mk.injEq, List.not_mem_nil, or_false] at hmark
    rcases hmark with ⟨rfl, rfl⟩ | ⟨rfl, rfl⟩ | ⟨rfl, rfl⟩
    all_goals
      simp only [Reader.integer?, List.cons_append, unsigned?_text (by decide) h hrest,
        Option.map_some, Option.bind_eq_bind]
      rw [Option.bind_some]
      exact if_pos hn

/-- A number is given out only within the range. -/
theorem inRange_of_bound {x : Option (Int × List Char)} {n : Int} {rest : List Char}
    (h : (x.bind fun p ↦ if InRange p.1 then some p else none) = some (n, rest)) :
    InRange n ∧ x = some (n, rest) := by
  obtain ⟨p, hx, hp⟩ := Option.bind_eq_some_iff.mp h
  split_ifs at hp with hin
  cases hp
  exact ⟨hin, hx⟩

theorem decimalText_of_signed {f : Nat → Int} {cs rest : List Char} {n : Int}
    (h : (Reader.decimal? cs).map (fun (n, rest) ↦ (f n, rest)) = some (n, rest)) :
    ∃ m front, DecimalText m front ∧ n = f m ∧ cs = front ++ rest := by
  obtain ⟨⟨m, rest⟩, hread, heq⟩ := Option.map_eq_some_iff.mp h
  cases heq
  obtain ⟨front, hfront, hcs⟩ := decimalText_of_decimal? hread
  exact ⟨m, front, hfront, rfl, hcs⟩

theorem numberText_of_marked {mark : Char} {base : Nat} {cs rest : List Char} {n : Int}
    (hmark : (mark, base) ∈ bases) (hbase : base ≤ 16)
    (h : (Reader.unsigned? base cs).map (fun (n, rest) ↦ ((n : Int), rest)) = some (n, rest)) :
    ∃ front, NumberText n front ∧ '0' :: mark :: cs = front ++ rest := by
  obtain ⟨⟨m, rest⟩, hread, heq⟩ := Option.map_eq_some_iff.mp h
  cases heq
  obtain ⟨d, ds, front, hfront, rfl, rfl⟩ := digitsText_of_unsigned? hbase hread
  exact ⟨'0' :: mark :: front, .marked hmark hfront, rfl⟩

theorem numberText_of_integer? {n : Int} {cs rest : List Char}
    (h : Reader.integer? cs = some (n, rest)) :
    InRange n ∧ ∃ front, NumberText n front ∧ cs = front ++ rest := by
  unfold Reader.integer? at h
  split at h
  all_goals
    obtain ⟨hin, hread⟩ := inRange_of_bound h
    refine ⟨hin, ?_⟩
  · obtain ⟨m, front, hfront, rfl, rfl⟩ := decimalText_of_signed hread
    exact ⟨'+' :: front, .plus hfront, rfl⟩
  · obtain ⟨m, front, hfront, rfl, rfl⟩ := decimalText_of_signed (f := fun n ↦ -(n : Int)) hread
    exact ⟨'-' :: front, .minus hfront, rfl⟩
  · exact numberText_of_marked (.head _) (by decide) hread
  · exact numberText_of_marked (.tail _ (.head _)) (by decide) hread
  · exact numberText_of_marked (.tail _ (.tail _ (.head _))) (by decide) hread
  · obtain ⟨m, front, hfront, rfl, rfl⟩ := decimalText_of_signed hread
    exact ⟨front, .decimal hfront, rfl⟩

end Enrollment.Toml
