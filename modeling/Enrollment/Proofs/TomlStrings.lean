import Mathlib.Data.List.Forall2
import Enrollment.Proofs.TomlNumbers
namespace Enrollment.Toml

/-!
# How a string may be written

A string stands in double quotes, with escapes, or in single ones, where everything
stands for itself.  A grammar says which texts stand between the quotes and what they
are read as, and the reader takes these texts and no others.
-/

open Reader (before)

/-! ### Characters by name and by number -/

/-- The escapes of two characters. -/
def escapes : List (Char × Char) :=
  [('b', '\x08'), ('t', '\t'), ('n', '\n'), ('f', '\x0c'), ('r', '\r'), ('"', '"'),
    ('\\', '\\')]

/-- The escapes by number, each with the count of its digits. -/
def wideEscapes : List (Char × Nat) := [('u', 4), ('U', 8)]

theorem escape?_of_mem : ∀ m ∈ escapes, Reader.escape? m.1 = some m.2 ∧ m.1 ≠ 'u' ∧ m.1 ≠ 'U' ∧
    m.1 ∉ [' ', '\t', '\n', '\r'] := by
  decide

theorem mem_of_escape? {e c : Char} (h : Reader.escape? e = some c) : (e, c) ∈ escapes := by
  unfold Reader.escape? at h
  split at h
  case h_8 => exact nomatch h
  all_goals
    obtain rfl := Option.some.inj h
    decide

theorem foldlM_hex_eq_some_iff {cs : List Char} {m n : Nat} :
    cs.foldlM (fun n c ↦ (Bytes.hexValue? c).map (16 * n + ·)) m = some n ↔
      ∃ ds, List.Forall₂ (IsDigit 16) ds cs ∧ ds.foldl (fun n d ↦ 16 * n + d) m = n := by
  induction cs generalizing m with
  | nil => simp [eq_comm]
  | cons c cs ih =>
    simp only [List.foldlM_cons, Option.bind_eq_bind, Option.bind_eq_some_iff,
      Option.map_eq_some_iff, ih, List.forall₂_cons_right_iff]
    constructor
    · rintro ⟨_, ⟨d, hd, rfl⟩, ds, hds, hn⟩
      exact ⟨d :: ds, ⟨d, ds, isDigit_of_hexValue? hd, hds, rfl⟩, hn⟩
    · rintro ⟨_, ⟨d, ds, hd, hds, rfl⟩, hn⟩
      exact ⟨_, ⟨d, hexValue?_of_isDigit (Nat.le_refl 16) hd, rfl⟩, ds, hds, hn⟩

theorem scalar?_eq_some_iff {cs : List Char} {c : Char} :
    Reader.scalar? cs = some c ↔
      ∃ ds, List.Forall₂ (IsDigit 16) ds cs ∧ ofDigits 16 ds = c.toNat := by
  simp only [Reader.scalar?, Reader.hexNumber?, Option.bind_eq_bind, Option.bind_eq_some_iff,
    foldlM_hex_eq_some_iff]
  constructor
  · rintro ⟨n, ⟨ds, hds, hn⟩, h⟩
    split at h
    · rename_i hvalid
      obtain rfl := Option.some.inj h
      exact ⟨ds, hds, hn.trans (toNat_ofNat_of_valid hvalid).symm⟩
    · exact nomatch h
  · rintro ⟨ds, hds, hc⟩
    have hvalid : c.toNat.isValidChar := c.valid
    exact ⟨c.toNat, ⟨ds, hds, hc⟩, by simp [hvalid]⟩

theorem before_eq_some_iff {x : Option Char} {r : Option (List Char × List Char)}
    {s rest : List Char} :
    before x r = some (s, rest) ↔ ∃ c text, x = some c ∧ r = some (text, rest) ∧ s = c :: text := by
  simp only [before, Option.bind_eq_bind, Option.bind_eq_some_iff, Option.pure_def,
    Option.some.injEq, Prod.exists, Prod.mk.injEq]
  constructor
  · rintro ⟨c, hx, text, _, hr, rfl, rfl⟩
    exact ⟨c, text, hx, hr, rfl⟩
  · rintro ⟨c, text, hx, hr, rfl⟩
    exact ⟨c, hx, text, rest, hr, rfl, rfl⟩

/-! ### Strings on one line -/

/-- What stands between the quotes of a basic string. -/
inductive BasicText : List Char → List Char → Prop
  | nil : BasicText [] []
  | plain {c : Char} {s cs : List Char} (hc : Reader.isPlain c) (hquote : c ≠ '"')
      (hslash : c ≠ '\\') (h : BasicText s cs) : BasicText (c :: s) (c :: cs)
  | escape {e c : Char} {s cs : List Char} (he : (e, c) ∈ escapes) (h : BasicText s cs) :
      BasicText (c :: s) ('\\' :: e :: cs)
  | wide {mark c : Char} {ds : List Nat} {digits s cs : List Char}
      (hmark : (mark, digits.length) ∈ wideEscapes) (hdigits : List.Forall₂ (IsDigit 16) ds digits)
      (hc : ofDigits 16 ds = c.toNat) (h : BasicText s cs) :
      BasicText (c :: s) ('\\' :: mark :: (digits ++ cs))

/-- What stands between single quotes stands for itself. -/
def LiteralText (s : List Char) : Prop := ∀ c ∈ s, Reader.isPlain c ∧ c ≠ '\''

theorem basic?_plain {c : Char} (hc : Reader.isPlain c) (hquote : c ≠ '"') (hslash : c ≠ '\\')
    (rest : List Char) : Reader.basic? (c :: rest) = before (some c) (Reader.basic? rest) := by
  conv_lhs => unfold Reader.basic?
  split
  case h_5 =>
    rename_i heq
    obtain ⟨rfl, rfl⟩ := List.cons.inj heq
    rw [if_pos hc]
  all_goals
    rename_i heq
    simp_all

theorem basic?_escape {e c : Char} (he : (e, c) ∈ escapes) (rest : List Char) :
    Reader.basic? ('\\' :: e :: rest) = before (some c) (Reader.basic? rest) := by
  obtain ⟨hread, hu, hU, -⟩ := escape?_of_mem _ he
  rw [Reader.basic?, hread]
  · rintro _ _ _ _ _ rfl
    exact absurd rfl hu
  · rintro _ _ _ _ _ _ _ _ _ rfl
    exact absurd rfl hU

/-- A character is given by its number in four digits or in eight. -/
theorem wide_cases {mark : Char} {digits : List Char}
    (h : (mark, digits.length) ∈ wideEscapes) :
    (mark = 'u' ∧ ∃ a b c d, digits = [a, b, c, d]) ∨
      mark = 'U' ∧ ∃ a b c d e f g h, digits = [a, b, c, d, e, f, g, h] := by
  simp only [wideEscapes, List.mem_cons, Prod.mk.injEq, List.not_mem_nil, or_false] at h
  obtain ⟨rfl, hlength⟩ | ⟨rfl, hlength⟩ := h
  · exact .inl ⟨rfl, List.length_eq_four.mp hlength⟩
  · obtain ⟨a, b, c, d, hfour⟩ := List.length_eq_four.mp
      (show (digits.take 4).length = 4 by simp [hlength])
    obtain ⟨e, f, g, h, hrest⟩ := List.length_eq_four.mp
      (show (digits.drop 4).length = 4 by simp [hlength])
    refine .inr ⟨rfl, a, b, c, d, e, f, g, h, ?_⟩
    rw [← List.take_append_drop 4 digits, hfour, hrest]
    rfl

/-- A character is read that was given by the number its digits make. -/
theorem basic?_wide {mark c : Char} {digits : List Char}
    (hmark : (mark, digits.length) ∈ wideEscapes) (hread : Reader.scalar? digits = some c)
    (rest : List Char) :
    Reader.basic? ('\\' :: mark :: (digits ++ rest)) = before (some c) (Reader.basic? rest) := by
  obtain ⟨rfl, a, b, c', d, rfl⟩ | ⟨rfl, a, b, c', d, e, f, g, h, rfl⟩ := wide_cases hmark
  all_goals simp [Reader.basic?, hread]

theorem basic?_text {s cs : List Char} (h : BasicText s cs) (rest : List Char) :
    Reader.basic? (cs ++ '"' :: rest) = some (s, rest) := by
  induction h with
  | nil => simp [Reader.basic?]
  | plain hc hquote hslash _ ih =>
    rw [List.cons_append, basic?_plain hc hquote hslash, ih]
    rfl
  | escape he _ ih =>
    rw [List.cons_append, List.cons_append, basic?_escape he, ih]
    rfl
  | wide hmark hdigits hc _ ih =>
    rw [List.cons_append, List.cons_append, List.append_assoc,
      basic?_wide hmark (scalar?_eq_some_iff.mpr ⟨_, hdigits, hc⟩), ih]
    rfl

theorem basicText_of_basic? {cs s rest : List Char} (h : Reader.basic? cs = some (s, rest)) :
    ∃ body, BasicText s body ∧ cs = body ++ '"' :: rest := by
  fun_induction Reader.basic? cs generalizing s with
  | case1 rest' =>
    obtain ⟨rfl, rfl⟩ := Prod.mk.inj (Option.some.inj h)
    exact ⟨[], .nil, rfl⟩
  | case2 a b c d rest' ih =>
    obtain ⟨c', text, hread, hrest, rfl⟩ := before_eq_some_iff.mp h
    obtain ⟨body, hbody, rfl⟩ := ih hrest
    obtain ⟨ds, hds, hc⟩ := scalar?_eq_some_iff.mp hread
    exact ⟨'\\' :: 'u' :: ([a, b, c, d] ++ body), .wide (.head _) hds hc hbody, rfl⟩
  | case3 a b c d e f g h' rest' ih =>
    obtain ⟨c', text, hread, hrest, rfl⟩ := before_eq_some_iff.mp h
    obtain ⟨body, hbody, rfl⟩ := ih hrest
    obtain ⟨ds, hds, hc⟩ := scalar?_eq_some_iff.mp hread
    exact ⟨'\\' :: 'U' :: ([a, b, c, d, e, f, g, h'] ++ body),
      .wide (.tail _ (.head _)) hds hc hbody, rfl⟩
  | case4 e rest' _ _ ih =>
    obtain ⟨c, text, hread, hrest, rfl⟩ := before_eq_some_iff.mp h
    obtain ⟨body, hbody, rfl⟩ := ih hrest
    exact ⟨'\\' :: e :: body, .escape (mem_of_escape? hread) hbody, rfl⟩
  | case5 c rest' hquote _ _ hslash hplain ih =>
    obtain ⟨c', text, hread, hrest, rfl⟩ := before_eq_some_iff.mp h
    obtain rfl := Option.some.inj hread
    obtain ⟨body, hbody, rfl⟩ := ih hrest
    obtain ⟨d, more, hmore⟩ := List.exists_cons_of_ne_nil (show body ++ '"' :: rest ≠ [] by simp)
    exact ⟨c :: body, .plain hplain hquote (fun hc ↦ hslash d more hc hmore) hbody, rfl⟩
  | case6 => exact nomatch h
  | case7 => exact nomatch h

/-- A basic string ends at the first quote that is not escaped. -/
theorem basic?_eq_some_iff {cs s rest : List Char} :
    Reader.basic? cs = some (s, rest) ↔ ∃ body, BasicText s body ∧ cs = body ++ '"' :: rest := by
  constructor
  · exact basicText_of_basic?
  · rintro ⟨body, h, rfl⟩
    exact basic?_text h rest

/-- A literal string ends at the first quote. -/
theorem literal?_eq_some_iff {cs s rest : List Char} :
    Reader.literal? cs = some (s, rest) ↔ LiteralText s ∧ cs = s ++ '\'' :: rest := by
  constructor
  · intro h
    fun_induction Reader.literal? cs generalizing s with
    | case1 =>
      obtain ⟨rfl, rfl⟩ := Prod.mk.inj (Option.some.inj h)
      exact ⟨List.forall_mem_nil _, rfl⟩
    | case2 c rest' hquote hplain ih =>
      obtain ⟨c', text, hread, hrest, rfl⟩ := before_eq_some_iff.mp h
      obtain rfl := Option.some.inj hread
      obtain ⟨htext, rfl⟩ := ih hrest
      exact ⟨List.forall_mem_cons.mpr ⟨⟨hplain, hquote⟩, htext⟩, rfl⟩
    | case3 => exact nomatch h
    | case4 => exact nomatch h
  · rintro ⟨hs, rfl⟩
    induction s with
    | nil => simp [Reader.literal?]
    | cons c s ih =>
      obtain ⟨⟨hplain, hquote⟩, hs⟩ := List.forall_mem_cons.mp hs
      rw [List.cons_append, Reader.literal?]
      · rw [if_pos hplain, ih hs]
        rfl
      · exact hquote

end Enrollment.Toml
