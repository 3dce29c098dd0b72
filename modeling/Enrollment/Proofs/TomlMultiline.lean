import Enrollment.Proofs.TomlStrings
namespace Enrollment.Toml

/-!
# Strings of several lines

Between three quotes a string goes on over line ends, and one or two quotes stand for
themselves.  In double quotes a backslash at the end of a line joins it to the next thing
shown.  As for strings on one line, the reader takes the texts of a grammar and no others.
-/

open Reader (before)

/-! ### What stands between three quotes -/

def Blanks (cs : List Char) : Prop := ∀ c ∈ cs, Reader.isBlank c

def lineEnds : List (List Char) := [['\n'], ['\r', '\n']]

/-- Blanks and line ends that a backslash at the end of a line leaves out. -/
inductive Gap : List Char → Prop
  | nil : Gap []
  | blank {c : Char} {cs : List Char} (hc : Reader.isBlank c) (h : Gap cs) : Gap (c :: cs)
  | lineEnd {ending cs : List Char} (hending : ending ∈ lineEnds) (h : Gap cs) : Gap (ending ++ cs)

/-- Neither a blank nor a line end stands in front. -/
def Shown (cs : List Char) : Prop := ∀ c ∈ cs.head?, c ∉ [' ', '\t', '\n', '\r']

theorem Shown.append {cs tail : List Char} (h : Shown cs) (htail : Shown tail) :
    Shown (cs ++ tail) := by
  cases cs with
  | nil => exact htail
  | cons c cs => exact h

/-- What stands between three double quotes.  One or two quotes stand for themselves, and
every line end is read as a line feed. -/
inductive BasicLines : List Char → List Char → Prop
  | nil : BasicLines [] []
  | plain {c : Char} {s cs : List Char} (hc : Reader.isPlain c) (hquote : c ≠ '"')
      (hslash : c ≠ '\\') (h : BasicLines s cs) : BasicLines (c :: s) (c :: cs)
  | quote {s cs : List Char} (hfew : ¬ ['"', '"'] <+: cs) (h : BasicLines s cs) :
      BasicLines ('"' :: s) ('"' :: cs)
  | lineEnd {ending s cs : List Char} (hending : ending ∈ lineEnds) (h : BasicLines s cs) :
      BasicLines ('\n' :: s) (ending ++ cs)
  | escape {e c : Char} {s cs : List Char} (he : (e, c) ∈ escapes) (h : BasicLines s cs) :
      BasicLines (c :: s) ('\\' :: e :: cs)
  | wide {mark c : Char} {ds : List Nat} {digits s cs : List Char}
      (hmark : (mark, digits.length) ∈ wideEscapes) (hdigits : List.Forall₂ (IsDigit 16) ds digits)
      (hc : ofDigits 16 ds = c.toNat) (h : BasicLines s cs) :
      BasicLines (c :: s) ('\\' :: mark :: (digits ++ cs))
  | joined {blanks ending gap s cs : List Char} (hblanks : Blanks blanks)
      (hending : ending ∈ lineEnds) (hgap : Gap gap) (hshown : Shown cs) (h : BasicLines s cs) :
      BasicLines s ('\\' :: (blanks ++ (ending ++ (gap ++ cs))))

/-- What stands between three single quotes. -/
inductive LiteralLines : List Char → List Char → Prop
  | nil : LiteralLines [] []
  | plain {c : Char} {s cs : List Char} (hc : Reader.isPlain c) (hquote : c ≠ '\'')
      (h : LiteralLines s cs) : LiteralLines (c :: s) (c :: cs)
  | quote {s cs : List Char} (hfew : ¬ ['\'', '\''] <+: cs) (h : LiteralLines s cs) :
      LiteralLines ('\'' :: s) ('\'' :: cs)
  | lineEnd {ending s cs : List Char} (hending : ending ∈ lineEnds) (h : LiteralLines s cs) :
      LiteralLines ('\n' :: s) (ending ++ cs)

/-- A line end right after the opening quotes does not belong to the string. -/
inductive Opened : List Char → List Char → Prop
  | here {cs : List Char} (h : ∀ ending ∈ lineEnds, ¬ ending <+: cs) : Opened cs cs
  | lineEnd {ending cs : List Char} (hending : ending ∈ lineEnds) : Opened (ending ++ cs) cs

/-- The quotes that close a string of several lines. -/
def closing (quote : Char) : List Char := [quote, quote, quote]

theorem shown_closing (rest : List Char) : Shown (closing '"' ++ rest) := by
  simp [Shown, closing]

theorem lf_mem : ['\n'] ∈ lineEnds := by decide

theorem crlf_mem : ['\r', '\n'] ∈ lineEnds := by decide

theorem lineEnd_cases {ending : List Char} (h : ending ∈ lineEnds) :
    ending = ['\n'] ∨ ending = ['\r', '\n'] := by
  simpa [lineEnds] using h

/-! ### Between single quotes -/

theorem LiteralLines.eq_of_quotes {s cs : List Char} (h : LiteralLines s cs)
    (hcs : ∀ c ∈ cs, c = '\'') : s = cs := by
  induction h with
  | nil => rfl
  | plain _ hquote _ _ => exact absurd (hcs _ List.mem_cons_self) hquote
  | quote _ _ ih => rw [ih (List.forall_mem_cons.mp hcs).2]
  | lineEnd hending =>
    rcases lineEnd_cases hending with rfl | rfl <;> simp at hcs

theorem multiLiteral?_plain {c : Char} {rest : List Char} (hc : Reader.isPlain c)
    (hfew : c = '\'' → ¬ ['\'', '\''] <+: rest) :
    Reader.multiLiteral? (c :: rest) = before (some c) (Reader.multiLiteral? rest) := by
  conv_lhs => unfold Reader.multiLiteral?
  split
  case h_6 =>
    rename_i heq
    obtain ⟨rfl, rfl⟩ := List.cons.inj heq
    rw [if_pos hc]
  all_goals
    rename_i heq
    simp_all [Reader.isPlain]

theorem multiLiteral?_lineEnd {ending : List Char} (hending : ending ∈ lineEnds)
    (rest : List Char) : Reader.multiLiteral? (ending ++ rest) =
      before (some '\n') (Reader.multiLiteral? rest) := by
  rcases lineEnd_cases hending with rfl | rfl <;> simp [Reader.multiLiteral?]

theorem multiLiteral?_closing {quotes rest : List Char}
    (hquotes : quotes ∈ [[], ['\''], ['\'', '\'']]) (hrest : rest.head? ≠ some '\'') :
    Reader.multiLiteral? (quotes ++ (closing '\'' ++ rest)) = some (quotes, rest) := by
  have hnone : ∀ more, rest ≠ '\'' :: more := by
    rintro more rfl
    exact hrest rfl
  simp only [List.mem_cons, List.not_mem_nil, or_false] at hquotes
  rcases hquotes with rfl | rfl | rfl <;> simp [Reader.multiLiteral?, closing, hnone]

/-- Fewer than three quotes in a row end the text, or something else comes after them. -/
theorem few_quotes {q : Char} {cs : List Char} (hfew : ¬ [q, q] <+: cs) (tail : List Char) :
    cs = [] ∨ cs = [q] ∨ ¬ [q, q] <+: cs ++ tail := by
  match cs with
  | [] => exact .inl rfl
  | [c] =>
    by_cases hc : c = q
    · exact .inr (.inl (by rw [hc]))
    · exact .inr (.inr fun h ↦ hc (List.cons_prefix_cons.mp h).1.symm)
  | c :: d :: cs =>
    refine .inr (.inr fun h ↦ hfew ?_)
    simpa [List.cons_prefix_cons] using h

theorem multiLiteral?_text {s cs rest : List Char} (h : LiteralLines s cs)
    (hrest : rest.head? ≠ some '\'') :
    Reader.multiLiteral? (cs ++ (closing '\'' ++ rest)) = some (s, rest) := by
  induction h with
  | nil => exact multiLiteral?_closing (.head _) hrest
  | plain hc hquote _ ih =>
    rw [List.cons_append, multiLiteral?_plain hc (absurd · hquote), ih]
    rfl
  | @quote s cs hfew h ih =>
    rcases few_quotes hfew (closing '\'' ++ rest) with rfl | rfl | hmore
    · rw [h.eq_of_quotes (by simp)]
      exact multiLiteral?_closing (.tail _ (.head _)) hrest
    · rw [h.eq_of_quotes (by simp)]
      exact multiLiteral?_closing (.tail _ (.tail _ (.head _))) hrest
    · rw [List.cons_append, multiLiteral?_plain (by decide) fun _ ↦ hmore, ih]
      rfl
  | lineEnd hending _ ih =>
    rw [List.append_assoc, multiLiteral?_lineEnd hending, ih]
    rfl

theorem literalLines_of_multiLiteral? {cs s rest : List Char}
    (h : Reader.multiLiteral? cs = some (s, rest)) :
    ∃ body, LiteralLines s body ∧ cs = body ++ (closing '\'' ++ rest) := by
  fun_induction Reader.multiLiteral? cs generalizing s with
  | case1 =>
    obtain ⟨rfl, rfl⟩ := Prod.mk.inj (Option.some.inj h)
    exact ⟨['\'', '\''], .quote (by decide) (.quote (by decide) .nil), rfl⟩
  | case2 =>
    obtain ⟨rfl, rfl⟩ := Prod.mk.inj (Option.some.inj h)
    exact ⟨['\''], .quote (by decide) .nil, rfl⟩
  | case3 =>
    obtain ⟨rfl, rfl⟩ := Prod.mk.inj (Option.some.inj h)
    exact ⟨[], .nil, rfl⟩
  | case4 rest' ih =>
    obtain ⟨c, text, hread, hrest, rfl⟩ := before_eq_some_iff.mp h
    obtain rfl := Option.some.inj hread
    obtain ⟨body, hbody, rfl⟩ := ih hrest
    exact ⟨_, .lineEnd crlf_mem hbody, rfl⟩
  | case5 rest' ih =>
    obtain ⟨c, text, hread, hrest, rfl⟩ := before_eq_some_iff.mp h
    obtain rfl := Option.some.inj hread
    obtain ⟨body, hbody, rfl⟩ := ih hrest
    exact ⟨_, .lineEnd lf_mem hbody, rfl⟩
  | case6 c rest' _ _ hthree _ _ hplain ih =>
    obtain ⟨c', text, hread, hrest, rfl⟩ := before_eq_some_iff.mp h
    obtain rfl := Option.some.inj hread
    obtain ⟨body, hbody, rfl⟩ := ih hrest
    by_cases hquote : c = '\''
    · subst hquote
      refine ⟨'\'' :: body, .quote (fun htwo ↦ ?_) hbody, rfl⟩
      obtain ⟨more, rfl⟩ := htwo
      exact hthree _ rfl rfl
    · exact ⟨c :: body, .plain hplain hquote hbody, rfl⟩
  | case7 => exact nomatch h
  | case8 => exact nomatch h

/-! ### Between double quotes -/

theorem BasicLines.eq_of_quotes {s cs : List Char} (h : BasicLines s cs)
    (hcs : ∀ c ∈ cs, c = '"') : s = cs := by
  induction h with
  | nil => rfl
  | plain _ hquote _ _ _ => exact absurd (hcs _ List.mem_cons_self) hquote
  | quote _ _ ih => rw [ih (List.forall_mem_cons.mp hcs).2]
  | lineEnd hending =>
    rcases lineEnd_cases hending with rfl | rfl <;> simp at hcs
  | escape | wide | joined => simp at hcs

section Step

variable {joining : Bool}

theorem multiBasic?_plain {c : Char} {rest : List Char} (hc : Reader.isPlain c) (hslash : c ≠ '\\')
    (hjoin : (joining && Reader.isBlank c) = false)
    (hfew : c = '"' → ¬ ['"', '"'] <+: rest) :
    Reader.multiBasic? joining (c :: rest) = before (some c) (Reader.multiBasic? false rest) := by
  conv_lhs => unfold Reader.multiBasic?
  split
  case h_9 =>
    rename_i heq
    obtain ⟨rfl, rfl⟩ := List.cons.inj heq
    rw [if_neg (by simp [hjoin]), if_pos hc]
  all_goals
    rename_i heq
    simp_all [Reader.isPlain]

theorem multiBasic?_lineEnd {ending : List Char} (hending : ending ∈ lineEnds)
    (rest : List Char) : Reader.multiBasic? joining (ending ++ rest) =
      if joining then Reader.multiBasic? true rest
      else before (some '\n') (Reader.multiBasic? false rest) := by
  rcases lineEnd_cases hending with rfl | rfl <;> simp [Reader.multiBasic?]

theorem joinsLines_of_shown {cs : List Char} (h : Shown cs) : Reader.joinsLines cs = false := by
  cases cs with
  | nil => rfl
  | cons c cs =>
    have hc := h c rfl
    simp only [List.mem_cons, List.not_mem_nil, or_false, not_or] at hc
    have hblank : Reader.skipBlank (c :: cs) = c :: cs :=
      List.dropWhile_cons_of_neg (by simp [Reader.isBlank, hc])
    rw [Reader.joinsLines, hblank]
    split <;> simp_all

theorem multiBasic?_escape {e c : Char} (he : (e, c) ∈ escapes) (rest : List Char) :
    Reader.multiBasic? joining ('\\' :: e :: rest) =
      before (some c) (Reader.multiBasic? false rest) := by
  obtain ⟨hread, hu, hU, hshown⟩ := escape?_of_mem _ he
  have hjoins : Reader.joinsLines (e :: rest) = false := by
    apply joinsLines_of_shown
    rintro _ ⟨⟩
    exact hshown
  rw [Reader.multiBasic?, hjoins, hread]
  · rfl
  · rintro _ _ _ _ _ rfl
    exact absurd rfl hu
  · rintro _ _ _ _ _ _ _ _ _ rfl
    exact absurd rfl hU

theorem multiBasic?_wide {mark c : Char} {digits : List Char}
    (hmark : (mark, digits.length) ∈ wideEscapes) (hread : Reader.scalar? digits = some c)
    (rest : List Char) :
    Reader.multiBasic? joining ('\\' :: mark :: (digits ++ rest)) =
      before (some c) (Reader.multiBasic? false rest) := by
  obtain ⟨rfl, a, b, c', d, rfl⟩ | ⟨rfl, a, b, c', d, e, f, g, h, rfl⟩ := wide_cases hmark
  all_goals simp [Reader.multiBasic?, hread]

theorem multiBasic?_blank {c : Char} (hc : Reader.isBlank c) (rest : List Char) :
    Reader.multiBasic? true (c :: rest) = Reader.multiBasic? true rest := by
  have hblank : c = ' ' ∨ c = '\t' := by simpa [Reader.isBlank] using hc
  rcases hblank with rfl | rfl <;> simp [Reader.multiBasic?, Reader.isBlank]

theorem multiBasic?_gap {gap : List Char} (h : Gap gap) (rest : List Char) :
    Reader.multiBasic? true (gap ++ rest) = Reader.multiBasic? true rest := by
  induction h with
  | nil => rfl
  | blank hc _ ih => rw [List.cons_append, multiBasic?_blank hc, ih]
  | lineEnd hending _ ih => rw [List.append_assoc, multiBasic?_lineEnd hending, if_pos rfl, ih]

theorem Blanks.gap {blanks : List Char} (h : Blanks blanks) : Gap blanks := by
  induction blanks with
  | nil => exact .nil
  | cons c blanks ih =>
    obtain ⟨hc, h⟩ := List.forall_mem_cons.mp h
    exact .blank hc (ih h)

theorem Gap.append {gap gap' : List Char} (h : Gap gap) (h' : Gap gap') : Gap (gap ++ gap') := by
  induction h with
  | nil => exact h'
  | blank hc _ ih => exact .blank hc ih
  | lineEnd hending _ ih =>
    rw [List.append_assoc]
    exact .lineEnd hending ih

theorem joinsLines_lineEnd {blanks ending : List Char} (hblanks : Blanks blanks)
    (hending : ending ∈ lineEnds) (rest : List Char) :
    Reader.joinsLines (blanks ++ (ending ++ rest)) = true := by
  have hskip : Reader.skipBlank (blanks ++ (ending ++ rest)) = ending ++ rest := by
    refine dropWhile_run hblanks fun c hc ↦ ?_
    rcases lineEnd_cases hending with rfl | rfl <;> cases hc <;> decide
  rw [Reader.joinsLines, hskip]
  rcases lineEnd_cases hending with rfl | rfl <;> rfl

theorem multiBasic?_joined {cs : List Char} (h : Reader.joinsLines cs = true) :
    Reader.multiBasic? joining ('\\' :: cs) = Reader.multiBasic? true cs := by
  cases cs with
  | nil => exact nomatch h
  | cons c rest =>
    have hmark : c ≠ 'u' ∧ c ≠ 'U' := by
      constructor <;> rintro rfl <;> exact nomatch h
    rw [Reader.multiBasic?, if_pos h]
    · rintro _ _ _ _ _ rfl
      exact absurd rfl hmark.1
    · rintro _ _ _ _ _ _ _ _ _ rfl
      exact absurd rfl hmark.2

/-- A backslash before the end of a line leaves out all up to the next thing shown. -/
theorem multiBasic?_skip {blanks ending gap : List Char} (hblanks : Blanks blanks)
    (hending : ending ∈ lineEnds) (hgap : Gap gap) (rest : List Char) :
    Reader.multiBasic? joining ('\\' :: (blanks ++ (ending ++ (gap ++ rest)))) =
      Reader.multiBasic? true rest := by
  rw [multiBasic?_joined (joinsLines_lineEnd hblanks hending _), multiBasic?_gap hblanks.gap,
    multiBasic?_lineEnd hending, if_pos rfl, multiBasic?_gap hgap]

theorem multiBasic?_shown {cs : List Char} (h : Shown cs) :
    Reader.multiBasic? true cs = Reader.multiBasic? false cs := by
  cases cs with
  | nil => simp
  | cons c rest =>
    have hc := h c rfl
    simp only [List.mem_cons, List.not_mem_nil, or_false, not_or] at hc
    rw [Reader.multiBasic?.eq_def true, Reader.multiBasic?.eq_def false]
    split <;> simp_all [Reader.isBlank]

theorem multiBasic?_closing {quotes rest : List Char}
    (hquotes : quotes ∈ [[], ['"'], ['"', '"']]) (hrest : rest.head? ≠ some '"') :
    Reader.multiBasic? joining (quotes ++ (closing '"' ++ rest)) = some (quotes, rest) := by
  have hnone : ∀ more, rest ≠ '"' :: more := by
    rintro more rfl
    exact hrest rfl
  simp only [List.mem_cons, List.not_mem_nil, or_false] at hquotes
  rcases hquotes with rfl | rfl | rfl <;> simp [Reader.multiBasic?, closing, hnone]

end Step

theorem multiBasic?_text {s cs rest : List Char} (h : BasicLines s cs)
    (hrest : rest.head? ≠ some '"') :
    Reader.multiBasic? false (cs ++ (closing '"' ++ rest)) = some (s, rest) := by
  induction h with
  | nil => exact multiBasic?_closing (.head _) hrest
  | plain hc hquote hslash _ ih =>
    rw [List.cons_append, multiBasic?_plain hc hslash (Bool.false_and _) (absurd · hquote), ih]
    rfl
  | @quote s cs hfew h ih =>
    rcases few_quotes hfew (closing '"' ++ rest) with rfl | rfl | hmore
    · rw [h.eq_of_quotes (by simp)]
      exact multiBasic?_closing (.tail _ (.head _)) hrest
    · rw [h.eq_of_quotes (by simp)]
      exact multiBasic?_closing (.tail _ (.tail _ (.head _))) hrest
    · rw [List.cons_append, multiBasic?_plain rfl (by decide) (Bool.false_and _) fun _ ↦ hmore, ih]
      rfl
  | lineEnd hending _ ih =>
    rw [List.append_assoc, multiBasic?_lineEnd hending, if_neg nofun, ih]
    rfl
  | escape he _ ih =>
    rw [List.cons_append, List.cons_append, multiBasic?_escape he, ih]
    rfl
  | wide hmark hdigits hc _ ih =>
    rw [List.cons_append, List.cons_append, List.append_assoc,
      multiBasic?_wide hmark (scalar?_eq_some_iff.mpr ⟨_, hdigits, hc⟩), ih]
    rfl
  | @joined _ _ _ _ cs hblanks hending hgap hshown _ ih =>
    have hfront : Shown (cs ++ (closing '"' ++ rest)) := hshown.append (shown_closing rest)
    rw [← ih, ← multiBasic?_shown hfront]
    simp only [List.cons_append, List.append_assoc]
    exact multiBasic?_skip hblanks hending hgap _

/-- A gap that a backslash opens goes on to the end of the line at least. -/
theorem Gap.split {gap tail : List Char} (h : Gap gap) (htail : Shown tail)
    (hjoins : Reader.joinsLines (gap ++ tail) = true) :
    ∃ blanks ending gap', Blanks blanks ∧ ending ∈ lineEnds ∧ Gap gap' ∧
      gap = blanks ++ (ending ++ gap') := by
  induction h with
  | nil =>
    rw [List.nil_append, joinsLines_of_shown htail] at hjoins
    exact nomatch hjoins
  | @blank c cs hc _ ih =>
    have hskip : Reader.joinsLines (c :: (cs ++ tail)) = Reader.joinsLines (cs ++ tail) := by
      rw [Reader.joinsLines, Reader.joinsLines, Reader.skipBlank, List.dropWhile_cons_of_pos hc]
      rfl
    obtain ⟨blanks, ending, gap', hblanks, hending, hgap, rfl⟩ := ih (hskip.symm.trans hjoins)
    exact ⟨c :: blanks, ending, gap', List.forall_mem_cons.mpr ⟨hc, hblanks⟩, hending, hgap, rfl⟩
  | @lineEnd ending cs hending h _ =>
    exact ⟨[], ending, cs, List.forall_mem_nil _, hending, h, rfl⟩

/-- What a string is read from: its text and the closing quotes, and blanks and line ends
in front if a backslash has joined the line to the one before. -/
def ClosedLines (joining : Bool) (s cs rest : List Char) : Prop :=
  ∃ gap body, Gap gap ∧ (joining = false → gap = []) ∧ (joining = true → Shown body) ∧
    BasicLines s body ∧ cs = gap ++ (body ++ (closing '"' ++ rest))

section ClosedLines

variable {joining : Bool} {s cs body rest : List Char}

theorem ClosedLines.of_body (h : BasicLines s body) (hshown : joining = true → Shown body) :
    ClosedLines joining s (body ++ (closing '"' ++ rest)) rest :=
  ⟨[], body, .nil, fun _ ↦ rfl, hshown, h, rfl⟩

theorem ClosedLines.exists_body (h : ClosedLines false s cs rest) :
    ∃ body, BasicLines s body ∧ cs = body ++ (closing '"' ++ rest) := by
  obtain ⟨gap, body, -, hgap, -, hbody, rfl⟩ := h
  obtain rfl := hgap rfl
  exact ⟨body, hbody, rfl⟩

theorem ClosedLines.skip {gap : List Char} (hgap : Gap gap) (h : ClosedLines true s cs rest) :
    ClosedLines true s (gap ++ cs) rest := by
  obtain ⟨gap', body, hgap', -, hshown, hbody, rfl⟩ := h
  exact ⟨gap ++ gap', body, hgap.append hgap', nofun, hshown, hbody, (List.append_assoc ..).symm⟩

theorem ClosedLines.lineEnd {ending : List Char} (hending : ending ∈ lineEnds)
    (hjoining : ¬ joining = true) (h : ClosedLines false s cs rest) :
    ClosedLines joining ('\n' :: s) (ending ++ cs) rest := by
  obtain ⟨body, hbody, rfl⟩ := h.exists_body
  rw [← List.append_assoc]
  exact .of_body (.lineEnd hending hbody) fun hj ↦ absurd hj hjoining

/-- A character after a backslash, and the digits that belong to it. -/
theorem ClosedLines.wide {mark c : Char} {digits : List Char}
    (hmark : (mark, digits.length) ∈ wideEscapes) (hread : Reader.scalar? digits = some c)
    (h : ClosedLines false s cs rest) :
    ClosedLines joining (c :: s) ('\\' :: mark :: (digits ++ cs)) rest := by
  obtain ⟨body, hbody, rfl⟩ := h.exists_body
  obtain ⟨ds, hds, hc⟩ := scalar?_eq_some_iff.mp hread
  have hwide := BasicLines.wide hmark hds hc hbody
  rw [← List.append_assoc]
  exact .of_body hwide fun _ ↦ by simp [Shown]

theorem ClosedLines.joined (hjoins : Reader.joinsLines cs = true)
    (h : ClosedLines true s cs rest) : ClosedLines joining s ('\\' :: cs) rest := by
  obtain ⟨gap, body, hgap, -, hshown, hbody, rfl⟩ := h
  obtain ⟨blanks, ending, gap', hblanks, hending, hgap', rfl⟩ :=
    hgap.split ((hshown rfl).append (shown_closing rest)) hjoins
  have hjoined := BasicLines.joined hblanks hending hgap' (hshown rfl) hbody
  have hall : ClosedLines joining s _ rest := .of_body hjoined fun _ ↦ by simp [Shown]
  simpa using hall

end ClosedLines

theorem closedLines_of_multiBasic? {joining : Bool} {cs s rest : List Char}
    (h : Reader.multiBasic? joining cs = some (s, rest)) : ClosedLines joining s cs rest := by
  fun_induction Reader.multiBasic? joining cs generalizing s with
  | case1 =>
    obtain ⟨rfl, rfl⟩ := Prod.mk.inj (Option.some.inj h)
    exact .of_body (.quote (by decide) (.quote (by decide) .nil)) fun _ ↦ by simp [Shown]
  | case2 =>
    obtain ⟨rfl, rfl⟩ := Prod.mk.inj (Option.some.inj h)
    exact .of_body (.quote (by decide) .nil) fun _ ↦ by simp [Shown]
  | case3 =>
    obtain ⟨rfl, rfl⟩ := Prod.mk.inj (Option.some.inj h)
    exact .of_body .nil fun _ ↦ nofun
  | case4 rest' ih => exact .skip (.lineEnd crlf_mem .nil) (ih h)
  | case6 rest' ih => exact .skip (.lineEnd lf_mem .nil) (ih h)
  | case5 joining rest' hjoining ih =>
    obtain ⟨c, text, hread, hrest, rfl⟩ := before_eq_some_iff.mp h
    obtain rfl := Option.some.inj hread
    exact .lineEnd crlf_mem hjoining (ih hrest)
  | case7 joining rest' hjoining ih =>
    obtain ⟨c, text, hread, hrest, rfl⟩ := before_eq_some_iff.mp h
    obtain rfl := Option.some.inj hread
    exact .lineEnd lf_mem hjoining (ih hrest)
  | case8 joining a b c d rest' ih =>
    obtain ⟨c', text, hread, hrest, rfl⟩ := before_eq_some_iff.mp h
    exact .wide (.head _) hread (ih hrest)
  | case9 joining a b c d e f g h' rest' ih =>
    obtain ⟨c', text, hread, hrest, rfl⟩ := before_eq_some_iff.mp h
    exact .wide (.tail _ (.head _)) hread (ih hrest)
  | case10 joining c rest' _ _ hjoins ih => exact .joined hjoins (ih h)
  | case11 joining e rest' _ _ _ ih =>
    obtain ⟨c, text, hread, hrest, rfl⟩ := before_eq_some_iff.mp h
    obtain ⟨body, hbody, rfl⟩ := (ih hrest).exists_body
    exact .of_body (.escape (mem_of_escape? hread) hbody) fun _ ↦ by simp [Shown]
  | case12 joining c rest' _ _ _ _ _ _ _ _ hblank ih =>
    obtain ⟨rfl, hc⟩ := Bool.and_eq_true_iff.mp hblank
    exact .skip (.blank hc .nil) (ih h)
  | case13 joining c rest' _ _ hthree _ hline _ _ hslash hblank hplain ih =>
    obtain ⟨c', text, hread, hrest, rfl⟩ := before_eq_some_iff.mp h
    obtain rfl := Option.some.inj hread
    obtain ⟨body, hbody, rfl⟩ := (ih hrest).exists_body
    have hshown : joining = true → Shown (c :: body) := by
      rintro rfl _ ⟨⟩ hmem
      simp only [List.mem_cons, List.not_mem_nil, or_false] at hmem
      rcases hmem with rfl | rfl | rfl | rfl
      · exact hblank rfl
      · exact hblank rfl
      · exact nomatch hplain
      · exact nomatch hplain
    by_cases hquote : c = '"'
    · subst hquote
      refine .of_body (.quote (fun htwo ↦ ?_) hbody) hshown
      obtain ⟨more, rfl⟩ := htwo
      exact hthree _ rfl rfl
    · obtain ⟨d, more, hmore⟩ :=
        List.exists_cons_of_ne_nil (show body ++ (closing '"' ++ rest) ≠ [] by simp [closing])
      exact .of_body (.plain hplain hquote (fun hc ↦ hslash d more hc hmore) hbody) hshown
  | case14 => exact nomatch h
  | case15 => exact nomatch h

/-- A string of several lines ends at three quotes, and one or two more may belong to it;
so no quote comes after it. -/
theorem multiBasic?_eq_some_iff {cs s rest : List Char} (hrest : rest.head? ≠ some '"') :
    Reader.multiBasic? false cs = some (s, rest) ↔
      ∃ body, BasicLines s body ∧ cs = body ++ (closing '"' ++ rest) := by
  constructor
  · exact fun h ↦ (closedLines_of_multiBasic? h).exists_body
  · rintro ⟨body, h, rfl⟩
    exact multiBasic?_text h hrest

theorem multiLiteral?_eq_some_iff {cs s rest : List Char} (hrest : rest.head? ≠ some '\'') :
    Reader.multiLiteral? cs = some (s, rest) ↔
      ∃ body, LiteralLines s body ∧ cs = body ++ (closing '\'' ++ rest) := by
  constructor
  · exact literalLines_of_multiLiteral?
  · rintro ⟨body, h, rfl⟩
    exact multiLiteral?_text h hrest

/-! ### The first line end -/

theorem dropFirstLineEnd_of_not {cs : List Char} (h : ∀ ending ∈ lineEnds, ¬ ending <+: cs) :
    Reader.dropFirstLineEnd cs = cs := by
  unfold Reader.dropFirstLineEnd
  split
  · exact absurd (List.prefix_append ['\n'] _) (h _ lf_mem)
  · exact absurd (List.prefix_append ['\r', '\n'] _) (h _ crlf_mem)
  · rfl

theorem dropFirstLineEnd_opened {shown body tail : List Char} (h : Opened shown body)
    (htail : ∀ c ∈ tail.head?, c ≠ '\n' ∧ c ≠ '\r') :
    Reader.dropFirstLineEnd (shown ++ tail) = body ++ tail := by
  cases h with
  | lineEnd hending => rcases lineEnd_cases hending with rfl | rfl <;> rfl
  | here h =>
    refine dropFirstLineEnd_of_not fun ending hending hprefix ↦ ?_
    have hshown := List.prefix_append shown tail
    rcases Nat.le_total ending.length shown.length with hle | hle
    · exact h ending hending (List.prefix_of_prefix_length_le hprefix hshown hle)
    · obtain ⟨more, rfl⟩ := List.prefix_of_prefix_length_le hshown hprefix hle
      -- what is missing of the line end would have to stand in front of the tail
      obtain ⟨left, rfl⟩ := (List.prefix_append_right_inj shown).mp hprefix
      cases more with
      | nil => exact h _ hending (by simp)
      | cons c more =>
        have hmem : c ∈ shown ++ c :: more := by simp
        have hc := htail c rfl
        rcases lineEnd_cases hending with heq | heq <;> rw [heq] at hmem <;> simp [hc] at hmem

theorem exists_opened {cs body tail : List Char}
    (h : Reader.dropFirstLineEnd cs = body ++ tail) :
    ∃ shown, Opened shown body ∧ cs = shown ++ tail := by
  unfold Reader.dropFirstLineEnd at h
  split at h
  · exact ⟨_, .lineEnd lf_mem, by rw [h]; rfl⟩
  · exact ⟨_, .lineEnd crlf_mem, by rw [h]; rfl⟩
  · rename_i hlf hcrlf
    refine ⟨body, .here fun ending hending hprefix ↦ ?_, h⟩
    obtain ⟨more, rfl⟩ := hprefix
    rcases lineEnd_cases hending with rfl | rfl
    · exact hlf _ h
    · exact hcrlf _ h

end Enrollment.Toml
