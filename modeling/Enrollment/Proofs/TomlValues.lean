import Enrollment.Proofs.TomlKeys
namespace Enrollment.Toml

/-!
# How a value may be written

A value is a string of one of four forms, a number, an empty list, or an inline table of
further settings.  The reader takes these texts and no others.
-/

mutual

inductive ValueText : Value → List Char → Prop
  | basic {s cs : List Char} (h : BasicText s cs) :
      ValueText (.text (String.ofList s)) ('"' :: (cs ++ ['"']))
  | basicLines {s cs shown : List Char} (h : BasicLines s cs) (hshown : Opened shown cs) :
      ValueText (.text (String.ofList s)) (closing '"' ++ (shown ++ closing '"'))
  | literal {s : List Char} (h : LiteralText s) :
      ValueText (.text (String.ofList s)) ('\'' :: (s ++ ['\'']))
  | literalLines {s cs shown : List Char} (h : LiteralLines s cs) (hshown : Opened shown cs) :
      ValueText (.text (String.ofList s)) (closing '\'' ++ (shown ++ closing '\''))
  | number {n : Int} {cs : List Char} (h : NumberText n cs) (hn : InRange n) :
      ValueText (.integer n) cs
  | emptyList {cs : List Char} (h : VoidText cs) : ValueText .emptyList ('[' :: (cs ++ [']']))
  | emptyTable {b : List Char} (hb : Blanks b) : ValueText (.inline []) ('\x7b' :: (b ++ ['\x7d']))
  | table {b cs : List Char} {entries : List (List String × Value)} (hb : Blanks b)
      (h : EntriesText entries cs) :
      ValueText (.inline entries) ('\x7b' :: (b ++ (cs ++ ['\x7d'])))

/-- A path, its value, and the sign between them. -/
inductive EntryText : List String × Value → List Char → Prop
  | mk {path : List String} {v : Value} {p b cs : List Char} (hpath : PathText path p)
      (hb : Blanks b) (h : ValueText v cs) : EntryText (path, v) (p ++ '=' :: (b ++ cs))

/-- Entries with commas between them. -/
inductive EntriesText : List (List String × Value) → List Char → Prop
  | last {e : List String × Value} {cs b : List Char} (h : EntryText e cs) (hb : Blanks b) :
      EntriesText [e] (cs ++ b)
  | more {e : List String × Value} {entries : List (List String × Value)} {cs b b' ds : List Char}
      (h : EntryText e cs) (hb : Blanks b) (hb' : Blanks b') (hmore : EntriesText entries ds) :
      EntriesText (e :: entries) (cs ++ (b ++ ',' :: (b' ++ ds)))

end

theorem EntryText.head {e : List String × Value} {cs : List Char} (h : EntryText e cs) :
    ∃ c more, cs = c :: more ∧ c ∉ keyless := by
  obtain ⟨hpath, hb, h⟩ := h
  obtain ⟨c, more, rfl, hc⟩ := hpath.head
  exact ⟨c, _, rfl, hc⟩

theorem EntriesText.head {entries : List (List String × Value)} {cs : List Char}
    (h : EntriesText entries cs) : ∃ c more, cs = c :: more ∧ c ∉ keyless := by
  cases h with
  | last h hb =>
    obtain ⟨c, more, rfl, hc⟩ := h.head
    exact ⟨c, _, rfl, hc⟩
  | more h =>
    obtain ⟨c, more, rfl, hc⟩ := h.head
    exact ⟨c, _, rfl, hc⟩

theorem NumberText.head {n : Int} {cs : List Char} (h : NumberText n cs) :
    ∃ c more, cs = c :: more ∧ c ∉ [' ', '\t', '"', '\'', '[', '\x7b'] := by
  cases h with
  | decimal h =>
    obtain ⟨d, c, more, rfl, hc⟩ := h.head
    have hmark := not_mark_of_isDigit hc
    simp only [List.mem_cons, List.not_mem_nil, or_false, not_or] at hmark ⊢
    exact ⟨c, more, rfl, hmark.2.2⟩
  | plus h => exact ⟨'+', _, rfl, by decide⟩
  | minus h => exact ⟨'-', _, rfl, by decide⟩
  | marked hmark h => exact ⟨'0', _, rfl, by decide⟩

theorem ValueText.head {v : Value} {cs : List Char} (h : ValueText v cs) :
    ∃ c more, cs = c :: more ∧ Reader.isBlank c = false := by
  cases h with
  | number h =>
    obtain ⟨c, more, rfl, hc⟩ := h.head
    simp only [List.mem_cons, not_or] at hc
    exact ⟨c, more, rfl, by simp [Reader.isBlank, hc.1, hc.2.1]⟩
  | basic | basicLines | literal | literalLines | emptyList | emptyTable | table =>
    exact ⟨_, _, rfl, rfl⟩

/-! ### What is written is read -/

section Written

variable {rest : List Char}

theorem EndsValue.head_ne (h : EndsValue rest) {c : Char}
    (hc : c ∉ [' ', '\t', '#', '\n', '\r', ',', '\x7d']) : rest.head? ≠ some c :=
  fun hhead ↦ hc (h c hhead)

/-- A string on one line is not taken for one of several lines. -/
theorem BasicText.not_three {s cs : List Char} (h : BasicText s cs) (hrest : EndsValue rest)
    (more : List Char) : cs ++ '"' :: rest ≠ '"' :: '"' :: more := by
  intro heq
  cases h with
  | nil =>
    obtain rfl : rest = '"' :: more := by simpa using heq
    exact hrest.head_ne (by decide) rfl
  | plain _ hquote => exact hquote (List.cons.inj heq).1
  | escape => exact absurd (List.cons.inj heq).1 (by decide)
  | wide => exact absurd (List.cons.inj heq).1 (by decide)

theorem LiteralText.not_three {s : List Char} (h : LiteralText s) (hrest : EndsValue rest)
    (more : List Char) : s ++ '\'' :: rest ≠ '\'' :: '\'' :: more := by
  intro heq
  cases s with
  | nil =>
    obtain rfl : rest = '\'' :: more := by simpa using heq
    exact hrest.head_ne (by decide) rfl
  | cons c s => exact (h c List.mem_cons_self).2 (List.cons.inj heq).1

theorem skipLines_void {cs : List Char} (h : VoidText cs) (rest : List Char) {fuel : Nat}
    (hfuel : cs.length < fuel) : Reader.skipLines fuel (cs ++ ']' :: rest) = ']' :: rest := by
  induction h generalizing fuel with
  | @blanks b hb =>
    obtain ⟨fuel, rfl⟩ : ∃ n, fuel = n + 1 := ⟨fuel - 1, by omega⟩
    rw [Reader.skipLines, skipBlank_cons hb rfl]
    rfl
  | @line b comment ending cs hb hcomment hending _ ih =>
    simp only [List.length_append] at hfuel
    obtain ⟨fuel, rfl⟩ : ∃ n, fuel = n + 1 := ⟨fuel - 1, by omega⟩
    have hsome : ending.length ≠ 0 := by
      rcases lineEnd_cases hending with rfl | rfl <;> simp
    have hread := ih (show cs.length < fuel by omega)
    have hfront := skipBlanks_comment hb hcomment (lineEnd_head hending (cs ++ ']' :: rest))
    simp only [List.append_assoc]
    rw [Reader.skipLines, hfront]
    rcases lineEnd_cases hending with rfl | rfl <;> exact hread

theorem value?_basic {s cs : List Char} (h : BasicText s cs) (hrest : EndsValue rest) (fuel : Nat) :
    Reader.value? (fuel + 1) ('"' :: (cs ++ '"' :: rest)) =
      some (.text (String.ofList s), rest) := by
  rw [Reader.value?, basic?_text h rest]
  · rfl
  · exact fun more heq ↦ h.not_three hrest more heq

theorem value?_literal {s : List Char} (h : LiteralText s) (hrest : EndsValue rest) (fuel : Nat) :
    Reader.value? (fuel + 1) ('\'' :: (s ++ '\'' :: rest)) =
      some (.text (String.ofList s), rest) := by
  rw [Reader.value?, literal?_eq_some_iff.mpr ⟨h, rfl⟩]
  · rfl
  · exact fun more heq ↦ h.not_three hrest more heq

theorem value?_basicLines {s cs shown : List Char} (h : BasicLines s cs) (hshown : Opened shown cs)
    (hrest : EndsValue rest) (fuel : Nat) :
    Reader.value? (fuel + 1) (closing '"' ++ (shown ++ (closing '"' ++ rest))) =
      some (.text (String.ofList s), rest) := by
  have htail : ∀ c ∈ (closing '"' ++ rest).head?, c ≠ '\n' ∧ c ≠ '\r' := by simp [closing]
  have hdrop := dropFirstLineEnd_opened hshown htail
  have hread := (multiBasic?_eq_some_iff (hrest.head_ne (by decide))).mpr ⟨cs, h, rfl⟩
  simp only [closing, List.cons_append, List.nil_append] at hdrop hread ⊢
  rw [Reader.value?, hdrop, hread]
  rfl

theorem value?_literalLines {s cs shown : List Char} (h : LiteralLines s cs)
    (hshown : Opened shown cs) (hrest : EndsValue rest) (fuel : Nat) :
    Reader.value? (fuel + 1) (closing '\'' ++ (shown ++ (closing '\'' ++ rest))) =
      some (.text (String.ofList s), rest) := by
  have htail : ∀ c ∈ (closing '\'' ++ rest).head?, c ≠ '\n' ∧ c ≠ '\r' := by simp [closing]
  have hdrop := dropFirstLineEnd_opened hshown htail
  have hread := (multiLiteral?_eq_some_iff (hrest.head_ne (by decide))).mpr ⟨cs, h, rfl⟩
  simp only [closing, List.cons_append, List.nil_append] at hdrop hread ⊢
  rw [Reader.value?, hdrop, hread]
  rfl

theorem value?_number {n : Int} {cs : List Char} (h : NumberText n cs) (hn : InRange n)
    (hrest : EndsValue rest) (fuel : Nat) :
    Reader.value? (fuel + 1) (cs ++ rest) = some (.integer n, rest) := by
  have hread := integer?_text h hn hrest
  obtain ⟨c, more, rfl, hc⟩ := h.head
  simp only [List.mem_cons, List.not_mem_nil, or_false, not_or] at hc
  rw [List.cons_append] at hread ⊢
  unfold Reader.value?
  split
  case h_7 => rw [hread]; rfl
  all_goals
    rename_i heq
    simp [hc] at heq

theorem value?_emptyList {cs : List Char} (h : VoidText cs) (rest : List Char) (fuel : Nat) :
    Reader.value? (fuel + 1) ('[' :: (cs ++ ']' :: rest)) = some (.emptyList, rest) := by
  have hfuel : cs.length < (cs ++ ']' :: rest).length + 1 := by
    simp only [List.length_append]
    omega
  have hskip := skipLines_void h rest hfuel
  rw [Reader.value?, hskip]
  rfl

theorem value?_emptyTable {b : List Char} (hb : Blanks b) (rest : List Char) (fuel : Nat) :
    Reader.value? (fuel + 1) ('\x7b' :: (b ++ '\x7d' :: rest)) = some (.inline [], rest) := by
  rw [Reader.value?, skipBlank_cons hb rfl]
  rfl

/-- An inline table is read as its entries, which no closing brace stands before. -/
theorem value?_table {b cs : List Char} {c : Char} (hb : Blanks b) (hc : c ∉ keyless)
    (fuel : Nat) :
    Reader.value? (fuel + 1) ('\x7b' :: (b ++ c :: cs)) =
      (Reader.assignments? fuel (c :: cs)).map fun (entries, rest) ↦ (.inline entries, rest) := by
  rw [Reader.value?, skipBlank_cons hb (not_blank_of_not_mem hc)]
  split
  · rename_i heq
    obtain ⟨rfl, -⟩ := List.cons.inj heq
    exact absurd hc (by decide)
  · rfl

theorem endsValue_blanks {b : List Char} (hb : Blanks b) (hrest : EndsValue rest) :
    EndsValue (b ++ rest) :=
  hb.head (by simp) (by simp) hrest

/-- What stands after an entry and its blanks. -/
def EndsEntry (rest : List Char) : Prop :=
  EndsValue rest ∧ ∀ c ∈ rest.head?, Reader.isBlank c = false

theorem assignment?_value {path : List String} {v : Value} {p b b₀ b₁ cs : List Char}
    (hb₀ : Blanks b₀) (hpath : PathText path p) (hb : Blanks b) (hv : ValueText v cs)
    (hb₁ : Blanks b₁) (hrest : EndsEntry rest) {fuel : Nat}
    (hread : Reader.value? fuel (cs ++ (b₁ ++ rest)) = some (v, b₁ ++ rest)) :
    Reader.assignment? (fuel + 1) (b₀ ++ ((p ++ '=' :: (b ++ cs)) ++ (b₁ ++ rest))) =
      some ((path, v), rest) := by
  have hfront : Reader.skipBlank (b ++ (cs ++ (b₁ ++ rest))) = cs ++ (b₁ ++ rest) := by
    obtain ⟨c, more, rfl, hc⟩ := hv.head
    exact skipBlank_cons hb hc _
  have hfuel : p.length ≤ (b₀ ++ ((p ++ '=' :: (b ++ cs)) ++ (b₁ ++ rest))).length := by
    simp only [List.length_append]
    omega
  have hkeys := path?_text hpath hb₀ (show '=' ∈ ['=', ']'] by simp)
    (b ++ (cs ++ (b₁ ++ rest))) hfuel
  rw [Reader.assignment?]
  simp only [List.append_assoc, List.cons_append] at hkeys ⊢
  rw [hkeys]
  simp only [Option.bind_eq_bind, Option.bind_some, hfront, hread, skipBlank_blanks hb₁ hrest.2,
    Option.pure_def]

end Written

/-- With this much fuel whatever is written is read. -/
structure ReadsWritten (fuel : Nat) : Prop where
  value : ∀ {v cs rest}, ValueText v cs → EndsValue rest → cs.length ≤ fuel →
    Reader.value? fuel (cs ++ rest) = some (v, rest)
  assignment : ∀ {e b b' cs rest}, EntryText e cs → Blanks b → Blanks b' → EndsEntry rest →
    cs.length ≤ fuel → Reader.assignment? fuel (b ++ (cs ++ (b' ++ rest))) = some (e, rest)
  assignments : ∀ {entries b cs}, EntriesText entries cs → Blanks b → cs.length < fuel →
    ∀ rest, Reader.assignments? fuel (b ++ (cs ++ '\x7d' :: rest)) = some (entries, rest)

section ReadsWritten

variable {fuel : Nat} {b b' cs rest : List Char}

theorem ReadsWritten.value_succ (hread : ReadsWritten fuel) {v : Value} (h : ValueText v cs)
    (hrest : EndsValue rest) (hfuel : cs.length ≤ fuel + 1) :
    Reader.value? (fuel + 1) (cs ++ rest) = some (v, rest) := by
  cases h with
  | basic h => simpa using value?_basic h hrest fuel
  | basicLines h hshown => simpa using value?_basicLines h hshown hrest fuel
  | literal h => simpa using value?_literal h hrest fuel
  | literalLines h hshown => simpa using value?_literalLines h hshown hrest fuel
  | number h hn => exact value?_number h hn hrest fuel
  | emptyList h => simpa using value?_emptyList h rest fuel
  | emptyTable hb => simpa using value?_emptyTable hb rest fuel
  | table hb h =>
    simp only [List.length_cons, List.length_append] at hfuel
    have hentries := hread.assignments h blanks_nil (by omega) rest
    obtain ⟨c, more, rfl, hc⟩ := h.head
    simp only [List.cons_append, List.append_assoc, List.nil_append] at hentries ⊢
    rw [value?_table hb hc, hentries]
    rfl

theorem ReadsWritten.assignment_succ (hread : ReadsWritten fuel) {e : List String × Value}
    (h : EntryText e cs) (hb : Blanks b) (hb' : Blanks b') (hrest : EndsEntry rest)
    (hfuel : cs.length ≤ fuel + 1) :
    Reader.assignment? (fuel + 1) (b ++ (cs ++ (b' ++ rest))) = some (e, rest) := by
  obtain ⟨hpath, hbetween, hv⟩ := h
  simp only [List.length_append, List.length_cons] at hfuel
  have hvalue := hread.value hv (endsValue_blanks hb' hrest.1) (by omega)
  exact assignment?_value hb hpath hbetween hv hb' hrest hvalue

theorem ReadsWritten.assignments_succ (hread : ReadsWritten fuel)
    {entries : List (List String × Value)} (h : EntriesText entries cs) (hb : Blanks b)
    (hfuel : cs.length < fuel + 1) (rest : List Char) :
    Reader.assignments? (fuel + 1) (b ++ (cs ++ '\x7d' :: rest)) = some (entries, rest) := by
  cases h with
  | last h hb' =>
    simp only [List.length_append] at hfuel
    have hends : EndsEntry ('\x7d' :: rest) := by simp [EndsEntry, EndsValue, Reader.isBlank]
    have hentry := hread.assignment h hb hb' hends (by omega)
    rw [Reader.assignments?, List.append_assoc, hentry]
    rfl
  | @more e entries cs b₁ b₂ ds h hb₁ hb₂ hmore =>
    simp only [List.length_append, List.length_cons] at hfuel
    have hends : EndsEntry (',' :: (b₂ ++ (ds ++ '\x7d' :: rest))) := by
      simp [EndsEntry, EndsValue, Reader.isBlank]
    have hentry := hread.assignment h hb hb₁ hends (by omega)
    have hentries := hread.assignments hmore hb₂ (by omega) rest
    rw [Reader.assignments?]
    simp only [List.append_assoc, List.cons_append] at hentry ⊢
    simp only [hentry, Option.bind_eq_bind, Option.bind_some, hentries, Option.pure_def]

end ReadsWritten

theorem readsWritten (fuel : Nat) : ReadsWritten fuel := by
  induction fuel with
  | zero =>
    refine ⟨fun h _ hfuel ↦ ?_, fun h _ _ _ hfuel ↦ ?_, fun _ _ hfuel ↦ absurd hfuel (by simp)⟩
    · obtain ⟨c, more, rfl, -⟩ := h.head
      simp at hfuel
    · obtain ⟨c, more, rfl, -⟩ := h.head
      simp at hfuel
  | succ fuel ih => exact ⟨ih.value_succ, ih.assignment_succ, ih.assignments_succ⟩

/-! ### What is read was written -/

theorem voidText_of_skipLines {fuel : Nat} {cs rest : List Char}
    (h : Reader.skipLines fuel cs = ']' :: rest) :
    ∃ front, VoidText front ∧ cs = front ++ ']' :: rest := by
  induction fuel generalizing cs with
  | zero => exact ⟨[], .blanks blanks_nil, h⟩
  | succ fuel ih =>
    obtain ⟨b, hb, hcs⟩ := exists_blanks cs
    obtain ⟨comment, hcomment, hshown, hstop⟩ := exists_comment (Reader.skipBlank cs)
    rw [Reader.skipLines] at h
    split at h
    · rename_i more hskip
      obtain ⟨front, hfront, rfl⟩ := ih h
      refine ⟨_, .line hb hcomment (.head _) hfront, ?_⟩
      rw [hcs, hshown, hskip]
      simp
    · rename_i more hskip
      obtain ⟨front, hfront, rfl⟩ := ih h
      refine ⟨_, .line hb hcomment (.tail _ (.head _)) hfront, ?_⟩
      rw [hcs, hshown, hskip]
      simp
    · rcases hstop with rfl | hstop
      · exact ⟨b, .blanks hb, by rw [hcs, hshown, h]; rfl⟩
      · rw [h] at hstop
        exact absurd (hstop ']' rfl) (by decide)

section Read

variable {fuel : Nat} {cs rest : List Char}

/-- With this much fuel whatever is read was written. -/
structure ReadsOnly (fuel : Nat) : Prop where
  value : ∀ {v cs rest}, Reader.value? fuel cs = some (v, rest) →
    ∃ front, ValueText v front ∧ cs = front ++ rest
  assignment : ∀ {e cs rest}, Reader.assignment? fuel cs = some (e, rest) →
    ∃ b front b', Blanks b ∧ EntryText e front ∧ Blanks b' ∧ cs = b ++ (front ++ (b' ++ rest))
  assignments : ∀ {entries cs rest}, Reader.assignments? fuel cs = some (entries, rest) →
    ∃ b front, Blanks b ∧ EntriesText entries front ∧ cs = b ++ (front ++ '\x7d' :: rest)

theorem ReadsOnly.value_succ (hread : ReadsOnly fuel) {v : Value}
    (h : Reader.value? (fuel + 1) cs = some (v, rest)) :
    ∃ front, ValueText v front ∧ cs = front ++ rest := by
  unfold Reader.value? at h
  split at h
  · obtain ⟨⟨s, left⟩, hlines, heq⟩ := Option.map_eq_some_iff.mp h
    cases heq
    obtain ⟨body, hbody, hdrop⟩ := (closedLines_of_multiBasic? hlines).exists_body
    obtain ⟨shown, hshown, rfl⟩ := exists_opened hdrop
    exact ⟨_, .basicLines hbody hshown, by simp [closing]⟩
  · obtain ⟨⟨s, left⟩, hline, heq⟩ := Option.map_eq_some_iff.mp h
    cases heq
    obtain ⟨body, hbody, rfl⟩ := basic?_eq_some_iff.mp hline
    exact ⟨_, .basic hbody, by simp⟩
  · obtain ⟨⟨s, left⟩, hlines, heq⟩ := Option.map_eq_some_iff.mp h
    cases heq
    obtain ⟨body, hbody, hdrop⟩ := literalLines_of_multiLiteral? hlines
    obtain ⟨shown, hshown, rfl⟩ := exists_opened hdrop
    exact ⟨_, .literalLines hbody hshown, by simp [closing]⟩
  · obtain ⟨⟨s, left⟩, hline, heq⟩ := Option.map_eq_some_iff.mp h
    cases heq
    obtain ⟨hs, rfl⟩ := literal?_eq_some_iff.mp hline
    exact ⟨_, .literal hs, by simp⟩
  · split at h
    · rename_i hskip
      cases h
      obtain ⟨front, hfront, rfl⟩ := voidText_of_skipLines hskip
      exact ⟨_, .emptyList hfront, by simp⟩
    · cases h
  · rename_i more
    obtain ⟨b, hb, hmore⟩ := exists_blanks more
    split at h
    · rename_i hskip
      cases h
      exact ⟨_, .emptyTable hb, by rw [hmore, hskip]; simp⟩
    · obtain ⟨⟨entries, left⟩, hentries, heq⟩ := Option.map_eq_some_iff.mp h
      cases heq
      obtain ⟨b', front, hb', hfront, hskip⟩ := hread.assignments hentries
      exact ⟨_, .table (hb.append hb') hfront, by rw [hmore, hskip]; simp⟩
  · obtain ⟨⟨n, left⟩, hnumber, heq⟩ := Option.map_eq_some_iff.mp h
    cases heq
    obtain ⟨hn, front, hfront, rfl⟩ := numberText_of_integer? hnumber
    exact ⟨front, .number hfront hn, rfl⟩

theorem ReadsOnly.assignment_succ (hread : ReadsOnly fuel) {e : List String × Value}
    (h : Reader.assignment? (fuel + 1) cs = some (e, rest)) :
    ∃ b front b', Blanks b ∧ EntryText e front ∧ Blanks b' ∧
      cs = b ++ (front ++ (b' ++ rest)) := by
  rw [Reader.assignment?] at h
  obtain ⟨⟨path, left⟩, hpath, hafter⟩ := Option.bind_eq_some_iff.mp h
  obtain ⟨b, p, hb, hp, rfl⟩ := pathText_of_path? hpath
  simp only at hafter
  split at hafter
  · rename_i more
    obtain ⟨⟨v, left'⟩, hvalue, heq⟩ := Option.bind_eq_some_iff.mp hafter
    cases heq
    obtain ⟨front, hfront, hskip⟩ := hread.value hvalue
    obtain ⟨b₁, hb₁, hmore⟩ := exists_blanks more
    obtain ⟨b₂, hb₂, hleft⟩ := exists_blanks left'
    refine ⟨b, _, b₂, hb, .mk hp hb₁ hfront, hb₂, ?_⟩
    rw [hmore, hskip]
    simp [← hleft]
  · cases hafter

theorem ReadsOnly.assignments_succ (hread : ReadsOnly fuel) {entries : List (List String × Value)}
    (h : Reader.assignments? (fuel + 1) cs = some (entries, rest)) :
    ∃ b front, Blanks b ∧ EntriesText entries front ∧ cs = b ++ (front ++ '\x7d' :: rest) := by
  rw [Reader.assignments?] at h
  obtain ⟨⟨e, left⟩, hentry, hafter⟩ := Option.bind_eq_some_iff.mp h
  obtain ⟨b, front, b', hb, hfront, hb', rfl⟩ := hread.assignment hentry
  simp only at hafter
  split at hafter
  · cases hafter
    exact ⟨b, _, hb, .last hfront hb', by simp⟩
  · obtain ⟨⟨entries', left'⟩, hentries, heq⟩ := Option.bind_eq_some_iff.mp hafter
    cases heq
    obtain ⟨b₂, more, hb₂, hmore, rfl⟩ := hread.assignments hentries
    exact ⟨b, _, hb, .more hfront hb' hb₂ hmore, by simp⟩
  · cases hafter

end Read

theorem readsOnly (fuel : Nat) : ReadsOnly fuel := by
  induction fuel with
  | zero => refine ⟨fun h ↦ ?_, fun h ↦ ?_, fun h ↦ ?_⟩ <;> simp at h
  | succ fuel ih => exact ⟨ih.value_succ, ih.assignment_succ, ih.assignments_succ⟩

end Enrollment.Toml
