import Enrollment.Proofs.Reading
import Enrollment.Text.Blank
namespace Enrollment

/-!
# Lines and the blanks around them

What trimming leaves of a line, and which lines a text is cut into.
-/

namespace Text

/-- A line that shows this text, with blanks around it. -/
def Padded (shown line : List Char) : Prop :=
  ∃ before after : List Char, (∀ c ∈ before, isBlank c) ∧ (∀ c ∈ after, isBlank c) ∧
    line = before ++ shown ++ after

theorem padded_of_all {shown line : List Char} (before after : List Char)
    (hblank : (before ++ after).all isBlank) (h : line = before ++ shown ++ after) :
    Padded shown line := by
  rw [List.all_append, Bool.and_eq_true, List.all_eq_true, List.all_eq_true] at hblank
  exact ⟨before, after, hblank.1, hblank.2, h⟩

theorem Padded.refl (line : List Char) : Padded line line :=
  padded_of_all [] [] rfl (List.append_nil line).symm

/-- Trimming takes away the blanks around a text that neither starts nor ends with
one. -/
theorem trim_of_padded {shown line : List Char} (h : Padded shown line)
    (hhead : ∀ c ∈ shown.head?, isBlank c = false)
    (hlast : ∀ c ∈ shown.getLast?, isBlank c = false) : trim line = shown := by
  obtain ⟨before, after, hbefore, hafter, rfl⟩ := h
  cases shown with
  | nil =>
    have hall : ∀ c ∈ before ++ after, isBlank c := by
      simpa [or_imp, forall_and] using ⟨hbefore, hafter⟩
    have hnone : (before ++ after).dropWhile isBlank = [] := List.dropWhile_eq_nil_iff.mpr hall
    simp [trim, hnone]
  | cons c shown =>
    have hfront : (before ++ (c :: shown ++ after)).dropWhile isBlank = c :: shown ++ after :=
      dropWhile_run hbefore (by simpa using hhead)
    have hback : (after.reverse ++ (c :: shown).reverse).dropWhile isBlank =
        (c :: shown).reverse := by
      refine dropWhile_run (by simpa using hafter) ?_
      rwa [List.head?_reverse]
    rw [trim, List.append_assoc, hfront, List.reverse_append, hback, List.reverse_reverse]

/-- A line shows what is left of it when it is trimmed. -/
theorem padded_trim (line : List Char) : Padded (trim line) line := by
  let rest := line.dropWhile isBlank
  have hrest : rest = trim line ++ (rest.reverse.takeWhile isBlank).reverse := by
    rw [trim, ← List.reverse_append, List.takeWhile_append_dropWhile, List.reverse_reverse]
  refine ⟨line.takeWhile isBlank, (rest.reverse.takeWhile isBlank).reverse, ?_, ?_, ?_⟩
  · exact fun c hc ↦ List.mem_takeWhile_imp hc
  · exact fun c hc ↦ List.mem_takeWhile_imp (List.mem_reverse.mp hc)
  · rw [List.append_assoc, ← hrest]
    exact List.takeWhile_append_dropWhile.symm

theorem mem_trim {c : Char} {line : List Char} (hmem : c ∈ line) (h : isBlank c = false) :
    c ∈ trim line := by
  obtain ⟨before, after, hbefore, hafter, hline⟩ := padded_trim line
  rw [hline, List.mem_append, List.mem_append] at hmem
  rcases hmem with (hmem | hmem) | hmem
  · exact absurd (hbefore c hmem) (by simp [h])
  · exact hmem
  · exact absurd (hafter c hmem) (by simp [h])

theorem lines_append {line : List Char} (h : '\n' ∉ line) (rest : List Char) :
    lines (line ++ '\n' :: rest) = line :: lines rest := by
  induction line with
  | nil => rfl
  | cons c line ih =>
    rw [List.mem_cons, not_or] at h
    rw [List.cons_append, lines, if_neg (Ne.symm h.1), ih h.2]

theorem lines_of_not_mem {line : List Char} (h : '\n' ∉ line) : lines line = [line] := by
  induction line with
  | nil => rfl
  | cons c line ih =>
    rw [List.mem_cons, not_or] at h
    rw [lines, if_neg (Ne.symm h.1), ih h.2]

/-- A text is cut into the lines that were joined. -/
theorem lines_intercalate {ls : List (List Char)} (hne : ls ≠ [])
    (hls : ∀ line ∈ ls, '\n' ∉ line) : lines (['\n'].intercalate ls) = ls := by
  induction ls with
  | nil => exact absurd rfl hne
  | cons line ls ih =>
    rw [List.forall_mem_cons] at hls
    cases ls with
    | nil => simpa [List.intercalate] using lines_of_not_mem hls.1
    | cons next ls =>
      have hrest := ih (by simp) hls.2
      rw [List.intercalate_cons_of_ne_nil (by simp), List.append_assoc, List.singleton_append,
        lines_append hls.1, hrest]

theorem lineFeed_not_mem_of_mem_lines {cs line : List Char} (h : line ∈ lines cs) :
    '\n' ∉ line := by
  fun_induction lines cs generalizing line with
  | case1 =>
    obtain rfl := List.mem_singleton.mp h
    exact List.not_mem_nil
  | case2 cs ih =>
    rcases List.mem_cons.mp h with rfl | hrest
    · exact List.not_mem_nil
    · exact ih hrest
  | case3 c cs hc hnil ih => exact absurd hnil (lines_ne_nil cs)
  | case4 c cs hc first rest hlines ih =>
    rw [hlines] at ih
    rcases List.mem_cons.mp h with rfl | hrest
    · rw [List.mem_cons, not_or]
      exact ⟨Ne.symm hc, ih List.mem_cons_self⟩
    · exact ih (List.mem_cons_of_mem first hrest)

/-- The lines of a text are joined to the text again. -/
theorem intercalate_lines (cs : List Char) : ['\n'].intercalate (lines cs) = cs := by
  fun_induction lines cs with
  | case1 => simp [List.intercalate]
  | case2 cs ih =>
    rw [List.intercalate_cons_of_ne_nil (lines_ne_nil cs), ih]
    simp
  | case3 c cs hc hnil ih => exact absurd hnil (lines_ne_nil cs)
  | case4 c cs hc first rest hlines ih =>
    rw [hlines] at ih
    cases rest with
    | nil => simpa [List.intercalate] using ih
    | cons next rest =>
      rw [List.intercalate_cons_of_ne_nil (by simp)] at ih ⊢
      rw [List.cons_append, List.cons_append, ih]

end Text
end Enrollment
