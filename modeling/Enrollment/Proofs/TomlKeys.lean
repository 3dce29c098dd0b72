import Mathlib.Data.List.TakeWhile
import Enrollment.Proofs.TomlMultiline
namespace Enrollment.Toml

/-!
# How a key may be written

A key is bare or a string, and dots join keys to a path.  Blanks may stand around the
dots, and a comment at the end of a line.  The reader takes these texts and no others.
-/

/-! ### Blanks and comments -/

inductive CommentText : List Char → Prop
  | none : CommentText []
  | comment {cs : List Char} (h : ∀ c ∈ cs, Reader.isPlain c) : CommentText ('#' :: cs)

/-- Blanks, comments and line ends inside an empty list. -/
inductive VoidText : List Char → Prop
  | blanks {b : List Char} (h : Blanks b) : VoidText b
  | line {b comment ending cs : List Char} (hb : Blanks b) (hcomment : CommentText comment)
      (hending : ending ∈ lineEnds) (h : VoidText cs) : VoidText (b ++ (comment ++ (ending ++ cs)))

theorem blanks_nil : Blanks [] := nofun

theorem Blanks.append {b b' : List Char} (h : Blanks b) (h' : Blanks b') : Blanks (b ++ b') :=
  List.forall_mem_append.mpr ⟨h, h'⟩

theorem skipBlank_blanks {blanks rest : List Char} (h : Blanks blanks)
    (hrest : ∀ c ∈ rest.head?, Reader.isBlank c = false) :
    Reader.skipBlank (blanks ++ rest) = rest :=
  dropWhile_run h hrest

theorem skipBlank_cons {blanks : List Char} {c : Char} (h : Blanks blanks)
    (hc : Reader.isBlank c = false) (rest : List Char) :
    Reader.skipBlank (blanks ++ c :: rest) = c :: rest := by
  refine skipBlank_blanks h ?_
  rintro _ ⟨⟩
  exact hc

theorem exists_blanks (cs : List Char) : ∃ b, Blanks b ∧ cs = b ++ Reader.skipBlank cs :=
  ⟨cs.takeWhile Reader.isBlank, fun _ hc ↦ List.mem_takeWhile_imp hc,
    List.takeWhile_append_dropWhile.symm⟩

/-- What is true of both blanks, and of the front of a text, is true of the front of
that text after blanks. -/
theorem Blanks.head {p : Char → Prop} {blanks rest : List Char} (h : Blanks blanks)
    (hspace : p ' ') (htab : p '\t') (hrest : ∀ c ∈ rest.head?, p c) :
    ∀ c ∈ (blanks ++ rest).head?, p c := by
  cases blanks with
  | nil => exact hrest
  | cons b blanks =>
    rintro c ⟨⟩
    have hblank := h b (by simp)
    simp only [Reader.isBlank, Bool.or_eq_true, beq_iff_eq] at hblank
    rcases hblank with rfl | rfl
    · exact hspace
    · exact htab

theorem lineEnd_head {ending : List Char} (h : ending ∈ lineEnds) (rest : List Char) :
    ∀ c ∈ (ending ++ rest).head?, c ∈ ['\n', '\r'] := by
  rcases lineEnd_cases h with rfl | rfl <;> simp

theorem skipComment_comment {comment tail : List Char} (h : CommentText comment)
    (htail : ∀ c ∈ tail.head?, c ≠ '#' ∧ Reader.isPlain c = false) :
    Reader.skipComment (comment ++ tail) = tail := by
  cases h with
  | none =>
    rw [List.nil_append, Reader.skipComment]
    rintro rest rfl
    exact absurd rfl (htail '#' rfl).1
  | comment h => exact dropWhile_run h fun c hc ↦ (htail c hc).2

/-- Blanks and a comment before the end of a line are skipped. -/
theorem skipBlanks_comment {blanks comment tail : List Char} (hblanks : Blanks blanks)
    (hcomment : CommentText comment) (htail : ∀ c ∈ tail.head?, c ∈ ['\n', '\r']) :
    Reader.skipComment (Reader.skipBlank (blanks ++ (comment ++ tail))) = tail := by
  have hall : ∀ c ∈ ['\n', '\r'], c ≠ '#' ∧ Reader.isPlain c = false ∧
      Reader.isBlank c = false := by
    simp [Reader.isPlain, Reader.isBlank]
  have hshown : ∀ c ∈ (comment ++ tail).head?, Reader.isBlank c = false := by
    cases hcomment with
    | none => exact fun c hc ↦ (hall c (htail c hc)).2.2
    | comment =>
      rintro _ ⟨⟩
      rfl
  rw [skipBlank_blanks hblanks hshown]
  exact skipComment_comment hcomment fun c hc ↦
    ⟨(hall c (htail c hc)).1, (hall c (htail c hc)).2.1⟩

/-- A comment goes on to the first character that may not stand in it. -/
theorem exists_comment (cs : List Char) :
    ∃ comment, CommentText comment ∧ cs = comment ++ Reader.skipComment cs ∧
      (comment = [] ∨ ∀ c ∈ (Reader.skipComment cs).head?, Reader.isPlain c = false) := by
  unfold Reader.skipComment
  split
  · rename_i rest
    refine ⟨'#' :: rest.takeWhile Reader.isPlain, .comment fun _ hc ↦ List.mem_takeWhile_imp hc, ?_,
      .inr fun c hc ↦ ?_⟩
    · rw [List.cons_append, List.takeWhile_append_dropWhile]
    · have hstop := List.head?_dropWhile_not Reader.isPlain rest
      rwa [hc] at hstop
  · exact ⟨[], .none, rfl, .inl rfl⟩

/-! ### Keys -/

/-- A key: bare, in double or in single quotes. -/
inductive KeyText : String → List Char → Prop
  | bare {cs : List Char} (hne : cs ≠ []) (h : ∀ c ∈ cs, Reader.isBareKey c) :
      KeyText (String.ofList cs) cs
  | basic {s cs : List Char} (h : BasicText s cs) :
      KeyText (String.ofList s) ('"' :: (cs ++ ['"']))
  | literal {s : List Char} (h : LiteralText s) : KeyText (String.ofList s) ('\'' :: (s ++ ['\'']))

/-- Keys with dots between them, and blanks after each and before each but the first. -/
inductive PathText : List String → List Char → Prop
  | last {key : String} {k b : List Char} (hkey : KeyText key k) (hb : Blanks b) :
      PathText [key] (k ++ b)
  | dotted {key : String} {path : List String} {k b b' cs : List Char} (hkey : KeyText key k)
      (hb : Blanks b) (hb' : Blanks b') (h : PathText path cs) :
      PathText (key :: path) (k ++ (b ++ '.' :: (b' ++ cs)))

/-- No key starts with any of these. -/
def keyless : List Char := [' ', '\t', '#', '\n', '\r', '[', '\x7d', '\uFEFF']

theorem KeyText.head {key : String} {k : List Char} (h : KeyText key k) :
    ∃ c more, k = c :: more ∧ c ∉ keyless := by
  cases h with
  | bare hne h =>
    obtain ⟨c, more, rfl⟩ := List.exists_cons_of_ne_nil hne
    refine ⟨c, more, rfl, fun hmem ↦ ?_⟩
    have hall : ∀ c ∈ keyless, Reader.isBareKey c = false := by
      simp [keyless, Reader.isBareKey]
    exact absurd (h c (by simp)) (by simp [hall c hmem])
  | basic h => exact ⟨'"', _, rfl, by decide⟩
  | literal h => exact ⟨'\'', _, rfl, by decide⟩

theorem PathText.head {path : List String} {cs : List Char} (h : PathText path cs) :
    ∃ c more, cs = c :: more ∧ c ∉ keyless := by
  cases h with
  | last hkey =>
    obtain ⟨c, more, rfl, hc⟩ := hkey.head
    exact ⟨c, _, rfl, hc⟩
  | dotted hkey =>
    obtain ⟨c, more, rfl, hc⟩ := hkey.head
    exact ⟨c, _, rfl, hc⟩

theorem not_blank_of_not_mem {c : Char} (h : c ∉ keyless) : Reader.isBlank c = false := by
  simp only [keyless, List.mem_cons, not_or] at h
  simp [Reader.isBlank, h.1, h.2.1]

/-- A key ends where no bare key could go on. -/
theorem simpleKey?_text {key : String} {cs rest : List Char} (h : KeyText key cs)
    (hrest : ∀ c ∈ rest.head?, Reader.isBareKey c = false) :
    Reader.simpleKey? (cs ++ rest) = some (key, rest) := by
  cases h with
  | bare hne h =>
    have htake := takeWhile_run h hrest
    have hdrop := dropWhile_run h hrest
    obtain ⟨c, more, rfl⟩ := List.exists_cons_of_ne_nil hne
    have hbare : Reader.isBareKey c := h c (by simp)
    rw [List.cons_append] at htake hdrop ⊢
    rw [Reader.simpleKey?, htake, hdrop]
    · rintro rest' heq
      obtain rfl := (List.cons.inj heq).1
      exact absurd hbare (by decide)
    · rintro rest' heq
      obtain rfl := (List.cons.inj heq).1
      exact absurd hbare (by decide)
  | basic h =>
    rw [List.cons_append, List.append_assoc, Reader.simpleKey?, List.singleton_append,
      basic?_text h]
    rfl
  | literal h =>
    rw [List.cons_append, List.append_assoc, Reader.simpleKey?, List.singleton_append,
      literal?_eq_some_iff.mpr ⟨h, rfl⟩]
    rfl

theorem keyText_of_simpleKey? {key : String} {cs rest : List Char}
    (h : Reader.simpleKey? cs = some (key, rest)) : ∃ k, KeyText key k ∧ cs = k ++ rest := by
  unfold Reader.simpleKey? at h
  split at h
  · obtain ⟨⟨s, left⟩, hread, heq⟩ := Option.map_eq_some_iff.mp h
    cases heq
    obtain ⟨body, hbody, rfl⟩ := basic?_eq_some_iff.mp hread
    exact ⟨_, .basic hbody, by simp⟩
  · obtain ⟨⟨s, left⟩, hread, heq⟩ := Option.map_eq_some_iff.mp h
    cases heq
    obtain ⟨hs, rfl⟩ := literal?_eq_some_iff.mp hread
    exact ⟨_, .literal hs, by simp⟩
  · split at h
    · exact nomatch h
    · rename_i hne
      cases h
      exact ⟨_, .bare hne fun _ hc ↦ List.mem_takeWhile_imp hc,
        List.takeWhile_append_dropWhile.symm⟩

/-- The first key of a path is read, with the blanks around it. -/
theorem path?_key {key : String} {k b₁ b₂ : List Char} {c : Char} (hkey : KeyText key k)
    (h₁ : Blanks b₁) (h₂ : Blanks b₂) (hc : c ∈ ['=', '.', ']']) (rest : List Char) (fuel : Nat) :
    Reader.path? (fuel + 1) (b₁ ++ (k ++ (b₂ ++ c :: rest))) =
      if c = '.' then (Reader.path? fuel rest).map fun (keys, rest) ↦ (key :: keys, rest)
      else some ([key], c :: rest) := by
  have hplain : ∀ c ∈ ['=', '.', ']'], Reader.isBlank c = false ∧ Reader.isBareKey c = false := by
    simp [Reader.isBlank, Reader.isBareKey]
  have hafter : ∀ d ∈ (b₂ ++ c :: rest).head?, Reader.isBareKey d = false := by
    refine h₂.head rfl rfl ?_
    rintro d ⟨⟩
    exact (hplain c hc).2
  have hread := simpleKey?_text hkey hafter
  obtain ⟨d, more, rfl, hd⟩ := hkey.head
  rw [List.cons_append] at hread ⊢
  rw [Reader.path?, skipBlank_cons h₁ (not_blank_of_not_mem hd), hread]
  simp only [Option.bind_eq_bind, Option.bind_some, skipBlank_cons h₂ (hplain c hc).1]
  simp only [List.mem_cons, List.not_mem_nil, or_false] at hc
  rcases hc with rfl | rfl | rfl
  · rfl
  · show (Reader.path? fuel rest).bind _ = _
    rw [if_pos rfl]
    cases Reader.path? fuel rest <;> rfl
  · rfl

theorem path?_text {path : List String} {cs b : List Char} (h : PathText path cs) (hb : Blanks b)
    {c : Char} (hc : c ∈ ['=', ']']) (rest : List Char) {fuel : Nat} (hfuel : cs.length ≤ fuel) :
    Reader.path? (fuel + 1) (b ++ (cs ++ c :: rest)) = some (path, c :: rest) := by
  have hc' : c ∈ ['=', '.', ']'] := (by decide : ['=', ']'] ⊆ ['=', '.', ']']) hc
  have hdot : c ≠ '.' := by
    rintro rfl
    simp at hc
  induction h generalizing b fuel with
  | last hkey hb' => rw [List.append_assoc, path?_key hkey hb hb' hc', if_neg hdot]
  | @dotted key path k b₁ b₂ cs hkey h₁ h₂ _ ih =>
    simp only [List.length_append, List.length_cons] at hfuel
    obtain ⟨fuel, rfl⟩ : ∃ n, fuel = n + 1 := ⟨fuel - 1, by omega⟩
    have hread := ih h₂ (show cs.length ≤ fuel by omega)
    have hfirst := path?_key hkey hb h₁ (c := '.') (by simp) (b₂ ++ (cs ++ c :: rest)) (fuel + 1)
    rw [if_pos rfl, hread, Option.map_some] at hfirst
    simpa using hfirst

theorem pathText_of_path? {fuel : Nat} {path : List String} {cs rest : List Char}
    (h : Reader.path? fuel cs = some (path, rest)) :
    ∃ b front, Blanks b ∧ PathText path front ∧ cs = b ++ (front ++ rest) := by
  induction fuel generalizing path cs with
  | zero => exact nomatch h
  | succ fuel ih =>
    rw [Reader.path?] at h
    obtain ⟨⟨key, left⟩, hread, h⟩ := Option.bind_eq_some_iff.mp h
    obtain ⟨k, hkey, hk⟩ := keyText_of_simpleKey? hread
    obtain ⟨b, hb, hcs⟩ := exists_blanks cs
    obtain ⟨b', hb', hleft⟩ := exists_blanks left
    simp only at h
    split at h
    · rename_i more hdot
      obtain ⟨⟨keys, left'⟩, hkeys, heq⟩ := Option.bind_eq_some_iff.mp h
      cases heq
      obtain ⟨b'', front, hb'', hfront, rfl⟩ := ih hkeys
      refine ⟨b, _, hb, .dotted hkey hb' hb'' hfront, ?_⟩
      rw [hcs, hk, hleft, hdot]
      simp
    · cases h
      exact ⟨b, _, hb, .last hkey hb', by rw [hcs, hk, List.append_assoc, ← hleft]⟩

end Enrollment.Toml
