import Enrollment.Proofs.TomlValues
namespace Enrollment.Toml

/-!
# Lines of a settings document

A line gives a path its value, opens a table or does neither, with blanks where they may
stand and a comment at its end.  The reader makes one statement of each line that says
something, and what it makes statements of are such lines.  Where a line opens a key it
makes a statement about that key or refuses the document, whatever comes after the key.
-/

/-- A setting, or the header of a table. -/
inductive StatementText : Statement → List Char → Prop
  | header {path : List String} {p b : List Char} (hb : Blanks b) (hpath : PathText path p) :
      StatementText (.header path) ('[' :: (b ++ (p ++ [']'])))
  | entry {path : List String} {v : Value} {cs : List Char} (h : EntryText (path, v) cs) :
      StatementText (.entry path v) cs

/-- A line without its end, and the statement on it.  Inside a string or an empty list it
may go on over other line ends. -/
inductive LineText : Option Statement → List Char → Prop
  | empty {blanks comment : List Char} (hblanks : Blanks blanks) (hcomment : CommentText comment) :
      LineText none (blanks ++ comment)
  | statement {s : Statement} {b b' cs comment : List Char} (hb : Blanks b)
      (h : StatementText s cs) (hb' : Blanks b') (hcomment : CommentText comment) :
      LineText (some s) (b ++ (cs ++ (b' ++ comment)))

/-- Lines with their ends, and the statements on them in their order. -/
inductive LinesText : List Statement → List Char → Prop
  | nil : LinesText [] []
  | cons {line : Option Statement} {ss : List Statement} {cs ending rest : List Char}
      (h : LineText line cs) (hending : ending ∈ lineEnds) (hrest : LinesText ss rest) :
      LinesText (line.toList ++ ss) (cs ++ (ending ++ rest))

/-- The text opens a key at its front, in a setting, in the header of a table or in
that of a list of tables; after the key, anything may follow. -/
inductive OpensKey (key : String) : List Char → Prop
  | setting {k b₁ b₂ : List Char} {c : Char} (hkey : KeyText key k) (h₁ : Blanks b₁)
      (h₂ : Blanks b₂) (hc : c ∈ ['=', '.']) (rest : List Char) :
      OpensKey key (b₁ ++ (k ++ (b₂ ++ c :: rest)))
  | header {k b₁ b₂ b₃ : List Char} {c : Char} (hkey : KeyText key k) (h₁ : Blanks b₁)
      (h₂ : Blanks b₂) (h₃ : Blanks b₃) (hc : c ∈ [']', '.']) (rest : List Char) :
      OpensKey key (b₁ ++ '[' :: (b₂ ++ (k ++ (b₃ ++ c :: rest))))
  | list {k b₁ b₂ b₃ : List Char} {c : Char} (hkey : KeyText key k) (h₁ : Blanks b₁)
      (h₂ : Blanks b₂) (h₃ : Blanks b₃) (hc : c ∈ [']', '.']) (rest : List Char) :
      OpensKey key (b₁ ++ '[' :: '[' :: (b₂ ++ (k ++ (b₃ ++ c :: rest))))

/-! ### Ends of lines -/

/-- What stands where a line ends, and what is left after its end. -/
inductive LineEnd : List Char → List Char → Prop
  | last : LineEnd [] []
  | ending {ending : List Char} (h : ending ∈ lineEnds) (rest : List Char) :
      LineEnd (ending ++ rest) rest

theorem LineEnd.head {tail rest : List Char} (h : LineEnd tail rest) :
    ∀ c ∈ tail.head?, c ∈ ['\n', '\r'] := by
  cases h with
  | last => nofun
  | ending h => exact lineEnd_head h rest

theorem lineEnd?_eq_some_iff {tail rest : List Char} :
    Reader.lineEnd? tail = some rest ↔ LineEnd tail rest := by
  constructor
  · intro h
    unfold Reader.lineEnd? at h
    split at h
    · obtain rfl := Option.some.inj h
      exact .last
    · obtain rfl := Option.some.inj h
      exact .ending lf_mem _
    · obtain rfl := Option.some.inj h
      exact .ending crlf_mem _
    · exact nomatch h
  · intro h
    cases h with
    | last => rfl
    | ending h => rcases lineEnd_cases h with rfl | rfl <;> rfl

/-- The end of a line, with a comment before it or without, ends an entry. -/
theorem endsEntry_comment {comment tail rest : List Char} (h : CommentText comment)
    (hend : LineEnd tail rest) : EndsEntry (comment ++ tail) := by
  have hall : ∀ c ∈ ['#', '\n', '\r'], c ∈ [' ', '\t', '#', '\n', '\r', ',', '\x7d'] ∧
      Reader.isBlank c = false := by
    simp [Reader.isBlank]
  have hhead : ∀ c ∈ (comment ++ tail).head?, c ∈ ['#', '\n', '\r'] := by
    cases h with
    | none => exact fun c hc ↦ List.mem_cons_of_mem _ (hend.head c hc)
    | comment h => simp
  exact ⟨fun c hc ↦ (hall c (hhead c hc)).1, fun c hc ↦ (hall c (hhead c hc)).2⟩

/-! ### Statements -/

/-- The statement of a line that gives a key of the document a value. -/
def setting (m : String × Value) : Statement := .entry [m.1] m.2

def Statement.path : Statement → List String
  | .header path => path
  | .entry path _ => path

/-- What stands on a line that gives a key of the document a value. -/
theorem lineText_setting {key : String} {value : Value} {k v b₁ b₂ b₃ b₄ comment : List Char}
    (hkey : KeyText key k) (hvalue : ValueText value v) (h₁ : Blanks b₁) (h₂ : Blanks b₂)
    (h₃ : Blanks b₃) (h₄ : Blanks b₄) (hcomment : CommentText comment) :
    LineText (some (setting (key, value)))
      (b₁ ++ (k ++ (b₂ ++ '=' :: (b₃ ++ (v ++ (b₄ ++ comment)))))) := by
  have hentry := StatementText.entry (.mk (.last hkey h₂) h₃ hvalue)
  simpa [setting] using LineText.statement h₁ hentry h₄ hcomment

theorem StatementText.head {s : Statement} {cs : List Char} (h : StatementText s cs) :
    ∃ c more, cs = c :: more ∧ c ∉ [' ', '\t', '#', '\n', '\r', '\uFEFF'] := by
  cases h with
  | header => exact ⟨'[', _, rfl, by decide⟩
  | entry h =>
    obtain ⟨c, more, rfl, hc⟩ := h.head
    refine ⟨c, more, rfl, ?_⟩
    simp only [keyless, List.mem_cons, not_or] at hc ⊢
    tauto

/-- A line that starts with a key is read as a setting. -/
theorem statement?_entry {c : Char} (hc : c ∉ keyless) (rest : List Char) :
    Reader.statement? (c :: rest) =
      (Reader.assignment? (3 * (c :: rest).length + 3) (c :: rest)).map
        fun ((path, value), rest) ↦ (.entry path value, rest) := by
  rw [Reader.statement?]
  rintro rest' ⟨⟩
  exact hc (by decide)

theorem statement?_text {s : Statement} {cs b rest : List Char} (h : StatementText s cs)
    (hb : Blanks b) (hrest : EndsEntry rest) :
    Reader.statement? (cs ++ (b ++ rest)) = some (s, rest) := by
  cases h with
  | @header path p b' hb' hpath =>
    have hfuel : p.length ≤ (b' ++ (p ++ ']' :: (b ++ rest))).length := by
      simp only [List.length_append, List.length_cons]
      omega
    have hread := path?_text hpath hb' (show ']' ∈ ['=', ']'] by simp) (b ++ rest) hfuel
    simp only [List.cons_append, List.append_assoc, List.nil_append]
    rw [Reader.statement?, hread]
    simp only [Option.bind_eq_bind, Option.bind_some, skipBlank_blanks hb hrest.2, Option.pure_def]
  | entry h =>
    have hread := (readsWritten (3 * (cs ++ (b ++ rest)).length + 3)).assignment h blanks_nil hb
      hrest (by simp; omega)
    obtain ⟨c, more, rfl, hc⟩ := h.head
    rw [List.nil_append] at hread
    rw [List.cons_append] at hread ⊢
    rw [statement?_entry hc, hread]
    rfl

theorem statementText_of_statement? {s : Statement} {cs rest : List Char}
    (h : Reader.statement? cs = some (s, rest)) :
    ∃ b front b', Blanks b ∧ StatementText s front ∧ Blanks b' ∧
      cs = b ++ (front ++ (b' ++ rest)) := by
  unfold Reader.statement? at h
  split at h
  · obtain ⟨⟨path, left⟩, hpath, hafter⟩ := Option.bind_eq_some_iff.mp h
    obtain ⟨b, p, hb, hp, rfl⟩ := pathText_of_path? hpath
    simp only at hafter
    split at hafter
    · rename_i more
      cases hafter
      obtain ⟨b', hb', hmore⟩ := exists_blanks more
      exact ⟨[], _, b', blanks_nil, .header hb hp, hb', by simp [← hmore]⟩
    · exact nomatch hafter
  · obtain ⟨⟨⟨path, v⟩, left⟩, hread, heq⟩ := Option.map_eq_some_iff.mp h
    cases heq
    obtain ⟨b, front, b', hb, hfront, hb', hcs⟩ := (readsOnly _).assignment hread
    exact ⟨b, front, b', hb, .entry hfront, hb', hcs⟩

/-! ### Lines -/

/-- A line on which something stands is not skipped. -/
theorem statements?_statement {c : Char} (hc : c ∉ [' ', '\t', '#', '\n', '\r'])
    {blanks : List Char} (hblanks : Blanks blanks) (rest : List Char) (fuel : Nat) :
    Reader.statements? (fuel + 1) (blanks ++ c :: rest) =
      (Reader.statement? (c :: rest)).bind fun (statement, rest) ↦
        (Reader.lineEnd? (Reader.skipComment (Reader.skipBlank rest))).bind fun rest ↦
          (Reader.statements? fuel rest).map (statement :: ·) := by
  simp only [List.mem_cons, List.not_mem_nil, or_false, not_or] at hc
  have hblank : Reader.isBlank c = false := by simp [Reader.isBlank, hc]
  have hcomment : Reader.skipComment (c :: rest) = c :: rest := by
    rw [Reader.skipComment]
    rintro rest' heq
    simp [hc] at heq
  have hend : Reader.lineEnd? (c :: rest) = none := by
    unfold Reader.lineEnd?
    split <;> simp_all
  rw [Reader.statements?, skipBlank_cons hblanks hblank]
  simp only [hcomment, hend, Option.map_eq_bind, Function.comp_def, Option.bind_eq_bind,
    Option.pure_def]

theorem statements?_blanks {blanks comment tail rest : List Char} (hblanks : Blanks blanks)
    (hcomment : CommentText comment) (hend : LineEnd tail rest) (fuel : Nat) :
    Reader.statements? (fuel + 2) (blanks ++ (comment ++ tail)) =
      Reader.statements? (fuel + 1) rest := by
  have hfront : Reader.skipBlank (blanks ++ (comment ++ tail)) = comment ++ tail :=
    skipBlank_blanks hblanks (endsEntry_comment hcomment hend).2
  have hskip := skipBlanks_comment hblanks hcomment hend.head
  rw [hfront] at hskip
  rw [Reader.statements?, hfront]
  cases hshown : comment ++ tail with
  | nil =>
    obtain ⟨-, rfl⟩ := List.append_eq_nil_iff.mp hshown
    obtain rfl : [] = rest := Option.some.inj (lineEnd?_eq_some_iff.mpr hend)
    rfl
  | cons c more =>
    rw [hshown] at hskip
    simp only [hskip, lineEnd?_eq_some_iff.mpr hend]

/-- A line is read as the statement on it, if there is one. -/
theorem statements?_line {line : Option Statement} {cs tail rest : List Char}
    (h : LineText line cs) (hend : LineEnd tail rest) (fuel : Nat) :
    Reader.statements? (fuel + 2) (cs ++ tail) =
      (Reader.statements? (fuel + 1) rest).map (line.toList ++ ·) := by
  cases h with
  | empty hblanks hcomment =>
    rw [List.append_assoc, statements?_blanks hblanks hcomment hend]
    simp
  | statement hb h hb' hcomment =>
    have hread := statement?_text h hb' (endsEntry_comment hcomment hend)
    have hback := skipBlanks_comment blanks_nil hcomment hend.head
    obtain ⟨c, more, rfl, hc⟩ := h.head
    have hc' : c ∉ [' ', '\t', '#', '\n', '\r'] := by
      simp only [List.mem_cons, not_or] at hc ⊢
      tauto
    simp only [List.append_assoc, List.cons_append, List.nil_append] at hread hback ⊢
    rw [statements?_statement hc' hb, hread]
    simp only [Option.bind_some]
    rw [hback, lineEnd?_eq_some_iff.mpr hend]
    rfl

/-- Lines are read as the statements on them, and what is after them stays. -/
theorem statements?_lines {ss : List Statement} {body : List Char} (h : LinesText ss body) :
    ∃ count ≤ body.length, ∀ (fuel : Nat) (rest : List Char),
      Reader.statements? (fuel + 1 + count) (body ++ rest) =
        (Reader.statements? (fuel + 1) rest).map (ss ++ ·) := by
  induction h with
  | nil => exact ⟨0, by simp, by simp⟩
  | @cons line ss cs ending more h hending _ ih =>
    obtain ⟨count, hcount, hread⟩ := ih
    have hsome : 1 ≤ ending.length := by
      rcases lineEnd_cases hending with rfl | rfl <;> simp
    refine ⟨count + 1, by simp only [List.length_append]; omega, fun fuel rest ↦ ?_⟩
    have hfuel : fuel + 1 + (count + 1) = fuel + count + 2 := by omega
    have hfuel' : fuel + count + 1 = fuel + 1 + count := by omega
    rw [List.append_assoc, List.append_assoc, hfuel,
      statements?_line h (.ending hending (more ++ rest)), hfuel', hread, Option.map_map]
    simp [Function.comp_def]

theorem statements?_nil {fuel : Nat} {ss : List Statement}
    (h : Reader.statements? fuel [] = some ss) : ss = [] := by
  cases fuel with
  | zero => exact nomatch h
  | succ fuel => exact (Option.some.inj h).symm

/-- What stands where the line has ended is made of lines of which only the last has no
end, and with the line in front it still is. -/
theorem exists_lines_cons {line : Option Statement} {cs tail rest : List Char} {fuel : Nat}
    {ss : List Statement} (hline : LineText line cs) (hend : LineEnd tail rest)
    (hread : Reader.statements? fuel rest = some ss)
    (hrest : ∃ given body last cs, LinesText given body ∧ LineText last cs ∧
      rest = body ++ cs ∧ ss = given ++ last.toList) :
    ∃ given body last cs', LinesText given body ∧ LineText last cs' ∧
      cs ++ tail = body ++ cs' ∧ line.toList ++ ss = given ++ last.toList := by
  cases hend with
  | last =>
    obtain rfl := statements?_nil hread
    exact ⟨[], [], line, cs, .nil, hline, by simp, by simp⟩
  | ending hending =>
    obtain ⟨given, body, last, cs', hbody, hlast, rfl, rfl⟩ := hrest
    exact ⟨_, _, last, cs', .cons hline hending hbody, hlast, by simp, by simp⟩

theorem linesText_of_statements? {fuel : Nat} {cs : List Char} {ss : List Statement}
    (h : Reader.statements? fuel cs = some ss) :
    ∃ given body last cs', LinesText given body ∧ LineText last cs' ∧
      cs = body ++ cs' ∧ ss = given ++ last.toList := by
  induction fuel generalizing cs ss with
  | zero => exact nomatch h
  | succ fuel ih =>
    obtain ⟨b, hb, hcs⟩ := exists_blanks cs
    rw [Reader.statements?] at h
    split at h
    · rename_i hskip
      cases h
      rw [hskip] at hcs
      exact ⟨[], [], none, cs, .nil, hcs ▸ .empty hb .none, rfl, rfl⟩
    · obtain ⟨comment, hcomment, hshown, -⟩ := exists_comment (Reader.skipBlank cs)
      split at h
      · rename_i rest hend
        have hall := exists_lines_cons (.empty hb hcomment) (lineEnd?_eq_some_iff.mp hend) h (ih h)
        rw [List.append_assoc, ← hshown, ← hcs] at hall
        exact hall
      · obtain ⟨⟨s, left⟩, hs, hafter⟩ := Option.bind_eq_some_iff.mp h
        obtain ⟨rest, hend, hafter⟩ := Option.bind_eq_some_iff.mp hafter
        obtain ⟨more, hmore, heq⟩ := Option.bind_eq_some_iff.mp hafter
        cases heq
        obtain ⟨b', front, b'', hb', hfront, hb'', hfound⟩ := statementText_of_statement? hs
        obtain ⟨b₃, hb₃, hleft⟩ := exists_blanks left
        obtain ⟨comment', hcomment', hshown', -⟩ := exists_comment (Reader.skipBlank left)
        have hline := LineText.statement (hb.append hb') hfront (hb''.append hb₃) hcomment'
        have hall := exists_lines_cons hline (lineEnd?_eq_some_iff.mp hend) hmore (ih hmore)
        have hwhole : b ++ b' ++ (front ++ (b'' ++ b₃ ++ comment')) ++
            Reader.skipComment (Reader.skipBlank left) = cs := by
          simp only [List.append_assoc]
          rw [← hshown', ← hleft, ← hfound, ← hcs]
        rw [hwhole] at hall
        exact hall

/-! ### Keys that are opened -/

theorem path?_head {key : String} {k b₁ b₂ : List Char} {c : Char} (hkey : KeyText key k)
    (h₁ : Blanks b₁) (h₂ : Blanks b₂) (hc : c ∈ ['=', '.', ']']) {rest : List Char} {fuel : Nat}
    {path : List String} {left : List Char}
    (h : Reader.path? fuel (b₁ ++ (k ++ (b₂ ++ c :: rest))) = some (path, left)) :
    path.head? = some key := by
  cases fuel with
  | zero => exact nomatch h
  | succ fuel =>
    rw [path?_key hkey h₁ h₂ hc] at h
    split at h
    · obtain ⟨⟨keys, left⟩, -, heq⟩ := Option.map_eq_some_iff.mp h
      obtain ⟨rfl, -⟩ := Prod.mk.inj heq
      rfl
    · obtain ⟨rfl, -⟩ := Prod.mk.inj (Option.some.inj h)
      rfl

theorem path_of_assignment? {fuel : Nat} {cs rest : List Char} {path : List String} {value : Value}
    (h : Reader.assignment? fuel cs = some ((path, value), rest)) :
    ∃ left, Reader.path? (cs.length + 1) cs = some (path, left) := by
  cases fuel with
  | zero => simp at h
  | succ fuel =>
    rw [Reader.assignment?] at h
    obtain ⟨⟨path', left⟩, hpath, hmore⟩ := Option.bind_eq_some_iff.mp h
    simp only at hmore
    split at hmore
    · obtain ⟨⟨value', left'⟩, -, heq⟩ := Option.bind_eq_some_iff.mp hmore
      simp only [Option.pure_def, Option.some.injEq, Prod.mk.injEq] at heq
      obtain ⟨⟨rfl, -⟩, -⟩ := heq
      exact ⟨_, hpath⟩
    · cases hmore

theorem statement?_of_statements? {c : Char} (hc : c ∉ [' ', '\t', '#', '\n', '\r'])
    {blanks rest : List Char} (hblanks : Blanks blanks) {fuel : Nat} {ss : List Statement}
    (h : Reader.statements? fuel (blanks ++ c :: rest) = some ss) :
    ∃ s left more, Reader.statement? (c :: rest) = some (s, left) ∧ ss = s :: more := by
  cases fuel with
  | zero => exact nomatch h
  | succ fuel =>
    rw [statements?_statement hc hblanks] at h
    obtain ⟨⟨s, left⟩, hs, h⟩ := Option.bind_eq_some_iff.mp h
    obtain ⟨after, -, h⟩ := Option.bind_eq_some_iff.mp h
    obtain ⟨more, -, rfl⟩ := Option.map_eq_some_iff.mp h
    exact ⟨s, left, more, hs, rfl⟩

theorem head_of_setting {key : String} {k b : List Char} {c : Char} (hkey : KeyText key k)
    (hb : Blanks b) (hc : c ∈ ['=', '.']) {rest left : List Char} {s : Statement}
    (h : Reader.statement? (k ++ (b ++ c :: rest)) = some (s, left)) : s.path.head? = some key := by
  have hc' : c ∈ ['=', '.', ']'] := (by decide : ['=', '.'] ⊆ ['=', '.', ']']) hc
  obtain ⟨d, more, rfl, hd⟩ := hkey.head
  rw [List.cons_append, statement?_entry hd] at h
  obtain ⟨⟨⟨path, value⟩, left⟩, hread, heq⟩ := Option.map_eq_some_iff.mp h
  obtain ⟨rfl, -⟩ := Prod.mk.inj heq
  obtain ⟨left, hpath⟩ := path_of_assignment? hread
  exact path?_head hkey blanks_nil hb hc' hpath

theorem head_of_header {key : String} {k b₁ b₂ : List Char} {c : Char} (hkey : KeyText key k)
    (h₁ : Blanks b₁) (h₂ : Blanks b₂) (hc : c ∈ [']', '.']) {rest left : List Char}
    {s : Statement}
    (h : Reader.statement? ('[' :: (b₁ ++ (k ++ (b₂ ++ c :: rest)))) = some (s, left)) :
    s.path.head? = some key := by
  have hc' : c ∈ ['=', '.', ']'] := (by decide : [']', '.'] ⊆ ['=', '.', ']']) hc
  rw [Reader.statement?] at h
  obtain ⟨⟨path, left⟩, hpath, h⟩ := Option.bind_eq_some_iff.mp h
  simp only at h
  split at h
  · obtain ⟨rfl, -⟩ := Prod.mk.inj (Option.some.inj h)
    exact path?_head hkey h₁ h₂ hc' hpath
  · exact nomatch h

/-- A list of tables is no setting. -/
theorem statement?_list (rest : List Char) : Reader.statement? ('[' :: '[' :: rest) = none := by
  have hkey : Reader.simpleKey? (Reader.skipBlank ('[' :: rest)) = none := rfl
  rw [Reader.statement?, Reader.path?, hkey]
  rfl

/-- Whatever comes after an opened key, what is read first is a statement about it,
if anything is read at all. -/
theorem statements?_opens {key : String} {cs : List Char} (h : OpensKey key cs) {fuel : Nat}
    {ss : List Statement} (hread : Reader.statements? fuel cs = some ss) :
    ∃ s more, ss = s :: more ∧ s.path.head? = some key := by
  cases h with
  | setting hkey h₁ h₂ hc rest =>
    obtain ⟨c, k, rfl, hfirst⟩ := hkey.head
    have hshown : c ∉ [' ', '\t', '#', '\n', '\r'] := by
      simp only [keyless, List.mem_cons, not_or] at hfirst ⊢
      tauto
    obtain ⟨s, left, more, hs, rfl⟩ := statement?_of_statements? hshown h₁ hread
    exact ⟨s, more, rfl, head_of_setting hkey h₂ hc hs⟩
  | header hkey h₁ h₂ h₃ hc rest =>
    obtain ⟨s, left, more, hs, rfl⟩ := statement?_of_statements? (by decide) h₁ hread
    exact ⟨s, more, rfl, head_of_header hkey h₂ h₃ hc hs⟩
  | list hkey h₁ h₂ h₃ hc rest =>
    obtain ⟨s, left, more, hs, -⟩ := statement?_of_statements? (by decide) h₁ hread
    rw [statement?_list] at hs
    cases hs

end Enrollment.Toml
