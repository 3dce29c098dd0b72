import Enrollment.Proofs.TomlLines
import Enrollment.Toml.Table
namespace Enrollment.Toml

/-!
# What a document of settings defines

A document is read as the statements on its lines, and nothing else is read at all.
One whose lines give keys their values defines just these keys, each once.  No statement
takes away a key of the root table, and a value stands under a key of it only if a line
gives it to the key.
-/

/-! ### The text of a document -/

/-- A document of lines with these statements on them, with or without a byte order mark
and with or without an end after its last line. -/
inductive DocumentText : List Statement → String → Prop
  | mk {ss : List Statement} {line : Option Statement} {mark body last : List Char}
      {text : String} (hmark : mark ∈ [[], ['\uFEFF']]) (hbody : LinesText ss body)
      (hlast : LineText line last) (htext : text.toList = mark ++ (body ++ last)) :
      DocumentText (ss ++ line.toList) text

/-- Lines of a document that give keys their values, and then one more that opens a key.
What comes after that key, the other lines of the document or anything else, does not
matter. -/
inductive ExtendedText (given : List (String × Value)) (key : String) : String → Prop
  | mk {mark body extra : List Char} {text : String} (hmark : mark ∈ [[], ['\uFEFF']])
      (hbody : LinesText (given.map setting) body) (hextra : OpensKey key extra)
      (htext : text.toList = mark ++ (body ++ extra)) : ExtendedText given key text

/-- No byte order mark stands at the front. -/
def Unmarked (cs : List Char) : Prop := cs.head? ≠ some '\uFEFF'

theorem Unmarked.append {cs ds : List Char} (hcs : Unmarked cs) (hds : Unmarked ds) :
    Unmarked (cs ++ ds) := by
  cases cs with
  | nil => exact hds
  | cons c cs => exact hcs

theorem Blanks.unmarked {blanks : List Char} (h : Blanks blanks) : Unmarked blanks := by
  cases blanks with
  | nil => nofun
  | cons b blanks =>
    have hb := h b (by simp)
    rintro ⟨⟩
    exact absurd hb (by decide)

theorem CommentText.unmarked {comment : List Char} (h : CommentText comment) :
    Unmarked comment := by
  cases h <;> simp [Unmarked]

theorem KeyText.unmarked {key : String} {k : List Char} (h : KeyText key k) (rest : List Char) :
    Unmarked (k ++ rest) := by
  obtain ⟨c, more, rfl, hc⟩ := h.head
  rintro ⟨⟩
  exact hc (by decide)

theorem StatementText.unmarked {s : Statement} {cs : List Char} (h : StatementText s cs)
    (rest : List Char) : Unmarked (cs ++ rest) := by
  obtain ⟨c, more, rfl, hc⟩ := h.head
  rintro ⟨⟩
  exact hc (by simp)

theorem LineText.unmarked {line : Option Statement} {cs : List Char} (h : LineText line cs) :
    Unmarked cs := by
  cases h with
  | empty hblanks hcomment => exact hblanks.unmarked.append hcomment.unmarked
  | statement hb h => exact hb.unmarked.append (h.unmarked _)

theorem LinesText.unmarked {ss : List Statement} {body : List Char} (h : LinesText ss body) :
    Unmarked body := by
  cases h with
  | nil => nofun
  | cons h hending _ =>
    refine h.unmarked.append ?_
    rcases lineEnd_cases hending with rfl | rfl <;> simp [Unmarked]

theorem OpensKey.unmarked {key : String} {cs : List Char} (h : OpensKey key cs) : Unmarked cs := by
  cases h with
  | setting hkey h₁ => exact h₁.unmarked.append (hkey.unmarked _)
  | header _ h₁ => exact h₁.unmarked.append (by simp [Unmarked])
  | list _ h₁ => exact h₁.unmarked.append (by simp [Unmarked])

theorem statements?_eq {text : String} {mark cs : List Char} (hmark : mark ∈ [[], ['\uFEFF']])
    (h : Unmarked cs) (htext : text.toList = mark ++ cs) :
    statements? text = Reader.statements? (cs.length + 1) cs := by
  simp only [List.mem_cons, List.not_mem_nil, or_false] at hmark
  rcases hmark with rfl | rfl
  · rw [statements?, htext, List.nil_append]
    split
    · exact absurd rfl h
    · rfl
  · rw [statements?, htext]
    rfl

/-- The last line of a document needs no end. -/
theorem statements?_last {line : Option Statement} {last : List Char} (h : LineText line last)
    {fuel : Nat} (hfuel : last.length ≤ fuel) :
    Reader.statements? (fuel + 1) last = some line.toList := by
  have hnil (fuel : Nat) : Reader.statements? (fuel + 1) [] = some [] := rfl
  have hread (fuel : Nat) : Reader.statements? (fuel + 2) (last ++ []) =
      some (line.toList ++ []) := by
    rw [statements?_line h .last, hnil, Option.map_some]
  rw [List.append_nil, List.append_nil] at hread
  cases fuel with
  | succ fuel => exact hread fuel
  | zero =>
    cases h with
    | empty hblanks hcomment =>
      rw [List.eq_nil_of_length_eq_zero (Nat.le_zero.mp hfuel)]
      rfl
    | statement _ h =>
      obtain ⟨c, more, rfl, -⟩ := h.head
      simp at hfuel

/-- The lines at the front of a text are read as the statements on them, with room
enough for what is after them. -/
theorem statements?_front {ss : List Statement} {mark body rest : List Char} {text : String}
    (hmark : mark ∈ [[], ['\uFEFF']]) (hbody : LinesText ss body) (hrest : Unmarked rest)
    (htext : text.toList = mark ++ (body ++ rest)) :
    ∃ fuel, rest.length ≤ fuel ∧
      statements? text = (Reader.statements? (fuel + 1) rest).map (ss ++ ·) := by
  obtain ⟨count, hcount, hread⟩ := statements?_lines hbody
  have hlength : (body ++ rest).length = body.length + rest.length := List.length_append
  have hfuel : (body ++ rest).length + 1 = (body ++ rest).length - count + 1 + count := by omega
  refine ⟨(body ++ rest).length - count, by omega, ?_⟩
  rw [statements?_eq hmark (hbody.unmarked.append hrest) htext, hfuel, hread]

/-- Just the documents of lines are read, each as the statements on its lines. -/
theorem statements?_eq_some_iff {text : String} {ss : List Statement} :
    statements? text = some ss ↔ DocumentText ss text := by
  constructor
  · intro h
    have hmarked (mark cs : List Char) (hmark : mark ∈ [[], ['\uFEFF']])
        (htext : text.toList = mark ++ cs)
        (hread : Reader.statements? (cs.length + 1) cs = some ss) : DocumentText ss text := by
      obtain ⟨given, body, last, cs', hbody, hlast, rfl, rfl⟩ := linesText_of_statements? hread
      exact .mk hmark hbody hlast htext
    rw [statements?] at h
    split at h
    · rename_i cs htext
      exact hmarked ['\uFEFF'] cs (.tail _ (.head _)) htext h
    · exact hmarked [] text.toList (.head _) rfl h
  · rintro ⟨hmark, hbody, hlast, htext⟩
    obtain ⟨fuel, hfuel, hread⟩ := statements?_front hmark hbody hlast.unmarked htext
    rw [hread, statements?_last hlast hfuel, Option.map_some]

/-- What is read of an extended document starts with its lines and goes on with a
statement about the key that is opened. -/
theorem statements?_extended {given : List (String × Value)} {key text : String}
    (h : ExtendedText given key text) {ss : List Statement} (hss : statements? text = some ss) :
    ∃ s more, ss = given.map setting ++ s :: more ∧ s.path.head? = some key := by
  obtain ⟨hmark, hbody, hextra, htext⟩ := h
  obtain ⟨fuel, -, hread⟩ := statements?_front hmark hbody hextra.unmarked htext
  obtain ⟨rest, hrest, rfl⟩ := Option.map_eq_some_iff.mp (hread.symm.trans hss)
  obtain ⟨s, more, rfl, hs⟩ := statements?_opens hextra hrest
  exact ⟨s, more, rfl, hs⟩

/-! ### The tables of a document -/

def Entries.keys (entries : Entries) : List String := entries.map Prod.fst

/-- The leaf of a key that is given a value. -/
def leaf (m : String × Value) : String × Node := (m.1, .leaf m.2)

theorem Entries.mem_keys_put {k key : String} {node : Node} {entries : Entries} :
    k ∈ (entries.put key node).keys ↔ k = key ∨ k ∈ entries.keys := by
  induction entries with
  | nil => simp [Entries.put, Entries.keys]
  | cons e entries ih =>
    obtain ⟨k', n⟩ := e
    simp only [Entries.put, Entries.keys] at ih ⊢
    split
    · rename_i heq
      simp [heq]
    · simp only [List.map_cons, List.mem_cons, ih]
      tauto

theorem Entries.put_of_not_mem {key : String} {node : Node} {entries : Entries}
    (h : key ∉ entries.keys) : entries.put key node = entries ++ [(key, node)] := by
  induction entries with
  | nil => rfl
  | cons e entries ih =>
    obtain ⟨k', n⟩ := e
    simp only [Entries.keys, List.map_cons, List.mem_cons, not_or] at h
    rw [Entries.put, if_neg (Ne.symm h.1), ih h.2, List.cons_append]

theorem Entries.lookup_eq_none_iff {key : String} {entries : Entries} :
    entries.lookup key = none ↔ key ∉ entries.keys := by
  rw [List.lookup_eq_none_iff, Entries.keys, List.mem_map]
  constructor
  · rintro h ⟨e, he, rfl⟩
    simpa using h e he
  · intro h e he
    simpa using fun heq : key = e.1 ↦ h ⟨e, he, heq.symm⟩

theorem Entries.lookup_cons_ne {k k' : String} (h : k ≠ k') (node : Node) (entries : Entries) :
    List.lookup k ((k', node) :: entries) = entries.lookup k := by
  rw [List.lookup_cons, beq_false_of_ne h]

theorem Entries.lookup_put {k key : String} {node : Node} {entries : Entries} :
    (entries.put key node).lookup k = if k = key then some node else entries.lookup k := by
  induction entries with
  | nil =>
    by_cases hk : k = key
    · rw [Entries.put, hk, List.lookup_cons_self, if_pos rfl]
    · rw [Entries.put, lookup_cons_ne hk, if_neg hk]
  | cons e entries ih =>
    obtain ⟨k', n⟩ := e
    by_cases hkey : k' = key
    · subst hkey
      rw [Entries.put, if_pos rfl]
      by_cases hk : k = k'
      · rw [hk, List.lookup_cons_self, if_pos rfl]
      · rw [lookup_cons_ne hk, lookup_cons_ne hk, if_neg hk]
    · rw [Entries.put, if_neg hkey]
      by_cases hk : k = k'
      · rw [hk, List.lookup_cons_self, List.lookup_cons_self, if_neg hkey]
      · rw [lookup_cons_ne hk, lookup_cons_ne hk, ih]

section Put

variable {key : String} {path : List String} {root root' : Entries}

/-! A change at a path puts a node under the first key of the path and leaves all
else as it is.  The node is a table unless the key is given a value by itself. -/

theorem openTable_eq_put (h : openTable (key :: path) root = some root') :
    ∃ origin inner, root' = root.put key (.table origin inner) := by
  cases path with
  | nil =>
    rw [openTable] at h
    split at h
    · exact ⟨_, _, (Option.some.inj h).symm⟩
    · exact ⟨_, _, (Option.some.inj h).symm⟩
    · exact nomatch h
  | cons k path =>
    rw [openTable] at h
    · split at h
      · obtain ⟨inner, -, rfl⟩ := Option.map_eq_some_iff.mp h
        exact ⟨_, _, rfl⟩
      · obtain ⟨inner, -, rfl⟩ := Option.map_eq_some_iff.mp h
        exact ⟨_, _, rfl⟩
      · exact nomatch h
    · simp

theorem define_eq_put {value : Value} {mayGrow : Bool}
    (h : define value (key :: path) mayGrow root = some root') :
    ∃ node, root' = root.put key node ∧ ∀ v, node = .leaf v → path = [] ∧ v = value := by
  cases path with
  | nil =>
    unfold define at h
    split at h
    · exact ⟨_, (Option.some.inj h).symm, fun v hv ↦ ⟨rfl, (Node.leaf.inj hv).symm⟩⟩
    · exact nomatch h
  | cons k path =>
    rw [define] at h
    · split at h
      · obtain ⟨inner, -, rfl⟩ := Option.map_eq_some_iff.mp h
        exact ⟨_, rfl, nofun⟩
      · exact nomatch h
      · obtain ⟨inner, -, rfl⟩ := Option.map_eq_some_iff.mp h
        exact ⟨_, rfl, nofun⟩
      · exact nomatch h
    · simp

theorem within_eq_put {change : Entries → Option Entries}
    (h : within change (key :: path) root = some root') :
    ∃ origin inner, root' = root.put key (.table origin inner) := by
  rw [within] at h
  split at h
  · obtain ⟨inner, -, rfl⟩ := Option.map_eq_some_iff.mp h
    exact ⟨_, _, rfl⟩
  · exact nomatch h

end Put

/-- A key with a value is neither opened nor defined again. -/
theorem openTable_leaf {key : String} {value : Value} {root : Entries}
    (h : root.lookup key = some (.leaf value)) (path : List String) :
    openTable (key :: path) root = none := by
  cases path <;> simp [openTable, h]

theorem define_leaf {key : String} {value : Value} {root : Entries}
    (h : root.lookup key = some (.leaf value)) (value' : Value) (path : List String)
    (mayGrow : Bool) : define value' (key :: path) mayGrow root = none := by
  cases path <;> cases mayGrow <;> simp [define, h]

/-- A statement puts one node into the root table; a value only if it gives a key of
that table its value. -/
theorem step_eq_put {current : List String} {root root' : Entries} {s : Statement}
    {ss : List Statement} (h : build current root (s :: ss) = some root') :
    ∃ current' key node, build current' (root.put key node) ss = some root' ∧
      ∀ v, node = .leaf v → s = setting (key, v) := by
  cases s with
  | header path =>
    obtain ⟨opened, hopened, hrest⟩ := Option.bind_eq_some_iff.mp h
    cases path with
    | nil => exact nomatch hopened
    | cons key path =>
      obtain ⟨origin, inner, rfl⟩ := openTable_eq_put hopened
      exact ⟨_, key, _, hrest, nofun⟩
  | entry path value =>
    obtain ⟨defined, hdefined, hrest⟩ := Option.bind_eq_some_iff.mp h
    cases current with
    | cons key current =>
      obtain ⟨origin, inner, rfl⟩ := within_eq_put hdefined
      exact ⟨_, key, _, hrest, nofun⟩
    | nil =>
      cases path with
      | nil => exact nomatch hdefined
      | cons key path =>
        obtain ⟨node, rfl, hnode⟩ := define_eq_put hdefined
        refine ⟨_, key, node, hrest, fun v hv ↦ ?_⟩
        obtain ⟨rfl, rfl⟩ := hnode v hv
        rfl

/-- No statement takes away a key of the root table. -/
theorem keys_subset_of_build {current : List String} {root root' : Entries} {ss : List Statement}
    (h : build current root ss = some root') : root.keys ⊆ root'.keys := by
  induction ss generalizing current root with
  | nil =>
    obtain rfl := Option.some.inj h
    exact List.Subset.refl _
  | cons s ss ih =>
    obtain ⟨current', key, node, hrest, -⟩ := step_eq_put h
    have hput : root.keys ⊆ (root.put key node).keys :=
      fun k hk ↦ Entries.mem_keys_put.mpr (.inr hk)
    exact List.Subset.trans hput (ih hrest)

/-- A value stands under a key of the root table only if it stood there before or a
statement gives it to the key. -/
theorem setting_mem_of_build {current : List String} {root root' : Entries} {ss : List Statement}
    {key : String} {v : Value} (h : build current root ss = some root')
    (hlookup : root'.lookup key = some (.leaf v)) :
    root.lookup key = some (.leaf v) ∨ setting (key, v) ∈ ss := by
  induction ss generalizing current root with
  | nil =>
    obtain rfl := Option.some.inj h
    exact .inl hlookup
  | cons s ss ih =>
    obtain ⟨current', key', node, hrest, hnode⟩ := step_eq_put h
    rcases ih hrest with hput | hmem
    · rw [Entries.lookup_put] at hput
      split at hput
      · rename_i heq
        subst heq
        exact .inr (hnode v (Option.some.inj hput) ▸ List.mem_cons_self)
      · exact .inl hput
    · exact .inr (List.mem_cons_of_mem _ hmem)

theorem define_key (value : Value) (key : String) (root : Entries) :
    define value [key] true root =
      if key ∈ root.keys then none else some (root ++ [leaf (key, value)]) := by
  split
  · rename_i hmem
    cases hlookup : root.lookup key with
    | none => exact absurd hmem (Entries.lookup_eq_none_iff.mp hlookup)
    | some node => simp [define, hlookup]
  · rename_i hmem
    simp only [define, Entries.lookup_eq_none_iff.mpr hmem, Entries.put_of_not_mem hmem]
    rfl

theorem keys_leaves (given : List (String × Value)) :
    Entries.keys (given.map leaf) = given.map Prod.fst := by
  rw [Entries.keys, List.map_map]
  rfl

/-- Settings define their keys one after the other, if no key is given twice. -/
theorem build_settings {root : Entries} (hroot : root.keys.Nodup)
    (given : List (String × Value)) (ss : List Statement) :
    build [] root (given.map setting ++ ss) =
      if Entries.keys (root ++ given.map leaf) |>.Nodup then build [] (root ++ given.map leaf) ss
      else none := by
  induction given generalizing root with
  | nil => rw [List.map_nil, List.map_nil, List.nil_append, List.append_nil, if_pos hroot]
  | cons m given ih =>
    obtain ⟨key, value⟩ := m
    have hstep : build [] root (((key, value) :: given).map setting ++ ss) =
        (define value [key] true root).bind fun root ↦ build [] root (given.map setting ++ ss) :=
      rfl
    rw [hstep, define_key]
    by_cases hkey : key ∈ root.keys
    · have htwice : ¬ (Entries.keys (root ++ ((key, value) :: given).map leaf)).Nodup := by
        rw [Entries.keys, List.map_append, List.nodup_append]
        rintro ⟨-, -, hdisjoint⟩
        exact hdisjoint key hkey key (by simp [leaf]) rfl
      rw [if_pos hkey, if_neg htwice]
      rfl
    · have hnodup : (Entries.keys (root ++ [leaf (key, value)])).Nodup := by
        rw [Entries.keys, List.map_append]
        refine List.nodup_append.mpr ⟨hroot, by simp, ?_⟩
        rintro k hk k' hk' rfl
        obtain rfl : k = key := by simpa [leaf] using hk'
        exact hkey hk
      rw [if_neg hkey, Option.bind_some, ih hnodup, List.append_assoc]
      rfl

/-- Settings that give no key twice define just their keys. -/
theorem build_given (given : List (String × Value)) (ss : List Statement) :
    build [] [] (given.map setting ++ ss) =
      if (given.map Prod.fst).Nodup then build [] (given.map leaf) ss else none := by
  rw [build_settings (by simp [Entries.keys]), List.nil_append, keys_leaves]

theorem lookup_leaves_of_mem {given : List (String × Value)} {key : String}
    (h : key ∈ given.map Prod.fst) :
    ∃ value, (key, value) ∈ given ∧ (given.map leaf).lookup key = some (.leaf value) := by
  cases hlookup : (given.map leaf).lookup key with
  | none =>
    rw [Entries.lookup_eq_none_iff, keys_leaves] at hlookup
    exact absurd h hlookup
  | some node =>
    obtain ⟨before, after, heq, -⟩ := List.lookup_eq_some_iff.mp hlookup
    have hmem : (key, node) ∈ given.map leaf := by simp [heq]
    obtain ⟨⟨k, value⟩, hm, hleaf⟩ := List.mem_map.mp hmem
    obtain ⟨rfl, rfl⟩ := Prod.mk.inj hleaf
    exact ⟨value, hm, rfl⟩

theorem lookup_leaves_of_not_mem {given : List (String × Value)} {key : String}
    (h : key ∉ given.map Prod.fst) : (given.map leaf).lookup key = none := by
  rwa [Entries.lookup_eq_none_iff, keys_leaves]

/-- A statement about a key, after settings, is about a key that is not given yet, and
the key stays. -/
theorem build_opened {given : List (String × Value)} {s : Statement} {ss : List Statement}
    {key : String} {root : Entries} (hs : s.path.head? = some key)
    (h : build [] [] (given.map setting ++ s :: ss) = some root) :
    key ∉ given.map Prod.fst ∧ key ∈ root.keys := by
  rw [build_given] at h
  split at h
  case isFalse => exact nomatch h
  have hput {node : Node} {entries : Entries} : key ∈ (entries.put key node).keys :=
    Entries.mem_keys_put.mpr (.inl rfl)
  cases s with
  | header path =>
    obtain ⟨opened, hopened, hrest⟩ := Option.bind_eq_some_iff.mp h
    obtain ⟨path, rfl⟩ : ∃ more, path = key :: more := List.head?_eq_some_iff.mp hs
    refine ⟨fun hkey ↦ ?_, ?_⟩
    · obtain ⟨value, -, hlookup⟩ := lookup_leaves_of_mem hkey
      rw [openTable_leaf hlookup] at hopened
      exact nomatch hopened
    · obtain ⟨origin, inner, rfl⟩ := openTable_eq_put hopened
      exact keys_subset_of_build hrest hput
  | entry path value =>
    obtain ⟨defined, hdefined, hrest⟩ := Option.bind_eq_some_iff.mp h
    obtain ⟨path, rfl⟩ : ∃ more, path = key :: more := List.head?_eq_some_iff.mp hs
    rw [within] at hdefined
    refine ⟨fun hkey ↦ ?_, ?_⟩
    · obtain ⟨value', -, hlookup⟩ := lookup_leaves_of_mem hkey
      rw [define_leaf hlookup] at hdefined
      exact nomatch hdefined
    · obtain ⟨node, rfl, -⟩ := define_eq_put hdefined
      exact keys_subset_of_build hrest hput

/-! ### What documents define -/

/-- A document that gives no key twice defines what its lines say, and no other
document of lines defines anything. -/
theorem document?_eq {given : List (String × Value)} {text : String}
    (h : DocumentText (given.map setting) text) :
    document? text = if (given.map Prod.fst).Nodup then some (given.map leaf) else none := by
  have hbuild := build_given given []
  rw [List.append_nil] at hbuild
  rw [document?, statements?_eq_some_iff.mpr h]
  exact hbuild

/-- What a document defines, its lines make; and a value stands under a key of it only
if a line gives it to the key. -/
theorem exists_documentText {text : String} {entries : Entries}
    (h : document? text = some entries) :
    ∃ ss, DocumentText ss text ∧ build [] [] ss = some entries ∧
      ∀ key v, entries.lookup key = some (.leaf v) → setting (key, v) ∈ ss := by
  obtain ⟨ss, hss, hbuild⟩ := Option.bind_eq_some_iff.mp h
  refine ⟨ss, statements?_eq_some_iff.mp hss, hbuild, fun key v hlookup ↦ ?_⟩
  exact (setting_mem_of_build hbuild hlookup).resolve_left nofun

/-- What an extended document defines, if it defines anything, has the key that was
opened, and that key had no value yet. -/
theorem document?_extended {given : List (String × Value)} {key text : String}
    (h : ExtendedText given key text) {entries : Entries} (hread : document? text = some entries) :
    key ∉ given.map Prod.fst ∧ key ∈ entries.keys := by
  obtain ⟨ss, hss, hbuild⟩ := Option.bind_eq_some_iff.mp hread
  obtain ⟨s, more, rfl, hs⟩ := statements?_extended h hss
  exact build_opened hs hbuild

end Enrollment.Toml
