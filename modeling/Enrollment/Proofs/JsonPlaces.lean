import Enrollment.Proofs.JsonGrammar
namespace Enrollment.Json

/-!
# Places in a document

An array or an object is written as the texts of its parts, each read the same wherever
it stands.  So whatever stands at a place of a document may be written anew between the
same bytes, and the document differs there alone.
-/

/-! ### Values -/

/-- What a value is, by the first byte that is not blank. -/
inductive Shape (n : Nat) : Bytes → Tree → Bytes → Prop
  | string {more rest : Bytes} {ps : List Piece} (h : Reader.string? more = some (ps, rest)) :
      Shape n (0x22 :: more) (.string ps) rest
  | noItems {s rest : Bytes} (hs : Blanks s) :
      Shape n (0x5b :: (s ++ 0x5d :: rest)) (.array []) rest
  | items {more rest : Bytes} {ts : List Tree} (h : Reader.items? n more = some (ts, rest)) :
      Shape n (0x5b :: more) (.array ts) rest
  | noMembers {s rest : Bytes} (hs : Blanks s) :
      Shape n (0x7b :: (s ++ 0x7d :: rest)) (.object []) rest
  | members {more rest : Bytes} {ms : List (List Piece × Tree)}
      (h : Reader.members? n more = some (ms, rest)) : Shape n (0x7b :: more) (.object ms) rest
  | isTrue (rest : Bytes) : Shape n (0x74 :: ([0x72, 0x75, 0x65] ++ rest)) (.bool true) rest
  | isFalse (rest : Bytes) : Shape n (0x66 :: ([0x61, 0x6c, 0x73, 0x65] ++ rest)) (.bool false) rest
  | isNull (rest : Bytes) : Shape n (0x6e :: ([0x75, 0x6c, 0x6c] ++ rest)) .null rest
  | number {b : UInt8} {more rest : Bytes} {l : Literal}
      (h : Reader.number? (b :: more) = some (l, rest)) : Shape n (b :: more) (.number l) rest

theorem members?_skipBlank (n : Nat) (bs : Bytes) :
    Reader.members? n (Reader.skipBlank bs) = Reader.members? n bs := by
  cases n with
  | zero => rw [Reader.members?, Reader.members?]
  | succ n => rw [Reader.members?, Reader.members?, skipBlank_idem]

theorem value?_skipBlank (n : Nat) (bs : Bytes) :
    Reader.value? n (Reader.skipBlank bs) = Reader.value? n bs := by
  cases n with
  | zero => rw [Reader.value?, Reader.value?]
  | succ n => rw [Reader.value?, Reader.value?, skipBlank_idem]

theorem items?_skipBlank (n : Nat) (bs : Bytes) :
    Reader.items? n (Reader.skipBlank bs) = Reader.items? n bs := by
  cases n with
  | zero => rw [Reader.items?, Reader.items?]
  | succ n => rw [Reader.items?, Reader.items?, value?_skipBlank]

theorem exists_shape {n : Nat} {bs rest : Bytes} {t : Tree}
    (h : Reader.value? (n + 1) bs = some (t, rest)) :
    ∃ s more, Blanks s ∧ bs = s ++ more ∧ Shape n more t rest := by
  obtain ⟨s, hs, hbs⟩ := exists_blanks bs
  refine ⟨s, _, hs, hbs, ?_⟩
  rw [Reader.value?] at h
  split at h
  · exact nomatch h
  next b more hskip =>
  rw [hskip]
  split_ifs at h with hquote hbracket hbrace htrue hfalse hnull
  · subst hquote
    obtain ⟨⟨ps, rest'⟩, hps, h⟩ := Option.map_eq_some_iff.mp h
    cases h
    exact .string hps
  · subst hbracket
    split at h
    · next hclose =>
      cases h
      obtain ⟨s', hs', rfl⟩ := exists_blanks_of_skipBlank hclose
      exact .noItems hs'
    · obtain ⟨⟨ts, rest'⟩, hts, h⟩ := Option.map_eq_some_iff.mp h
      cases h
      rw [items?_skipBlank] at hts
      exact .items hts
  · subst hbrace
    split at h
    · next hclose =>
      cases h
      obtain ⟨s', hs', rfl⟩ := exists_blanks_of_skipBlank hclose
      exact .noMembers hs'
    · obtain ⟨⟨ms, rest'⟩, hms, h⟩ := Option.map_eq_some_iff.mp h
      cases h
      rw [members?_skipBlank] at hms
      exact .members hms
  · obtain ⟨rfl, rfl⟩ := exists_word h
    exact htrue ▸ .isTrue rest
  · obtain ⟨rfl, rfl⟩ := exists_word h
    exact hfalse ▸ .isFalse rest
  · obtain ⟨rfl, rfl⟩ := exists_word h
    exact hnull ▸ .isNull rest
  · obtain ⟨⟨l, rest'⟩, hl, h⟩ := Option.map_eq_some_iff.mp h
    cases h
    exact .number hl

/-- Where nothing but a closing bracket stands, no item does. -/
theorem items?_of_close {n : Nat} {bs rest : Bytes} (h : Reader.skipBlank bs = 0x5d :: rest) :
    Reader.items? n bs = none := by
  rw [← items?_skipBlank, h]
  match n with
  | 0 => rw [Reader.items?]
  | 1 =>
    rw [Reader.items?, Reader.value?]
    rfl
  | n + 2 =>
    have hvalue : Reader.value? (n + 1) (0x5d :: rest) = none := by
      rw [Reader.value?, skipBlank_of_head rfl]
      rfl
    rw [Reader.items?, hvalue]
    rfl

theorem members?_of_close {n : Nat} {bs rest : Bytes} (h : Reader.skipBlank bs = 0x7d :: rest) :
    Reader.members? n bs = none := by
  cases n with
  | zero => rw [Reader.members?]
  | succ n =>
    rw [Reader.members?, h]
    rfl

theorem Shape.value? {n : Nat} {s more rest : Bytes} {t : Tree} (h : Shape n more t rest)
    (hs : Blanks s) : Reader.value? (n + 1) (s ++ more) = some (t, rest) := by
  rw [Reader.value?, skipBlank_append hs]
  cases h with
  | string h =>
    rw [skipBlank_of_head rfl]
    simp only [if_true, h, Option.map_some]
  | noItems hs' =>
    rw [skipBlank_of_head rfl]
    simp only [hs'.skip (b := 0x5d) rfl]
    rfl
  | items h =>
    have hbracket : ¬ (0x5b : UInt8) = 0x22 := by decide
    rw [skipBlank_of_head rfl]
    simp only [if_neg hbracket, if_true]
    split
    · next hclose =>
      rw [items?_of_close hclose] at h
      exact nomatch h
    · rw [items?_skipBlank, h]
      rfl
  | noMembers hs' =>
    rw [skipBlank_of_head rfl]
    simp only [hs'.skip (b := 0x7d) rfl]
    rfl
  | members h =>
    have hquote : ¬ (0x7b : UInt8) = 0x22 := by decide
    have hbracket : ¬ (0x7b : UInt8) = 0x5b := by decide
    rw [skipBlank_of_head rfl]
    simp only [if_neg hquote, if_neg hbracket, if_true]
    split
    · next hclose =>
      rw [members?_of_close hclose] at h
      exact nomatch h
    · rw [members?_skipBlank, h]
      rfl
  | isTrue rest =>
    rw [skipBlank_of_head rfl]
    exact word?_append [0x72, 0x75, 0x65] (.bool true) rest
  | isFalse rest =>
    rw [skipBlank_of_head rfl]
    exact word?_append [0x61, 0x6c, 0x73, 0x65] (.bool false) rest
  | isNull rest =>
    rw [skipBlank_of_head rfl]
    exact word?_append [0x75, 0x6c, 0x6c] .null rest
  | @number b more rest l h =>
    obtain ⟨b', v, hb, hbs, -⟩ := exists_number h
    obtain ⟨rfl, -⟩ := List.cons.inj hbs
    obtain ⟨hblank, hquote, hbracket, hbrace, htrue, hfalse, hnull⟩ := number_head hb
    rw [skipBlank_of_head hblank]
    simp only [if_neg hquote, if_neg hbracket, if_neg hbrace, if_neg htrue, if_neg hfalse,
      if_neg hnull, h, Option.map_some]

/-! ### Sequences -/

section Sequence

variable {α : Type} {Entry : Bytes → α → Prop} {close : UInt8}
  {one? : Bytes → Option (α × Bytes)} {more? : Bytes → Option (List α × Bytes)}

/-- Reads an entry and, after a comma, more of them, up to the closing byte. -/
def sequence? (close : UInt8) (one? : Bytes → Option (α × Bytes))
    (more? : Bytes → Option (List α × Bytes)) (bs : Bytes) : Option (List α × Bytes) := do
  let (a, rest) ← one? bs
  match Reader.skipBlank rest with
  | [] => none
  | b :: rest =>
    if b = close then some ([a], rest)
    else if b = 0x2c then (more? rest).map fun (as, rest) ↦ (a :: as, rest)
    else none

/-- Entries with commas between them and the closing byte after them. -/
inductive Sequence (Entry : Bytes → α → Prop) (close : UInt8) : Bytes → List α → Prop
  | last {v s : Bytes} {a : α} (h : Entry v a) (hs : Blanks s) :
      Sequence Entry close (v ++ (s ++ [close])) [a]
  | more {v s w : Bytes} {a : α} {as : List α} (h : Entry v a) (hs : Blanks s)
      (hmore : Sequence Entry close w as) :
      Sequence Entry close (v ++ (s ++ 0x2c :: w)) (a :: as)

theorem Sound.sequence? (hentry : Sound one? Entry) (hmore : Sound more? (Sequence Entry close)) :
    Sound (sequence? close one? more?) (Sequence Entry close) := by
  intro bs as rest h
  simp only [Json.sequence?, Option.bind_eq_bind, Option.bind_eq_some_iff, Prod.exists] at h
  obtain ⟨a, bs', ha, h⟩ := h
  obtain ⟨v, rfl, hv⟩ := hentry ha
  obtain ⟨s, hs, hbs'⟩ := exists_blanks bs'
  cases hskip : Reader.skipBlank bs' with
  | nil =>
    rw [hskip] at h
    exact nomatch h
  | cons b next =>
    rw [hskip] at h hbs'
    simp only at h
    split_ifs at h with hclose hcomma
    · cases h
      exact ⟨v ++ (s ++ [b]), by simp [hbs'], hclose ▸ .last hv hs⟩
    · subst hcomma
      obtain ⟨⟨as', rest'⟩, has', h⟩ := Option.map_eq_some_iff.mp h
      cases h
      obtain ⟨w, rfl, hw⟩ := hmore has'
      exact ⟨v ++ (s ++ 0x2c :: w), by simp [hbs'], .more hv hs hw⟩

theorem sequence?_last {bs s rest : Bytes} {a : α} (hs : Blanks s)
    (hclose : Reader.isBlank close = false) (h : one? bs = some (a, s ++ close :: rest)) :
    sequence? close one? more? bs = some ([a], rest) := by
  rw [sequence?, h]
  simp only [Option.bind_eq_bind, Option.bind_some]
  rw [hs.skip hclose]
  simp only [if_true]

theorem sequence?_more {bs s more rest : Bytes} {a : α} {as : List α} (hs : Blanks s)
    (hclose : (0x2c : UInt8) ≠ close) (h : one? bs = some (a, s ++ 0x2c :: more))
    (hmore : more? more = some (as, rest)) :
    sequence? close one? more? bs = some (a :: as, rest) := by
  rw [sequence?, h]
  simp only [Option.bind_eq_bind, Option.bind_some]
  rw [hs.skip rfl]
  simp only [if_neg hclose, if_true, hmore, Option.map_some]

/-- An entry may be written anew where it stands, as the same or as another. -/
theorem Sequence.replace {w : Bytes} {front back : List α} {a : α}
    (h : Sequence Entry close w (front ++ a :: back)) :
    ∃ before v after, w = before ++ v ++ after ∧ Entry v a ∧
      ∀ v' a', Entry v' a' →
        Sequence Entry close (before ++ v' ++ after) (front ++ a' :: back) := by
  generalize has : front ++ a :: back = as at h
  induction h generalizing front with
  | @last v s a' h hs =>
    obtain ⟨rfl, rfl, rfl⟩ : front = [] ∧ a = a' ∧ back = [] := by
      cases front with
      | nil => simpa using has
      | cons b front => simp at has
    refine ⟨[], v, s ++ [close], by simp, h, fun v' a' h' ↦ ?_⟩
    simpa using Sequence.last h' hs
  | @more v s w a' as' h hs hmore ih =>
    cases front with
    | nil =>
      obtain ⟨rfl, rfl⟩ : a = a' ∧ back = as' := by simpa using has
      refine ⟨[], v, s ++ 0x2c :: w, by simp, h, fun v' a' h' ↦ ?_⟩
      simpa using Sequence.more h' hs hmore
    | cons b front =>
      obtain ⟨rfl, has'⟩ := List.cons.inj has
      obtain ⟨before, v', after, rfl, hv', hreplace⟩ := ih has'
      refine ⟨v ++ (s ++ 0x2c :: before), v', after, by simp, hv', fun v'' a'' h'' ↦ ?_⟩
      simpa using Sequence.more h hs (hreplace v'' a'' h'')

end Sequence

/-! ### What is written for a value -/

/-- With enough steps these bytes are read as this, whatever fit comes after them. -/
def Reads {α : Type} (read : Nat → Bytes → Option (α × Bytes)) (Fit : Bytes → Prop) (v : Bytes)
    (a : α) : Prop :=
  ∀ n, 2 * v.length ≤ n → Takes (read n) Fit v a

/-- After a value stands a blank, a comma, a closing byte, or nothing. -/
def EndsValue (rest : Bytes) : Prop :=
  ∀ b ∈ rest.head?, Reader.isBlank b ∨ b = 0x2c ∨ b = 0x5d ∨ b = 0x7d

theorem EndsValue.notNext {rest : Bytes} (h : EndsValue rest) : NotNext inNumber rest := by
  have hall : ∀ b : UInt8, (Reader.isBlank b ∨ b = 0x2c ∨ b = 0x5d ∨ b = 0x7d) →
      inNumber b = false := by
    apply forall_byte
    decide +kernel
  exact fun b hb ↦ hall b (h b hb)

theorem EndsValue.blanks {s : Bytes} (hs : Blanks s) {b : UInt8} {rest : Bytes}
    (hb : b = 0x2c ∨ b = 0x5d ∨ b = 0x7d) : EndsValue (s ++ b :: rest) := by
  intro c hc
  cases s with
  | nil =>
    cases hc
    exact .inr hb
  | cons c' s =>
    cases hc
    exact .inl (hs _ (by simp))

/-- The bytes are read as this value wherever they stand. -/
abbrev Writes (v : Bytes) (t : Tree) : Prop := Reads Reader.value? EndsValue v t

/-- Reads the name of a member, a colon and the value. -/
def member? (n : Nat) (bs : Bytes) : Option ((List Piece × Tree) × Bytes) :=
  match Reader.skipBlank bs with
  | 0x22 :: rest => do
    let (key, rest) ← Reader.string? rest
    match Reader.skipBlank rest with
    | 0x3a :: rest => (Reader.value? n rest).map fun (t, rest) ↦ ((key, t), rest)
    | _ => none
  | _ => none

/-- What stands before the value of a member with this name. -/
def Opens (front : Bytes) (key : List Piece) : Prop :=
  ∃ s q s', front = s ++ 0x22 :: (q ++ (s' ++ [0x3a])) ∧ Blanks s ∧ Blanks s' ∧
    Takes Reader.string? Anything q key

/-- The bytes are read as this member wherever they stand. -/
def WritesMember (v : Bytes) (m : List Piece × Tree) : Prop :=
  ∃ front x, v = front ++ x ∧ Opens front m.1 ∧ Writes x m.2

theorem items?_succ (n : Nat) (bs : Bytes) :
    Reader.items? (n + 1) bs = sequence? 0x5d (Reader.value? n) (Reader.items? n) bs := by
  rw [Reader.items?, sequence?]
  cases Reader.value? n bs with
  | none => rfl
  | some read =>
    obtain ⟨t, rest⟩ := read
    simp only [Option.bind_eq_bind, Option.bind_some]
    cases Reader.skipBlank rest with
    | nil => rfl
    | cons b rest =>
      by_cases hclose : b = 0x5d
      · subst hclose
        rfl
      · by_cases hcomma : b = 0x2c
        · subst hcomma
          simp only [if_neg hclose, if_true]
          cases Reader.items? n rest <;> rfl
        · simp [hclose, hcomma]

theorem members?_succ (n : Nat) (bs : Bytes) :
    Reader.members? (n + 1) bs = sequence? 0x7d (member? n) (Reader.members? n) bs := by
  rw [Reader.members?, sequence?, member?]
  cases Reader.skipBlank bs with
  | nil => rfl
  | cons b rest =>
    by_cases hquote : b = 0x22
    · subst hquote
      simp only
      cases Reader.string? rest with
      | none => rfl
      | some read =>
        obtain ⟨key, rest⟩ := read
        simp only [Option.bind_eq_bind, Option.bind_some]
        cases Reader.skipBlank rest with
        | nil => rfl
        | cons b rest =>
          by_cases hcolon : b = 0x3a
          · subst hcolon
            simp only
            cases Reader.value? n rest with
            | none => rfl
            | some read =>
              obtain ⟨t, rest⟩ := read
              simp only [Option.bind_some, Option.map_some]
              cases Reader.skipBlank rest with
              | nil => rfl
              | cons b rest =>
                by_cases hclose : b = 0x7d
                · subst hclose
                  rfl
                · by_cases hcomma : b = 0x2c
                  · subst hcomma
                    simp only [if_neg hclose, if_true]
                    cases Reader.members? n rest <;> rfl
                  · simp [hclose, hcomma]
          · simp [hcolon]
    · simp [hquote]

/-! ### Values are read where they stand -/

theorem reads_of_pos {α : Type} {read : Nat → Bytes → Option (α × Bytes)} {Fit : Bytes → Prop}
    {v : Bytes} {a : α} (hv : v ≠ [])
    (h : ∀ n, 2 * v.length ≤ n + 1 → Takes (read (n + 1)) Fit v a) : Reads read Fit v a := by
  intro n hn
  have hpos : 0 < v.length := List.length_pos_iff.mpr hv
  obtain ⟨n, rfl⟩ : ∃ k, n = k + 1 := ⟨n - 1, by omega⟩
  exact h n hn

/-- A value of one token. -/
theorem writes_of_shape {s w : Bytes} {t : Tree} (hs : Blanks s) (hne : w ≠ [])
    (h : ∀ n, 2 * w.length ≤ n + 1 → ∀ rest, EndsValue rest → Shape n (w ++ rest) t rest) :
    Writes (s ++ w) t := by
  refine reads_of_pos (by simp [hne]) fun n hn rest hrest ↦ ?_
  rw [List.append_assoc]
  rw [List.length_append] at hn
  exact (h n (by omega) rest hrest).value? hs

section

variable {α : Type} {Entry : Bytes → α → Prop} {close : UInt8}
  {one? : Nat → Bytes → Option (α × Bytes)} {read? : Nat → Bytes → Option (List α × Bytes)}

/-- What reads an entry and more after a comma reads a sequence. -/
theorem Sequence.reads (hclose : close = 0x5d ∨ close = 0x7d)
    (hread : ∀ n bs, read? (n + 1) bs = Json.sequence? close (one? n) (read? n) bs)
    (hentry : ∀ v a, Entry v a → Reads one? EndsValue v a) {w : Bytes} {as : List α}
    (h : Sequence Entry close w as) : Reads read? Anything w as := by
  have hblank : Reader.isBlank close = false := by
    rcases hclose with rfl | rfl <;> rfl
  have hcomma : (0x2c : UInt8) ≠ close := by
    rcases hclose with rfl | rfl <;> decide
  induction h with
  | @last v s a h hs =>
    refine reads_of_pos (by simp) fun n hn rest _ ↦ ?_
    simp only [List.length_append, List.length_singleton] at hn
    have hends : EndsValue (s ++ close :: rest) := .blanks hs (.inr hclose)
    have hvalue := hentry v a h n (by omega) _ hends
    rw [hread]
    apply sequence?_last hs hblank
    simpa using hvalue
  | @more v s w a as h hs hmore ih =>
    refine reads_of_pos (by simp) fun n hn rest hrest ↦ ?_
    simp only [List.length_append, List.length_cons] at hn
    have hends : EndsValue (s ++ 0x2c :: (w ++ rest)) := .blanks hs (.inl rfl)
    have hvalue := hentry v a h n (by omega) _ hends
    rw [hread]
    apply sequence?_more hs hcomma _ (ih n (by omega) rest hrest)
    simpa using hvalue

end

theorem Sequence.reads_items {w : Bytes} {ts : List Tree} (h : Sequence Writes 0x5d w ts) :
    Reads Reader.items? Anything w ts :=
  h.reads (.inl rfl) items?_succ fun _ _ hv ↦ hv

theorem Opens.member? {front bs rest : Bytes} {key : List Piece} {t : Tree} {n : Nat}
    (h : Opens front key) (ht : Reader.value? n bs = some (t, rest)) :
    Json.member? n (front ++ bs) = some ((key, t), rest) := by
  obtain ⟨s, q, s', rfl, hs, hs', hq⟩ := h
  have hkey := hq (s' ++ 0x3a :: bs) trivial
  simp only [List.append_assoc, List.cons_append, List.nil_append]
  rw [Json.member?, hs.skip rfl]
  simp only [hkey, Option.bind_eq_bind, Option.bind_some]
  rw [hs'.skip rfl]
  simp only [ht, Option.map_some]

theorem WritesMember.reads {v : Bytes} {m : List Piece × Tree} (h : WritesMember v m) :
    Reads Json.member? EndsValue v m := by
  obtain ⟨front, x, rfl, hfront, hx⟩ := h
  intro n hn rest hrest
  rw [List.length_append] at hn
  rw [List.append_assoc]
  exact hfront.member? (hx n (by omega) rest hrest)

theorem Sequence.reads_members {w : Bytes} {ms : List (List Piece × Tree)}
    (h : Sequence WritesMember 0x7d w ms) : Reads Reader.members? Anything w ms :=
  h.reads (.inr rfl) members?_succ fun _ _ hv ↦ hv.reads

theorem Sound.member? {n : Nat} (h : Sound (Reader.value? n) Writes) :
    Sound (Json.member? n) WritesMember := by
  intro bs m rest hm
  obtain ⟨s, hs, hbs⟩ := exists_blanks bs
  rw [Json.member?] at hm
  split at hm
  · next more hquote =>
    simp only [Option.bind_eq_bind, Option.bind_eq_some_iff, Prod.exists] at hm
    obtain ⟨key, more', hkey, hm⟩ := hm
    obtain ⟨q, rfl, hq⟩ := exists_string hkey
    split at hm
    · next more'' hcolon =>
      obtain ⟨⟨t, rest'⟩, ht, hm⟩ := Option.map_eq_some_iff.mp hm
      cases hm
      obtain ⟨s', hs', rfl⟩ := exists_blanks_of_skipBlank hcolon
      obtain ⟨x, rfl, hx⟩ := h ht
      refine ⟨_, ?_, s ++ 0x22 :: (q ++ (s' ++ [0x3a])), x, rfl, ⟨s, q, s', rfl, hs, hs', hq⟩, hx⟩
      rw [hbs, hquote]
      simp
    · exact nomatch hm
  · exact nomatch hm

section Written

variable {s : Bytes} (hs : Blanks s)
include hs

theorem writes_string {q : Bytes} {ps : List Piece} (hq : Takes Reader.string? Anything q ps) :
    Writes (s ++ 0x22 :: q) (.string ps) :=
  writes_of_shape hs (by simp) fun _ _ rest _ ↦ .string (hq rest trivial)

theorem writes_number {b : UInt8} {v : Bytes} {l : Literal}
    (hv : Takes Reader.number? (NotNext inNumber) (b :: v) l) : Writes (s ++ b :: v) (.number l) :=
  writes_of_shape hs (by simp) fun _ _ rest hrest ↦ .number (hv rest hrest.notNext)

theorem Sequence.writes_array {w : Bytes} {ts : List Tree} (hw : Sequence Writes 0x5d w ts) :
    Writes (s ++ 0x5b :: w) (.array ts) := by
  refine writes_of_shape hs (by simp) fun n hn rest _ ↦ ?_
  rw [List.length_cons] at hn
  exact .items (hw.reads_items n (by omega) rest trivial)

theorem Sequence.writes_object {w : Bytes} {ms : List (List Piece × Tree)}
    (hw : Sequence WritesMember 0x7d w ms) : Writes (s ++ 0x7b :: w) (.object ms) := by
  refine writes_of_shape hs (by simp) fun n hn rest _ ↦ ?_
  rw [List.length_cons] at hn
  exact .members (hw.reads_members n (by omega) rest trivial)

end Written

/-- Every reader takes off the front what is read the same wherever it stands. -/
theorem sound_readers (n : Nat) :
    Sound (Reader.value? n) Writes ∧ Sound (Reader.items? n) (Sequence Writes 0x5d) ∧
      Sound (Reader.members? n) (Sequence WritesMember 0x7d) := by
  induction n with
  | zero =>
    refine ⟨fun bs a rest h ↦ ?_, fun bs a rest h ↦ ?_, fun bs a rest h ↦ ?_⟩
    · rw [Reader.value?] at h
      exact nomatch h
    · rw [Reader.items?] at h
      exact nomatch h
    · rw [Reader.members?] at h
      exact nomatch h
  | succ n ih =>
    obtain ⟨hvalue, hitems, hmembers⟩ := ih
    refine ⟨fun bs t rest h ↦ ?_, fun bs ts rest h ↦ ?_, fun bs ms rest h ↦ ?_⟩
    · obtain ⟨s, more, hs, rfl, hshape⟩ := exists_shape h
      cases hshape with
      | string h =>
        obtain ⟨q, rfl, hq⟩ := exists_string h
        exact ⟨_, by simp, writes_string hs hq⟩
      | @noItems s' _ hs' =>
        refine ⟨s ++ 0x5b :: (s' ++ [0x5d]), by simp, writes_of_shape hs (by simp)
          fun n _ rest _ ↦ ?_⟩
        simpa using Shape.noItems hs'
      | items h =>
        obtain ⟨w, rfl, hw⟩ := hitems h
        exact ⟨_, by simp, hw.writes_array hs⟩
      | @noMembers s' _ hs' =>
        refine ⟨s ++ 0x7b :: (s' ++ [0x7d]), by simp, writes_of_shape hs (by simp)
          fun n _ rest _ ↦ ?_⟩
        simpa using Shape.noMembers hs'
      | members h =>
        obtain ⟨w, rfl, hw⟩ := hmembers h
        exact ⟨_, by simp, hw.writes_object hs⟩
      | isTrue rest =>
        exact ⟨s ++ [0x74, 0x72, 0x75, 0x65], by simp, writes_of_shape hs (by simp)
          fun n _ rest _ ↦ .isTrue rest⟩
      | isFalse rest =>
        exact ⟨s ++ [0x66, 0x61, 0x6c, 0x73, 0x65], by simp, writes_of_shape hs (by simp)
          fun n _ rest _ ↦ .isFalse rest⟩
      | isNull rest =>
        exact ⟨s ++ [0x6e, 0x75, 0x6c, 0x6c], by simp, writes_of_shape hs (by simp)
          fun n _ rest _ ↦ .isNull rest⟩
      | number h =>
        obtain ⟨b, v, -, hbs, hv⟩ := exists_number h
        exact ⟨s ++ b :: v, by simp [hbs], writes_number hs hv⟩
    · rw [items?_succ] at h
      exact hvalue.sequence? hitems h
    · rw [members?_succ] at h
      exact hvalue.member?.sequence? hmembers h

/-! ### Places -/

/-- A way into a tree. -/
inductive Place
  | here
  | item (front : List Tree) (place : Place) (back : List Tree)
  | member (front : List (List Piece × Tree)) (key : List Piece) (place : Place)
      (back : List (List Piece × Tree))

/-- The tree with this at the place. -/
def Place.fill (t : Tree) : Place → Tree
  | here => t
  | item front place back => .array (front ++ place.fill t :: back)
  | member front key place back => .object (front ++ (key, place.fill t) :: back)

/-- What a written value is by itself. -/
theorem Writes.exists_shape {x : Bytes} {t : Tree} (h : Writes x t) :
    ∃ s more, Blanks s ∧ x = s ++ more ∧ Shape (2 * x.length) more t [] := by
  have hread := h (2 * x.length + 1) (by omega) [] nofun
  rw [List.append_nil] at hread
  exact Json.exists_shape hread

theorem Writes.exists_items {x : Bytes} {ts : List Tree} (h : Writes x (.array ts))
    (hne : ts ≠ []) : ∃ s w, Blanks s ∧ x = s ++ 0x5b :: w ∧ Sequence Writes 0x5d w ts := by
  obtain ⟨s, more, hs, hx, hshape⟩ := h.exists_shape
  cases hshape with
  | noItems => exact absurd rfl hne
  | items hitems =>
    obtain ⟨w, rfl, hw⟩ := (sound_readers _).2.1 hitems
    exact ⟨s, w, hs, by simpa using hx, hw⟩

theorem Writes.exists_members {x : Bytes} {ms : List (List Piece × Tree)}
    (h : Writes x (.object ms)) (hne : ms ≠ []) :
    ∃ s w, Blanks s ∧ x = s ++ 0x7b :: w ∧ Sequence WritesMember 0x7d w ms := by
  obtain ⟨s, more, hs, hx, hshape⟩ := h.exists_shape
  cases hshape with
  | noMembers => exact absurd rfl hne
  | members hmembers =>
    obtain ⟨w, rfl, hw⟩ := (sound_readers _).2.2 hmembers
    exact ⟨s, w, hs, by simpa using hx, hw⟩

/-- What is written at a place of a tree may be written anew. -/
theorem Writes.replace {x : Bytes} {place : Place} {t : Tree} (h : Writes x (place.fill t)) :
    ∃ before v after, x = before ++ v ++ after ∧ Writes v t ∧
      ∀ v' t', Writes v' t' → Writes (before ++ v' ++ after) (place.fill t') := by
  induction place generalizing x with
  | here => exact ⟨[], x, [], by simp, h, fun v' t' h' ↦ by simpa [Place.fill] using h'⟩
  | item front place back ih =>
    obtain ⟨s, w, hs, rfl, hw⟩ := h.exists_items (by simp)
    obtain ⟨before, y, after, rfl, hy, hitems⟩ := hw.replace
    obtain ⟨before', v, after', rfl, hv, hreplace⟩ := ih hy
    refine ⟨s ++ 0x5b :: before ++ before', v, after' ++ after, by simp, hv,
      fun v' t' h' ↦ ?_⟩
    have hsequence := hitems _ _ (hreplace v' t' h')
    simpa [Place.fill] using hsequence.writes_array hs
  | member front key place back ih =>
    obtain ⟨s, w, hs, rfl, hw⟩ := h.exists_members (by simp)
    obtain ⟨before, m, after, rfl, ⟨name, y, rfl, hname, hy⟩, hmembers⟩ := hw.replace
    obtain ⟨before', v, after', rfl, hv, hreplace⟩ := ih hy
    refine ⟨s ++ 0x7b :: before ++ name ++ before', v, after' ++ after, by simp, hv,
      fun v' t' h' ↦ ?_⟩
    have hsequence := hmembers (name ++ (before' ++ v' ++ after')) (key, place.fill t')
      ⟨name, _, rfl, hname, hreplace v' t' h'⟩
    simpa [Place.fill] using hsequence.writes_object hs

/-- Between these bytes stands what is at the place of a document. -/
def Frames (before after : Bytes) (place : Place) : Prop :=
  ∀ v t, Writes v t → Tree.ofBytes? (before ++ v ++ after) = some (place.fill t)

theorem ofBytes?_eq_some_iff {body : Bytes} {t : Tree} :
    Tree.ofBytes? body = some t ↔ ∃ v s, body = v ++ s ∧ Writes v t ∧ Blanks s := by
  constructor
  · intro h
    simp only [Tree.ofBytes?, Option.bind_eq_bind, Option.bind_eq_some_iff, Prod.exists] at h
    obtain ⟨t', rest, hread, h⟩ := h
    obtain ⟨v, rfl, hv⟩ := (sound_readers _).1 hread
    split_ifs at h with hempty
    cases h
    obtain ⟨s, hs, hrest⟩ := exists_blanks rest
    rw [List.isEmpty_iff.mp hempty, List.append_nil] at hrest
    exact ⟨v, rest, rfl, hv, hrest ▸ hs⟩
  · rintro ⟨v, s, rfl, hv, hs⟩
    have hends : EndsValue s := fun b hb ↦ .inl (hs b (List.mem_of_mem_head? hb))
    have hread := hv (2 * (v ++ s).length + 1) (by simp; omega) s hends
    have hempty : Reader.skipBlank s = [] := List.dropWhile_eq_nil_iff.mpr hs
    rw [Tree.ofBytes?, hread]
    simp [hempty]

/-- Whatever stands at a place of a document stands between the same bytes with
anything else in its place. -/
theorem exists_frames {body : Bytes} {place : Place} {t : Tree}
    (h : Tree.ofBytes? body = some (place.fill t)) :
    ∃ before v after, body = before ++ v ++ after ∧ Writes v t ∧ Frames before after place := by
  obtain ⟨x, s, rfl, hx, hs⟩ := ofBytes?_eq_some_iff.mp h
  obtain ⟨before, v, after, rfl, hv, hreplace⟩ := hx.replace
  refine ⟨before, v, after ++ s, by simp, hv, fun v' t' h' ↦ ?_⟩
  exact ofBytes?_eq_some_iff.mpr ⟨_, s, by simp, hreplace v' t' h', hs⟩

end Enrollment.Json
