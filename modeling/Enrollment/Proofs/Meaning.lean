import Enrollment.Proofs.Members
namespace Enrollment.Json

/-!
# What members mean

A reader that asks for a member by name sees what the member means and nothing of
how it is written: not its place among the others, not the escapes in its text,
and not how deep it might have been nested.
-/

/-! ### Nesting -/

mutual

/-- How deep arrays and objects are nested in a tree. -/
def Tree.depth : Tree → Nat
  | .null | .bool _ | .number _ | .string _ => 0
  | .array items => depths items + 1
  | .object members => memberDepths members + 1

def depths : List Tree → Nat
  | [] => 0
  | t :: ts => max t.depth (depths ts)

def memberDepths : List (List Piece × Tree) → Nat
  | [] => 0
  | (_, t) :: ts => max t.depth (memberDepths ts)

end

mutual

/-- Within the limit a tree means the same wherever it stands. -/
theorem Tree.value?_eq_of_depth_le {room room' : Nat} :
    ∀ {t : Tree}, t.depth ≤ room → t.depth ≤ room' → t.value? room = t.value? room'
  | .null, _, _ => rfl
  | .bool _, _, _ => rfl
  | .number _, _, _ => rfl
  | .string _, _, _ => rfl
  | .array items, h, h' => by
    rw [Tree.depth] at h h'
    have hitems := values?_eq_of_depths_le (Nat.le_sub_one_of_lt h) (Nat.le_sub_one_of_lt h')
    rw [Tree.value?, Tree.value?, if_neg (by omega), if_neg (by omega), hitems]
  | .object members, h, h' => by
    rw [Tree.depth] at h h'
    have hmembers :=
      memberValues?_eq_of_depths_le (Nat.le_sub_one_of_lt h) (Nat.le_sub_one_of_lt h')
    rw [Tree.value?, Tree.value?, if_neg (by omega), if_neg (by omega), hmembers]

theorem values?_eq_of_depths_le {room room' : Nat} :
    ∀ {ts : List Tree}, depths ts ≤ room → depths ts ≤ room' →
      values? room ts = values? room' ts
  | [], _, _ => rfl
  | t :: ts, h, h' => by
    rw [depths, Nat.max_le] at h h'
    rw [values?, values?, Tree.value?_eq_of_depth_le h.1 h'.1,
      values?_eq_of_depths_le h.2 h'.2]

theorem memberValues?_eq_of_depths_le {room room' : Nat} :
    ∀ {ts : List (List Piece × Tree)}, memberDepths ts ≤ room → memberDepths ts ≤ room' →
      memberValues? room ts = memberValues? room' ts
  | [], _, _ => rfl
  | (key, t) :: ts, h, h' => by
    rw [memberDepths, Nat.max_le] at h h'
    rw [memberValues?, memberValues?, Tree.value?_eq_of_depth_le h.1 h'.1,
      memberValues?_eq_of_depths_le h.2 h'.2]

end

/-! ### Members by what they mean -/

/-- What stands under a name, by its meaning. -/
def Members.meant (room : Nat) (name : String) (members : Members) : List (Option Value) :=
  (members.named name).map (Tree.value? room)

/-- The members as names and meanings. -/
def Members.values (room : Nat) (members : Members) : List (String × Option Value) :=
  members.map fun m ↦ (m.1, m.2.value? room)

/-- The same names with the same meanings, in any order and each written in any way. -/
def Members.Alike (members members' : Members) : Prop :=
  ∀ room, (members.values room).Perm (members'.values room)

namespace Members

variable {members members' : Members} {name : String} {room room' : Nat}

theorem meant_eq_filter (members : Members) :
    members.meant room name =
      ((members.values room).filter fun v ↦ v.1 == name).map Prod.snd := by
  rw [meant, named, values, List.filter_map, List.map_map, List.map_map]
  rfl

theorem meant_append (members members' : Members) :
    (members ++ members').meant room name =
      members.meant room name ++ members'.meant room name := by
  simp [meant, named]

theorem mem_meant_iff {v : Option Value} :
    v ∈ members.meant room name ↔ ∃ m ∈ members, m.1 = name ∧ m.2.value? room = v := by
  simp only [meant, named, List.mem_map, List.mem_filter, beq_iff_eq, and_assoc]
  constructor
  · rintro ⟨_, ⟨m, hm, hname, rfl⟩, hv⟩
    exact ⟨m, hm, hname, hv⟩
  · rintro ⟨m, hm, hname, hv⟩
    exact ⟨m.2, ⟨m, hm, hname, rfl⟩, hv⟩

theorem named_cons (name : String) (m : String × Tree) (members : Members) :
    Members.named name (m :: members) =
      if m.1 = name then m.2 :: members.named name else members.named name := by
  by_cases h : m.1 = name <;> simp [named, h]

theorem named_eq_nil (h : ∀ m ∈ members, m.1 ≠ name) : members.named name = [] := by
  rw [named, List.map_eq_nil_iff, List.filter_eq_nil_iff]
  intro m hm
  simpa using h m hm

theorem meant_eq_nil (h : ∀ m ∈ members, m.1 ≠ name) : members.meant room name = [] := by
  rw [meant, named_eq_nil h, List.map_nil]

theorem meant_eq_of_depth_le (h : ∀ m ∈ members, m.2.depth ≤ room)
    (h' : ∀ m ∈ members, m.2.depth ≤ room') :
    members.meant room name = members.meant room' name := by
  refine List.map_congr_left fun t ht ↦ ?_
  obtain ⟨m, hm, rfl⟩ := List.mem_map.mp ht
  have hmem : m ∈ members := (List.mem_filter.mp hm).1
  exact Tree.value?_eq_of_depth_le (h m hmem) (h' m hmem)

namespace Alike

protected theorem refl (members : Members) : members.Alike members :=
  fun _ ↦ .refl _

theorem of_perm (h : members.Perm members') : members.Alike members' :=
  fun _ ↦ h.map _

theorem meant (h : members.Alike members') (room : Nat) (name : String) :
    (members.meant room name).Perm (members'.meant room name) := by
  rw [meant_eq_filter, meant_eq_filter]
  exact ((h room).filter _).map _

/-- Names that do not stand in the one do not stand in the other. -/
theorem forall_name (h : members.Alike members') {p : String → Prop}
    (hp : ∀ m ∈ members', p m.1) : ∀ m ∈ members, p m.1 := by
  intro m hm
  have hvalue : (m.1, m.2.value? 0) ∈ members.values 0 := List.mem_map_of_mem hm
  obtain ⟨m', hm', heq⟩ := List.mem_map.mp ((h 0).mem_iff.mp hvalue)
  have hname : m'.1 = m.1 := (Prod.mk.inj heq).1
  exact hname ▸ hp m' hm'

end Alike

/-! ### Readers of one member -/

/-- What a reader of one member answers, from its answers to all that stand
under the name: nothing stands there, or one does. -/
def sole : List (Option (Option String)) → Option (Option String)
  | [] => some none
  | [answer] => answer
  | _ => none

theorem sole_perm {answers answers' : List (Option (Option String))}
    (h : answers.Perm answers') : sole answers = sole answers' := by
  match answers, h with
  | [], h => rw [h.nil_eq]
  | [a], h => rw [List.singleton_perm.mp h]
  | a :: b :: rest, h =>
    match answers', h.length_eq with
    | _ :: _ :: _, _ => rfl

theorem ask_eq_sole (read : Tree → Option (Option String)) :
    members.ask name none read = sole ((members.named name).map read) := by
  rw [ask, lookup?_eq_named]
  cases members.named name with
  | nil => rfl
  | cons t more => cases more <;> rfl

end Members

/-! ### Texts by what they mean -/

/-- The text of a value that is a text or `null`. -/
def Value.optionalText? : Value → Option (Option String)
  | .null => some none
  | .string s => some (some s)
  | _ => none

/-- The text of any value. -/
def Value.anyText : Value → Option String
  | .null => none
  | .string s => some s
  | v => some v.text

theorem Literal.optionalText?_of_value? {l : Literal} {v : Value} (h : l.value? = some v) :
    v.optionalText? = none := by
  simp only [Literal.value?] at h
  split at h
  · split at h
    · split at h
      · cases h
        rfl
      · obtain ⟨x, -, rfl⟩ := Option.map_eq_some_iff.mp h
        rfl
    · cases h
      rfl
  · obtain ⟨x, -, rfl⟩ := Option.map_eq_some_iff.mp h
    rfl

/-- Whether something is a text can be told from its meaning, however much room
there is: too deep a tree is no text either. -/
theorem Tree.optionalText?_eq_bind (room : Nat) (t : Tree) :
    t.optionalText? = (t.value? room).bind Value.optionalText? := by
  cases t with
  | null => rfl
  | bool b => rfl
  | number l =>
    symm
    exact Option.bind_eq_none_iff.mpr fun v hv ↦ Literal.optionalText?_of_value? hv
  | string pieces =>
    rw [Tree.optionalText?, Tree.value?, Option.bind_map]
    cases text? pieces <;> rfl
  | array items =>
    change none = _
    rw [Tree.value?]
    split
    · rfl
    · rw [Option.bind_map]
      cases values? (room - 1) items <;> rfl
  | object members =>
    change none = _
    rw [Tree.value?]
    split
    · rfl
    · rw [Option.bind_map]
      cases memberValues? (room - 1) members <;> rfl

theorem Tree.anyText?_eq_map (room : Nat) (t : Tree) :
    t.anyText? room = (t.value? room).map Value.anyText := by
  rw [Tree.anyText?]
  cases t.value? room with
  | none => rfl
  | some v => cases v <;> rfl

namespace Members

variable {members : Members} {name : String} {room : Nat}

theorem optionalText?_eq_sole (room : Nat) (name : String) (members : Members) :
    members.optionalText? name =
      sole ((members.meant room name).map (Option.bind · Value.optionalText?)) := by
  have hread : Tree.optionalText? = fun t ↦ (t.value? room).bind Value.optionalText? :=
    funext (Tree.optionalText?_eq_bind room)
  rw [meant, List.map_map]
  change _ = sole ((members.named name).map fun t ↦ (t.value? room).bind Value.optionalText?)
  rw [← hread, ← ask_eq_sole, optionalText?_eq_ask]

theorem anyText?_eq_sole (room : Nat) (name : String) (members : Members) :
    members.anyText? room name =
      sole ((members.meant room name).map (Option.map Value.anyText)) := by
  have hread : Tree.anyText? room = fun t ↦ (t.value? room).map Value.anyText :=
    funext (Tree.anyText?_eq_map room)
  rw [meant, List.map_map]
  change _ = sole ((members.named name).map fun t ↦ (t.value? room).map Value.anyText)
  rw [← hread, ← ask_eq_sole, anyText?_eq_ask]

theorem optionalText?_of_absent (h : members.named name = []) :
    members.optionalText? name = some none := by
  rw [optionalText?_eq_sole 0, meant, h]
  rfl

theorem anyText?_of_absent (h : members.named name = []) :
    members.anyText? room name = some none := by
  rw [anyText?_eq_sole, meant, h]
  rfl

/-- What a reader of one member could read has a meaning. -/
theorem isSome_of_sole {meanings : List (Option Value)} {f : Option Value → Option (Option String)}
    (hf : f none = none) {x : Option String} (h : sole (meanings.map f) = some x) :
    ∀ v ∈ meanings, v.isSome := by
  match meanings, h with
  | [], _ => simp
  | [none], h => exact nomatch hf.symm.trans h
  | [some v], _ => simp

end Members
end Enrollment.Json
