import Enrollment.Json.Reader
import Enrollment.Json.Record
namespace Enrollment.Json

/-!
# What stands under a name

The members of an object by name, in their order.  A reader that asks for a name
finds what stands under it, if nothing else does.
-/

/-! ### Trees are compared -/

mutual

def Tree.same : Tree → Tree → Bool
  | .null, .null => true
  | .bool a, .bool b => a == b
  | .number a, .number b => a == b
  | .string a, .string b => a == b
  | .array as, .array bs => sameItems as bs
  | .object as, .object bs => sameMembers as bs
  | _, _ => false

def sameItems : List Tree → List Tree → Bool
  | [], [] => true
  | a :: as, b :: bs => a.same b && sameItems as bs
  | _, _ => false

def sameMembers : List (List Piece × Tree) → List (List Piece × Tree) → Bool
  | [], [] => true
  | (key, a) :: as, (key', b) :: bs => key == key' && a.same b && sameMembers as bs
  | _, _ => false

end

mutual

theorem Tree.same_iff : ∀ {a b : Tree}, a.same b = true ↔ a = b
  | .null, b => by cases b <;> simp [Tree.same]
  | .bool _, b => by cases b <;> simp [Tree.same]
  | .number _, b => by cases b <;> simp [Tree.same]
  | .string _, b => by cases b <;> simp [Tree.same]
  | .array _, b => by cases b <;> simp [Tree.same, sameItems_iff]
  | .object _, b => by cases b <;> simp [Tree.same, sameMembers_iff]

theorem sameItems_iff : ∀ {as bs : List Tree}, sameItems as bs = true ↔ as = bs
  | [], bs => by cases bs <;> simp [sameItems]
  | a :: as, bs => by cases bs <;> simp [sameItems, Tree.same_iff, sameItems_iff]

theorem sameMembers_iff :
    ∀ {as bs : List (List Piece × Tree)}, sameMembers as bs = true ↔ as = bs
  | [], bs => by cases bs <;> simp [sameMembers]
  | (key, a) :: as, bs => by
    cases bs <;> simp [sameMembers, Tree.same_iff, sameMembers_iff, Prod.ext_iff]

end

instance : DecidableEq Tree :=
  fun _ _ ↦ decidable_of_iff _ Tree.same_iff

/-! ### Members by name -/

/-- The body is an object with these members. -/
def HasMembers (body : Bytes) (members : Members) : Prop :=
  (Tree.ofBytes? body).bind Tree.object? = some members

instance (body : Bytes) (members : Members) : Decidable (HasMembers body members) :=
  inferInstanceAs (Decidable (_ = _))

theorem HasMembers.ne_nil {body : Bytes} {members : Members} (h : HasMembers body members) :
    body ≠ [] := by
  rintro rfl
  exact nomatch h

theorem Tree.record?_of_object? {t : Tree} {members : Members} (h : t.object? = some members)
    (fields : List String) : t.record? fields = some members := by
  cases t with
  | object raw => exact h
  | _ => exact nomatch h

/-- A text written without escapes. -/
def plain (s : String) : List Piece := (Bytes.ofText s).map .byte

@[simp] theorem text?_plain (s : String) : text? (plain s) = some s := by
  have hbytes (bs : Bytes) : pieceBytes? (bs.map .byte) = some bs := by
    induction bs with
    | nil => rfl
    | cons b bs ih => simp [pieceBytes?, ih]
  rw [text?, plain, hbytes]
  exact Bytes.text?_ofText s

/-- All that stands under a name. -/
def Members.named (name : String) (members : Members) : List Tree :=
  (members.filter fun m ↦ m.1 == name).map Prod.snd

theorem Members.lookup?_eq_named (name : String) (members : Members) :
    members.lookup? name =
      match members.named name with
      | [] => some none
      | [t] => some (some t)
      | _ => none := by
  rw [lookup?, named]
  generalize members.filter (fun m ↦ m.1 == name) = found
  match found with
  | [] => rfl
  | [_] => rfl
  | _ :: _ :: _ => rfl

/-- What a reader of one member answers, where it has an answer for the member that
is absent. -/
def Members.ask {α : Type} (name : String) (absent : α) (read : Tree → Option α)
    (members : Members) : Option α :=
  (members.lookup? name).bind fun found ↦ found.elim (some absent) read

section

variable {α : Type} {name : String} {members : Members} {absent : α} {read : Tree → Option α}

theorem Members.ask_eq_some_iff {a : α} :
    members.ask name absent read = some a ↔
      members.named name = [] ∧ absent = a ∨ ∃ t, members.named name = [t] ∧ read t = some a := by
  rw [ask, lookup?_eq_named]
  match members.named name with
  | [] => simp
  | [t] => simp
  | _ :: _ :: _ => simp

theorem Members.ask_of_singleton {t : Tree} (h : members.named name = [t]) :
    members.ask name absent read = read t := by
  rw [ask, lookup?_eq_named, h]
  rfl

theorem Members.isSome_ask_iff :
    (members.ask name absent read).isSome ↔
      (members.named name).length ≤ 1 ∧ ∀ t ∈ members.named name, (read t).isSome := by
  rw [ask, lookup?_eq_named]
  match members.named name with
  | [] => simp
  | [t] => simp
  | _ :: _ :: _ => simp

end

theorem Members.optionalText?_eq_ask (name : String) (members : Members) :
    members.optionalText? name = members.ask name none Tree.optionalText? := by
  rw [Members.optionalText?, ask]
  cases members.lookup? name with
  | none => rfl
  | some found => cases found <;> rfl

theorem Members.anyText?_eq_ask (room : Nat) (name : String) (members : Members) :
    members.anyText? room name = members.ask name none (Tree.anyText? room) := by
  rw [Members.anyText?, ask]
  cases members.lookup? name with
  | none => rfl
  | some found => cases found <;> rfl

def Tree.isNull : Tree → Bool
  | .null => true
  | _ => false

/-- The text that stands in a tree, if the tree is one. -/
def Tree.asText? : Tree → Option String
  | .string pieces => text? pieces
  | _ => none

/-- What an optional text may be. -/
inductive Tree.IsOptionalText : Tree → Prop
  | null : IsOptionalText .null
  | text {pieces : List Piece} {s : String} (h : text? pieces = some s) :
      IsOptionalText (.string pieces)

theorem Tree.IsOptionalText.optionalText? {t : Tree} (h : t.IsOptionalText) :
    t.optionalText? = some t.asText? := by
  cases h with
  | null => rfl
  | text h => simp [Tree.optionalText?, Tree.asText?, h]

theorem Tree.isOptionalText_of_optionalText? {t : Tree} {s : Option String}
    (h : t.optionalText? = some s) : t.IsOptionalText := by
  cases t with
  | null => exact .null
  | string pieces =>
    obtain ⟨s, hs, -⟩ := Option.map_eq_some_iff.mp h
    exact .text hs
  | _ => exact nomatch h

theorem Tree.isOptionalText_iff {t : Tree} : t.IsOptionalText ↔ t.optionalText?.isSome := by
  constructor
  · exact fun h ↦ Option.isSome_of_eq_some h.optionalText?
  · intro h
    obtain ⟨s, hs⟩ := Option.isSome_iff_exists.mp h
    exact isOptionalText_of_optionalText? hs

/-- The first text among some trees, of which those that are `null` count for
nothing. -/
def heldText (ts : List Tree) : Option String :=
  (ts.filter fun t ↦ !t.isNull).head?.bind Tree.asText?

theorem heldText_cons {t : Tree} (h : t.IsOptionalText) (ts : List Tree) :
    heldText (t :: ts) = (t.asText? <|> heldText ts) := by
  cases h with
  | null => rfl
  | text h => simp [heldText, Tree.isNull, Tree.asText?, h]

theorem heldText_append {xs : List Tree} (hxs : ∀ t ∈ xs, t.IsOptionalText) (ys : List Tree) :
    heldText (xs ++ ys) = (heldText xs <|> heldText ys) := by
  induction xs with
  | nil => rfl
  | cons t xs ih =>
    have ht : t.IsOptionalText := hxs t (by simp)
    have hrest := ih fun t' ht' ↦ hxs t' (by simp [ht'])
    rw [List.cons_append, heldText_cons ht, heldText_cons ht, hrest]
    cases t.asText? <;> rfl

theorem Members.optionalText?_eq_heldText {name : String} {members : Members}
    (honce : (members.named name).length ≤ 1)
    (htext : ∀ t ∈ members.named name, t.IsOptionalText) :
    members.optionalText? name = some (heldText (members.named name)) := by
  rw [optionalText?_eq_ask, ask_eq_some_iff]
  match members.named name, honce, htext with
  | [], _, _ => exact .inl ⟨rfl, rfl⟩
  | [t], _, htext =>
    have ht : t.IsOptionalText := htext t (by simp)
    have hheld : heldText [t] = t.asText? := by
      rw [heldText_cons ht]
      cases t.asText? <;> rfl
    exact .inr ⟨t, rfl, ht.optionalText?.trans (congrArg some hheld.symm)⟩

/-- A text that could be read stands there once and is a text or `null`. -/
theorem Members.isOptionalText_of_optionalText? {name : String} {members : Members}
    {s : Option String} (h : members.optionalText? name = some s) :
    (members.named name).length ≤ 1 ∧ ∀ t ∈ members.named name, t.IsOptionalText := by
  simp only [Tree.isOptionalText_iff]
  rw [optionalText?_eq_ask] at h
  exact isSome_ask_iff.mp (Option.isSome_of_eq_some h)

/-- A value that could be read stands there once and has a meaning. -/
theorem Members.isSome_anyText?_iff {room : Nat} {name : String} {members : Members} :
    (members.anyText? room name).isSome ↔
      (members.named name).length ≤ 1 ∧ ∀ t ∈ members.named name, (t.value? room).isSome := by
  rw [anyText?_eq_ask, isSome_ask_iff]
  simp only [Tree.anyText?, Option.isSome_map]

end Enrollment.Json
