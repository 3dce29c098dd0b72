import Mathlib.Data.List.Forall2
import Enrollment.Proofs.Presentation
namespace Enrollment

/-!
# What is read out of a body

A body describes a registration at two levels.  Whatever an outcome or a rejection
says of it stands at one of the levels, and whatever stands there and is not `null`
is said: where both levels have it, an outcome says what the inner one has, a
rejection what the outer one has.
-/

namespace Json

/-! ### Texts -/

/-- The text of a tree: a string is its own, all else but `null` has its written form. -/
inductive Tree.Shows (room : Nat) : Tree → String → Prop
  | string {pieces : List Piece} {s : String} (h : text? pieces = some s) :
      Shows room (.string pieces) s
  | written {t : Tree} {v : Value} (h : t.value? room = some v) (hnull : v ≠ .null)
      (hstring : ∀ s, v ≠ .string s) : Shows room t v.text

namespace Tree

variable {room : Nat} {t : Tree}

theorem eq_null_of_value? (h : t.value? room = some .null) : t = .null := by
  have htext : t.optionalText? = some none := by
    rw [optionalText?_eq_bind room, h]
    rfl
  cases t with
  | null => rfl
  | string pieces =>
    obtain ⟨s, -, hs⟩ := Option.map_eq_some_iff.mp htext
    exact nomatch hs
  | _ => exact nomatch htext

theorem eq_string_of_value? {s : String} (h : t.value? room = some (.string s)) :
    ∃ pieces, t = .string pieces ∧ text? pieces = some s := by
  have htext : t.optionalText? = some (some s) := by
    rw [optionalText?_eq_bind room, h]
    rfl
  cases t with
  | string pieces =>
    obtain ⟨s', hs', heq⟩ := Option.map_eq_some_iff.mp htext
    exact ⟨pieces, rfl, hs'.trans heq⟩
  | _ => exact nomatch htext

theorem anyText?_eq_none_iff : t.anyText? room = some none ↔ t = .null := by
  constructor
  · intro h
    rw [anyText?_eq_map] at h
    obtain ⟨v, hv, hnone⟩ := Option.map_eq_some_iff.mp h
    cases v with
    | null => exact eq_null_of_value? hv
    | _ => exact nomatch hnone
  · rintro rfl
    rfl

theorem anyText?_eq_text_iff {text : String} :
    t.anyText? room = some (some text) ↔ t.Shows room text := by
  rw [anyText?_eq_map, Option.map_eq_some_iff]
  constructor
  · rintro ⟨v, hv, htext⟩
    cases v with
    | null => exact nomatch htext
    | string s =>
      cases htext
      obtain ⟨pieces, rfl, hpieces⟩ := eq_string_of_value? hv
      exact .string hpieces
    | _ =>
      cases htext
      exact .written hv nofun nofun
  · intro h
    cases h with
    | string hpieces => exact ⟨_, congrArg (Option.map Value.string) hpieces, rfl⟩
    | @written _ v hv hnull hstring =>
      refine ⟨v, hv, ?_⟩
      cases v with
      | null => exact absurd rfl hnull
      | string s => exact absurd rfl (hstring s)
      | _ => rfl

theorem anyText?_of_optionalText? {s : Option String} (h : t.optionalText? = some s) :
    t.anyText? room = some s := by
  cases h' : t.value? room with
  | none => simp [optionalText?_eq_bind room, h'] at h
  | some v =>
    rw [optionalText?_eq_bind room, h'] at h
    rw [anyText?_eq_map, h']
    cases v with
    | null => exact h
    | string s => exact h
    | _ => exact nomatch h

end Tree

/-! ### Levels -/

/-- The members at one level of a body, and how deep what stands there may be nested. -/
structure Level where
  members : Members
  room : Nat

namespace Level

/-- Something stands under the name, and it is not `null`. -/
def Has (l : Level) (name : String) : Prop :=
  ∃ t ∈ l.members.named name, t ≠ .null

/-- What stands under the name has this text. -/
def Says (l : Level) (name text : String) : Prop :=
  ∃ t ∈ l.members.named name, t.Shows l.room text

end Level

/-- Of these places, in their order, the first that has something says this text. -/
inductive FirstSays : List (Level × String) → String → Prop
  | here {l : Level} {name text : String} {rest : List (Level × String)}
      (h : l.Says name text) : FirstSays ((l, name) :: rest) text
  | later {l : Level} {name text : String} {rest : List (Level × String)}
      (hnone : ¬ l.Has name) (h : FirstSays rest text) : FirstSays ((l, name) :: rest) text

namespace FirstSays

variable {l : Level} {name text : String} {rest places places' : List (Level × String)}

theorem cons_iff :
    FirstSays ((l, name) :: rest) text ↔ l.Says name text ∨ ¬ l.Has name ∧ FirstSays rest text := by
  constructor
  · rintro (h | ⟨hnone, h⟩)
    · exact .inl h
    · exact .inr ⟨hnone, h⟩
  · rintro (h | ⟨hnone, h⟩)
    · exact .here h
    · exact .later hnone h

theorem not_nil : ¬ FirstSays [] text := nofun

theorem singleton_iff : FirstSays [(l, name)] text ↔ l.Says name text := by
  rw [cons_iff, or_iff_left]
  exact fun h ↦ not_nil h.2

theorem append_iff :
    FirstSays (places ++ places') text ↔
      FirstSays places text ∨ (∀ p ∈ places, ¬ p.1.Has p.2) ∧ FirstSays places' text := by
  induction places with
  | nil => simp [not_nil]
  | cons p places ih =>
    rw [List.cons_append, cons_iff, cons_iff, ih, List.forall_mem_cons]
    tauto

end FirstSays

/-- The value is there if one of the places has something, and it is what the first of
them says. -/
structure ReadFrom (places : List (Level × String)) (value : Option String) : Prop where
  isSome_iff : value.isSome ↔ ∃ p ∈ places, p.1.Has p.2
  eq_some_iff : ∀ text, value = some text ↔ FirstSays places text

namespace ReadFrom

variable {places places' : List (Level × String)} {value value' : Option String}

theorem eq_none_iff (h : ReadFrom places value) :
    value = none ↔ ∀ p ∈ places, ¬ p.1.Has p.2 := by
  rw [← Option.not_isSome_iff_eq_none, h.isSome_iff]
  simp only [not_exists, not_and]

/-- A value that stands in for another is read from the places of both. -/
theorem orElse (h : ReadFrom places value) (h' : ReadFrom places' value') :
    ReadFrom (places ++ places') (value <|> value') := by
  cases value with
  | none =>
    -- Nothing stands at the first places, so they are passed over.
    have hnone := h.eq_none_iff.mp rfl
    have hsaid (text : String) : ¬ FirstSays places text :=
      fun hsaid ↦ nomatch (h.eq_some_iff text).mpr hsaid
    constructor
    · simp only [List.mem_append, or_and_right, exists_or]
      rw [← h.isSome_iff, ← h'.isSome_iff]
      simp
    · intro text
      rw [FirstSays.append_iff, or_iff_right (hsaid text), and_iff_right hnone,
        ← h'.eq_some_iff]
      rfl
  | some text =>
    obtain ⟨p, hp, hhas⟩ := h.isSome_iff.mp rfl
    constructor
    · exact iff_of_true rfl ⟨p, List.mem_append_left _ hp, hhas⟩
    · intro text'
      rw [FirstSays.append_iff, ← h.eq_some_iff, or_iff_left]
      · rfl
      · exact fun hnone ↦ hnone.1 p hp hhas

theorem of_anyText? {room : Nat} {name : String} {members : Members}
    (h : members.anyText? room name = some value) :
    ReadFrom [(⟨members, room⟩, name)] value := by
  have hsaid (text : String) : FirstSays [(⟨members, room⟩, name)] text ↔
      ∃ t ∈ members.named name, t.anyText? room = some (some text) := by
    simp only [FirstSays.singleton_iff, Level.Says, Tree.anyText?_eq_text_iff]
  have hhas : Level.Has ⟨members, room⟩ name ↔
      ∃ t ∈ members.named name, t.anyText? room ≠ some none := by
    simp only [Level.Has, ne_eq, Tree.anyText?_eq_none_iff]
  rw [Members.anyText?_eq_ask, Members.ask_eq_some_iff] at h
  rcases h with ⟨hnamed, rfl⟩ | ⟨t, hnamed, ht⟩
  · constructor
    · simp [hhas, hnamed]
    · simp [hsaid, hnamed]
  · constructor
    · simp [hhas, hnamed, ht, Option.isSome_iff_ne_none]
    · simp [hsaid, hnamed, ht]

theorem of_optionalText? (room : Nat) {name : String} {members : Members}
    (h : members.optionalText? name = some value) :
    ReadFrom [(⟨members, room⟩, name)] value := by
  refine of_anyText? ?_
  rw [Members.optionalText?_eq_ask, Members.ask_eq_some_iff] at h
  rw [Members.anyText?_eq_ask, Members.ask_eq_some_iff]
  exact h.imp_right fun ⟨t, hnamed, ht⟩ ↦ ⟨t, hnamed, Tree.anyText?_of_optionalText? ht⟩

end ReadFrom
end Json

open Json

/-! ### Status words -/

/-- The one is a capital of A to Z, the other the same letter. -/
def IsCapitalOf (c d : Char) : Prop := 'A' ≤ c ∧ c ≤ 'Z' ∧ d.toNat = c.toNat + 32

/-- The same character, or the same of the letters A to Z. -/
def SameLetter (c d : Char) : Prop := c = d ∨ IsCapitalOf c d ∨ IsCapitalOf d c

/-- The same word, each of its letters a capital or not. -/
def SameWord (text word : String) : Prop := List.Forall₂ SameLetter text.toList word.toList

theorem char_le_iff {c d : Char} : c ≤ d ↔ c.toNat ≤ d.toNat := UInt32.le_iff_toNat_le

theorem toNat_toLower (c : Char) :
    c.toLower.toNat = if 'A' ≤ c ∧ c ≤ 'Z' then c.toNat + 32 else c.toNat := by
  by_cases h : 'A' ≤ c ∧ c ≤ 'Z'
  · have hle : c.toNat ≤ 90 := char_le_iff.mp h.2
    have hlower : c.toLower.toNat = (c.val + 32).toNat :=
      congrArg Char.toNat (dif_pos (show c.val ≥ 'A'.val ∧ c.val ≤ 'Z'.val from h))
    rw [if_pos h, hlower]
    exact Nat.mod_eq_of_lt (Nat.lt_of_le_of_lt (Nat.add_le_add_right hle 32) (by decide))
  · rw [if_neg h]
    exact congrArg Char.toNat (dif_neg (show ¬ (c.val ≥ 'A'.val ∧ c.val ≤ 'Z'.val) from h))

theorem toLower_eq_iff {c d : Char} : c.toLower = d.toLower ↔ SameLetter c d := by
  have hA : 'A'.toNat = 65 := rfl
  have hZ : 'Z'.toNat = 90 := rfl
  simp only [SameLetter, IsCapitalOf, ← Char.toNat_inj, toNat_toLower, char_le_iff, hA, hZ]
  split <;> split <;> omega

/-- A status is read off its own word and no other. -/
theorem Status.ofText?_eq_some_iff_sameWord {text : String} {status : Status} :
    Status.ofText? text = some status ↔ SameWord text status.name := by
  have hname : status.name.toList = status.name.toList.map Char.toLower := by
    cases status <;> decide
  rw [ofText?_eq_some_iff, lowered, hname, ← List.forall₂_eq_eq_eq, List.forall₂_map_left_iff,
    List.forall₂_map_right_iff]
  simp only [toLower_eq_iff, SameWord]

/-! ### Descriptions -/

namespace Description

variable {room : Nat} {members : Members}

/-- The error code may be anything that has a value; all else is a text or `null`. -/
def FitsPart (room : Nat) (name : String) (t : Tree) : Prop :=
  if name = "errorCode" then (t.value? room).isSome = true else t.IsOptionalText

/-- No part of a description stands there twice, and each is what it may be. -/
structure Typed (room : Nat) (members : Members) : Prop where
  once : ∀ name ∈ fields, (members.named name).length ≤ 1
  fits : ∀ name ∈ fields, ∀ t ∈ members.named name, FitsPart room name t

theorem isSome_part?_iff {name : String} :
    (part? room name members).isSome ↔
      (members.named name).length ≤ 1 ∧ ∀ t ∈ members.named name, FitsPart room name t := by
  simp only [part?, FitsPart]
  split
  · exact Members.isSome_anyText?_iff
  · rw [Members.optionalText?_eq_ask, Members.isSome_ask_iff]
    simp only [Tree.isOptionalText_iff]

/-- The description with these parts. -/
def ofParts (f : String → Option String) : Description :=
  ⟨f "registrationId", f "status", f "assignedHub", f "deviceId", f "generationId",
    f "errorCode", f "errorMessage", f "message", f "createdDateTimeUtc",
    f "lastUpdatedDateTimeUtc", f "etag"⟩

theorem part_ofParts (f : String → Option String) : ∀ p ∈ parts, p.2 (ofParts f) = f p.1 := by
  simp [parts, ofParts]

/-- Being typed is all it takes for a description to be read. -/
theorem typed_iff : Typed room members ↔ (ofMembers? room members).isSome := by
  constructor
  · intro h
    -- Each part is read on its own; the description is put together of what is found.
    let d := ofParts fun name ↦ (part? room name members).getD none
    have hd : ofMembers? room members = some d := by
      refine ofMembers?_eq_some_iff.mpr fun p hp ↦ ?_
      have hname : p.1 ∈ fields := List.mem_map_of_mem hp
      have hpart : (part? room p.1 members).isSome :=
        isSome_part?_iff.mpr ⟨h.once p.1 hname, h.fits p.1 hname⟩
      obtain ⟨s, hs⟩ := Option.isSome_iff_exists.mp hpart
      rw [part_ofParts _ p hp, hs]
      rfl
    exact Option.isSome_of_eq_some hd
  · intro h
    obtain ⟨d, hd⟩ := Option.isSome_iff_exists.mp h
    have hpart (name : String) (hname : name ∈ fields) :=
      isSome_part?_iff.mp (Option.isSome_iff_exists.mpr (exists_part?_of_ofMembers? hd hname))
    exact ⟨fun name hname ↦ (hpart name hname).1, fun name hname ↦ (hpart name hname).2⟩

/-- Each part is there if something stands under its name, and is what that says. -/
def IsReadFrom (d : Description) (l : Level) : Prop :=
  ∀ p ∈ parts, ReadFrom [(l, p.1)] (p.2 d)

theorem isReadFrom_of_ofMembers? {d : Description} (h : ofMembers? room members = some d) :
    d.IsReadFrom ⟨members, room⟩ := by
  intro p hp
  have hpart := ofMembers?_eq_some_iff.mp h p hp
  rw [part?] at hpart
  split at hpart
  · exact .of_anyText? hpart
  · exact .of_optionalText? room hpart

namespace IsReadFrom

variable {d d' : Description} {l l' : Level} (h : d.IsReadFrom l) (h' : d'.IsReadFrom l')
include h h'

/-- A part of one description, or else of another. -/
theorem orElse (p : String × (Description → Option String)) (hp : p ∈ parts) :
    ReadFrom [(l, p.1), (l', p.1)] (p.2 d <|> p.2 d') :=
  (h p hp).orElse (h' p hp)

/-- The text of an error, which has two names. -/
theorem errorText :
    ReadFrom [(l, "errorMessage"), (l, "message"), (l', "errorMessage"), (l', "message")]
      (d.errorMessage <|> d.message <|> d'.errorMessage <|> d'.message) := by
  have herror : ("errorMessage", errorMessage) ∈ parts := by simp [parts]
  have hmessage : ("message", message) ∈ parts := by simp [parts]
  exact (h _ herror).orElse ((h _ hmessage).orElse ((h' _ herror).orElse (h' _ hmessage)))

end IsReadFrom

theorem ofTree?_eq_some_iff {t : Tree} {d : Description} :
    ofTree? t = some d ↔
      t = .null ∧ empty = d ∨
        ∃ inner, t.record? fields = some inner ∧ ofMembers? (maxDepth - 2) inner = some d := by
  cases t <;> simp [ofTree?, Tree.record?, Option.bind_eq_some_iff]

end Description

/-! ### Bodies -/

namespace Response

variable {body : Bytes} {top nested : Members}

/-- The members of the record in a body; there are none if it is missing or `null`. -/
inductive IsNested (top : Members) : Members → Prop
  | absent (h : top.named "registrationState" = []) : IsNested top []
  | null (h : top.named "registrationState" = [.null]) : IsNested top []
  | record {t : Tree} {nested : Members} (h : top.named "registrationState" = [t])
      (hrecord : t.record? Description.fields = some nested) : IsNested top nested

/-- The body decodes, and these are the members of its two levels. -/
structure Decodes (body : Bytes) (top nested : Members) : Prop where
  members : HasMembers body top
  record : IsNested top nested
  once : (top.named "operationId").length ≤ 1
  operationId : ∀ t ∈ top.named "operationId", t.IsOptionalText
  top_typed : Description.Typed (maxDepth - 1) top
  nested_typed : Description.Typed (maxDepth - 2) nested
  fit : ∀ m ∈ top, m.1 = "registrationState" ∨ Fits m.2

/-- What is read of the record is read of its members. -/
theorem ask_registrationState_iff {d : Description} :
    top.ask "registrationState" .empty Description.ofTree? = some d ↔
      ∃ nested, IsNested top nested ∧ Description.ofMembers? (maxDepth - 2) nested = some d := by
  rw [Members.ask_eq_some_iff]
  constructor
  · rintro (⟨hnamed, rfl⟩ | ⟨t, hnamed, ht⟩)
    · exact ⟨[], .absent hnamed, rfl⟩
    · rcases Description.ofTree?_eq_some_iff.mp ht with ⟨rfl, rfl⟩ | ⟨inner, hrecord, hinner⟩
      · exact ⟨[], .null hnamed, rfl⟩
      · exact ⟨inner, .record hnamed hrecord, hinner⟩
  · rintro ⟨nested, hnested, hd⟩
    cases hnested with
    | absent hnamed => exact .inl ⟨hnamed, Option.some.inj hd⟩
    | null hnamed => exact .inr ⟨.null, hnamed, hd⟩
    | record hnamed hrecord =>
      exact .inr ⟨_, hnamed, Description.ofTree?_eq_some_iff.mpr (.inr ⟨_, hrecord, hd⟩)⟩

theorem ofMembers?_eq_some_iff {r : Response} :
    ofMembers? top = some r ↔
      top.optionalText? "operationId" = some r.operationId ∧
        Description.ofMembers? (maxDepth - 1) top = some r.top ∧
          (∃ nested, IsNested top nested ∧
            Description.ofMembers? (maxDepth - 2) nested = some r.nested) ∧
          ∀ m ∈ top, m.1 = "registrationState" ∨ Fits m.2 := by
  rw [← ask_registrationState_iff, ← all_fit_iff, ofMembers?_eq]
  simp only [Option.bind_eq_bind, Option.bind_eq_some_iff]
  constructor
  · rintro ⟨operationId, hid, d, htop, d', hnested, h⟩
    split at h
    · next hfit =>
      cases h
      exact ⟨hid, htop, hnested, hfit⟩
    · exact nomatch h
  · rintro ⟨hid, htop, hnested, hfit⟩
    exact ⟨_, hid, _, htop, _, hnested, if_pos hfit⟩

/-- The parts of a response are read from where they stand. -/
structure IsReadFrom (r : Response) (top nested : Level) : Prop where
  operationId : ReadFrom [(top, "operationId")] r.operationId
  top : r.top.IsReadFrom top
  nested : r.nested.IsReadFrom nested

theorem Decodes.read (h : Decodes body top nested) :
    ∃ r, ofBytes? body = some r ∧
      r.IsReadFrom ⟨top, maxDepth - 1⟩ ⟨nested, maxDepth - 2⟩ := by
  have hid := Members.optionalText?_eq_heldText h.once h.operationId
  obtain ⟨outer, houter⟩ := Option.isSome_iff_exists.mp (Description.typed_iff.mp h.top_typed)
  obtain ⟨inner, hinner⟩ := Option.isSome_iff_exists.mp (Description.typed_iff.mp h.nested_typed)
  refine ⟨⟨_, outer, inner⟩, ?_, .of_optionalText? _ hid,
    Description.isReadFrom_of_ofMembers? houter, Description.isReadFrom_of_ofMembers? hinner⟩
  rw [ofBytes?_of_hasMembers h.members, ofMembers?_eq_some_iff]
  exact ⟨hid, houter, ⟨nested, h.record, hinner⟩, h.fit⟩

/-- What can be read decodes. -/
theorem exists_decodes {r : Response} (h : ofBytes? body = some r) :
    ∃ top nested, Decodes body top nested := by
  obtain ⟨tree, htree, h⟩ := Option.bind_eq_some_iff.mp h
  obtain ⟨top, hmembers, h⟩ := Option.bind_eq_some_iff.mp h
  obtain ⟨hid, htop, ⟨nested, hrecord, hnested⟩, hfit⟩ := ofMembers?_eq_some_iff.mp h
  obtain ⟨honce, htext⟩ := Members.isOptionalText_of_optionalText? hid
  exact ⟨top, nested, Option.bind_eq_some_iff.mpr ⟨tree, htree, hmembers⟩, hrecord, honce, htext,
    Description.typed_iff.mpr (Option.isSome_of_eq_some htop),
    Description.typed_iff.mpr (Option.isSome_of_eq_some hnested), hfit⟩

end Response

/-! ### Outcomes -/

/-- The optional parts of an outcome and where they are taken from: the operation id
from the top level, all else from the record before the top level. -/
def Outcome.sources (top nested : Level) :
    List ((Outcome → Option String) × List (Level × String)) :=
  [(operationId, [(top, "operationId")]),
    (registrationId, [(nested, "registrationId"), (top, "registrationId")]),
    (assignedHub, [(nested, "assignedHub"), (top, "assignedHub")]),
    (deviceId, [(nested, "deviceId"), (top, "deviceId")]),
    (generationId, [(nested, "generationId"), (top, "generationId")]),
    (errorCode, [(nested, "errorCode"), (top, "errorCode")]),
    (errorMessage, [(nested, "errorMessage"), (nested, "message"), (top, "errorMessage"),
      (top, "message")]),
    (createdAt, [(nested, "createdDateTimeUtc"), (top, "createdDateTimeUtc")]),
    (lastUpdatedAt, [(nested, "lastUpdatedDateTimeUtc"), (top, "lastUpdatedDateTimeUtc")]),
    (etag, [(nested, "etag"), (top, "etag")])]

/-- What becomes of a body that decodes, by what its two levels say: the status at the
top level or else the one in the record decides on an outcome, and without a status an
error code at either level makes a rejection. -/
structure Tells (top nested : Level) (result : Except Error Outcome) : Prop where
  ok_iff : ∀ status, (∃ o, result = .ok o ∧ o.status = status) ↔
    ∃ text, FirstSays [(top, "status"), (nested, "status")] text ∧ SameWord text status.name
  unknown : top.Has "status" ∨ nested.Has "status" →
    (∀ text, FirstSays [(top, "status"), (nested, "status")] text →
      ∀ status : Status, ¬ SameWord text status.name) →
    ∃ text, FirstSays [(top, "status"), (nested, "status")] text ∧
      result = .error (.client (.unknownStatus text))
  hub_iff : (∃ code message, result = .error (.hub code message)) ↔
    ¬ top.Has "status" ∧ ¬ nested.Has "status" ∧ (top.Has "errorCode" ∨ nested.Has "errorCode")
  silent : ¬ top.Has "status" → ¬ nested.Has "status" → ¬ top.Has "errorCode" →
    ¬ nested.Has "errorCode" → result = .error (.client .noStatus)
  told : ∀ o, result = .ok o → ∀ s ∈ Outcome.sources top nested, ReadFrom s.2 (s.1 o)
  rejected : ∀ code message, result = .error (.hub code message) →
    ReadFrom [(top, "errorCode"), (nested, "errorCode")] code ∧
      ∃ found, message = found.getD "registration rejected" ∧
        ReadFrom [(top, "errorMessage"), (top, "message"), (nested, "errorMessage"),
          (nested, "message")] found

namespace Response

/-- The outcome of a response that has this status. -/
def told (r : Response) (status : Status) : Outcome where
  status := status
  operationId := r.operationId
  registrationId := r.nested.registrationId <|> r.top.registrationId
  assignedHub := r.nested.assignedHub <|> r.top.assignedHub
  deviceId := r.nested.deviceId <|> r.top.deviceId
  generationId := r.nested.generationId <|> r.top.generationId
  errorCode := r.nested.errorCode <|> r.top.errorCode
  errorMessage := r.nested.errorMessage <|> r.nested.message <|>
    r.top.errorMessage <|> r.top.message
  createdAt := r.nested.createdAt <|> r.top.createdAt
  lastUpdatedAt := r.nested.lastUpdatedAt <|> r.top.lastUpdatedAt
  etag := r.nested.etag <|> r.top.etag

theorem outcome_eq_ok_iff {r : Response} {o : Outcome} :
    r.outcome = .ok o ↔ ∃ text status, (r.top.status <|> r.nested.status) = some text ∧
      Status.ofText? text = some status ∧ r.told status = o := by
  rw [outcome]
  cases r.top.status <|> r.nested.status with
  | none => cases r.top.errorCode <|> r.nested.errorCode <;> simp
  | some text =>
    cases hstatus : Status.ofText? text with
    | none => simp [hstatus]
    | some status => simp [hstatus, told]

theorem outcome_eq_hub_iff {r : Response} {code : Option String} {message : String} :
    r.outcome = .error (.hub code message) ↔ (r.top.status <|> r.nested.status) = none ∧
      code.isSome ∧ (r.top.errorCode <|> r.nested.errorCode) = code ∧
        (r.top.errorMessage <|> r.top.message <|> r.nested.errorMessage <|>
          r.nested.message).getD "registration rejected" = message := by
  rw [outcome]
  cases r.top.status <|> r.nested.status with
  | none => cases r.top.errorCode <|> r.nested.errorCode <;> cases code <;> simp
  | some text => cases hstatus : Status.ofText? text <;> simp [hstatus]

theorem outcome_ne_malformedBody (r : Response) : r.outcome ≠ .error .malformedBody := by
  rw [outcome]
  cases r.top.status <|> r.nested.status with
  | none => cases r.top.errorCode <|> r.nested.errorCode <;> simp
  | some text => cases hstatus : Status.ofText? text <;> simp [hstatus]

namespace IsReadFrom

variable {r : Response} {top nested : Level} (h : r.IsReadFrom top nested)
include h

theorem status :
    ReadFrom [(top, "status"), (nested, "status")] (r.top.status <|> r.nested.status) :=
  h.top.orElse h.nested ("status", Description.status) (by simp [Description.parts])

theorem errorCode :
    ReadFrom [(top, "errorCode"), (nested, "errorCode")]
      (r.top.errorCode <|> r.nested.errorCode) :=
  h.top.orElse h.nested ("errorCode", Description.errorCode) (by simp [Description.parts])

theorem status_eq_none_iff :
    (r.top.status <|> r.nested.status) = none ↔ ¬ top.Has "status" ∧ ¬ nested.Has "status" := by
  rw [h.status.eq_none_iff]
  simp

theorem told (status : Status) :
    ∀ s ∈ Outcome.sources top nested, ReadFrom s.2 (s.1 (r.told status)) := by
  -- The status and the two texts of an error have sources of their own.
  have hparts := h.nested.orElse h.top
  simp only [Description.parts, List.forall_mem_cons] at hparts
  obtain ⟨hregistration, -, hhub, hdevice, hgeneration, hcode, -, -, hcreated, hupdated, hetag,
    -⟩ := hparts
  simp only [Outcome.sources, List.forall_mem_cons]
  exact ⟨h.operationId, hregistration, hhub, hdevice, hgeneration, hcode,
    h.nested.errorText h.top, hcreated, hupdated, hetag, List.forall_mem_nil _⟩

theorem tells : Tells top nested r.outcome where
  ok_iff status := by
    constructor
    · rintro ⟨o, ho, rfl⟩
      obtain ⟨text, status, htext, hstatus, rfl⟩ := outcome_eq_ok_iff.mp ho
      exact ⟨text, (h.status.eq_some_iff text).mp htext,
        Status.ofText?_eq_some_iff_sameWord.mp hstatus⟩
    · rintro ⟨text, hsaid, hword⟩
      exact ⟨r.told status, outcome_eq_ok_iff.mpr ⟨text, status,
        (h.status.eq_some_iff text).mpr hsaid,
        Status.ofText?_eq_some_iff_sameWord.mpr hword, rfl⟩, rfl⟩
  unknown hhas hword := by
    obtain ⟨text, htext⟩ := Option.isSome_iff_exists.mp (h.status.isSome_iff.mpr (by simpa))
    have hsaid := (h.status.eq_some_iff text).mp htext
    have hstatus : Status.ofText? text = none := by
      refine Option.eq_none_iff_forall_ne_some.mpr fun status hstatus ↦ ?_
      exact hword text hsaid status (Status.ofText?_eq_some_iff_sameWord.mp hstatus)
    refine ⟨text, hsaid, ?_⟩
    rw [outcome, htext]
    simp only [hstatus]
  hub_iff := by
    rw [← and_assoc, ← h.status_eq_none_iff]
    have hcode : (top.Has "errorCode" ∨ nested.Has "errorCode") ↔
        (r.top.errorCode <|> r.nested.errorCode).isSome := by
      rw [h.errorCode.isSome_iff]
      simp
    rw [hcode]
    constructor
    · rintro ⟨code, message, hresult⟩
      obtain ⟨hnone, hsome, rfl, -⟩ := outcome_eq_hub_iff.mp hresult
      exact ⟨hnone, hsome⟩
    · rintro ⟨hnone, hsome⟩
      exact ⟨_, _, outcome_eq_hub_iff.mpr ⟨hnone, hsome, rfl, rfl⟩⟩
  silent htop hnested hcode hcode' := by
    have hstatus := h.status_eq_none_iff.mpr ⟨htop, hnested⟩
    have hnone := h.errorCode.eq_none_iff.mpr (by simp [hcode, hcode'])
    rw [outcome, hstatus]
    simp only [hnone]
  told o ho := by
    obtain ⟨text, status, -, -, rfl⟩ := outcome_eq_ok_iff.mp ho
    exact h.told status
  rejected code message hresult := by
    obtain ⟨-, -, rfl, rfl⟩ := outcome_eq_hub_iff.mp hresult
    exact ⟨h.errorCode, _, rfl, h.top.errorText h.nested⟩

end IsReadFrom
end Response

/-- A body that decodes is told as its levels say; any other is malformed. -/
theorem outcome_read_from_levels (body : Bytes) :
    (Outcome.ofBytes body = .error .malformedBody ↔
        ¬ ∃ top nested, Response.Decodes body top nested) ∧
      ∀ top nested, Response.Decodes body top nested →
        Tells ⟨top, maxDepth - 1⟩ ⟨nested, maxDepth - 2⟩ (Outcome.ofBytes body) := by
  constructor
  · rw [iff_not_comm]
    constructor
    · rintro ⟨top, nested, h⟩
      obtain ⟨r, hr, -⟩ := h.read
      rw [Outcome.ofBytes, hr]
      exact r.outcome_ne_malformedBody
    · intro hne
      cases hr : Response.ofBytes? body with
      | none => exact absurd (by rw [Outcome.ofBytes, hr]) hne
      | some r => exact Response.exists_decodes hr
  · intro top nested h
    obtain ⟨r, hr, hread⟩ := h.read
    rw [Outcome.ofBytes, hr]
    exact hread.tells

/-! ### Two bodies that say something at both levels -/

/-- The record with these members, none of their names escaped. -/
def plainRecord (members : Members) : Tree := .object (members.map fun m ↦ (plain m.1, m.2))

def failedRecord : Members :=
  [("status", .string (plain "assigned")), ("etag", .null), ("deviceId", .string (plain "d")),
    ("errorCode", .array [.bool true, .null]), ("errorMessage", .null)]

def failedTop : Members :=
  [("operationId", .string (plain "op")), ("status", .string (plain "FAILED")),
    ("errorCode", .string (plain "7")), ("message", .string (plain "out")),
    ("etag", .string (plain "e")), ("registrationState", plainRecord failedRecord)]

def failedBody : Bytes := Bytes.ofText <|
  "\x7b\"operationId\":\"op\",\"status\":\"FAILED\",\"errorCode\":\"7\"," ++
    "\"message\":\"out\",\"etag\":\"e\",\"registrationState\":" ++
    "\x7b\"status\":\"assigned\",\"etag\":null,\"deviceId\":\"d\"," ++
    "\"errorCode\":[true,null],\"errorMessage\":null\x7d\x7d"

def refusedRecord : Members :=
  [("errorCode", .string (plain "4")), ("errorMessage", .string (plain "in"))]

def refusedTop : Members :=
  [("errorCode", .null), ("message", .string (plain "out")),
    ("registrationState", plainRecord refusedRecord)]

def refusedBody : Bytes := Bytes.ofText <|
  "\x7b\"errorCode\":null,\"message\":\"out\",\"registrationState\":" ++
    "\x7b\"errorCode\":\"4\",\"errorMessage\":\"in\"\x7d\x7d"

theorem decodes_failedBody : Response.Decodes failedBody failedTop failedRecord where
  members := by decide +kernel
  record := by
    have hrecord : failedTop.named "registrationState" = [plainRecord failedRecord] := by
      decide +kernel
    exact .record hrecord (by decide +kernel)
  once := by decide +kernel
  operationId := by
    simp only [Tree.isOptionalText_iff]
    decide +kernel
  top_typed := Description.typed_iff.mpr (by decide +kernel)
  nested_typed := Description.typed_iff.mpr (by decide +kernel)
  fit := (Response.all_fit_iff _).mp (by decide +kernel)

theorem decodes_refusedBody : Response.Decodes refusedBody refusedTop refusedRecord where
  members := by decide +kernel
  record := by
    have hrecord : refusedTop.named "registrationState" = [plainRecord refusedRecord] := by
      decide +kernel
    exact .record hrecord (by decide +kernel)
  once := by decide +kernel
  operationId := by
    simp only [Tree.isOptionalText_iff]
    decide +kernel
  top_typed := Description.typed_iff.mpr (by decide +kernel)
  nested_typed := Description.typed_iff.mpr (by decide +kernel)
  fit := (Response.all_fit_iff _).mp (by decide +kernel)

theorem outcome_read_from_levels_failed :
    Response.Decodes failedBody failedTop failedRecord ∧
      Tells ⟨failedTop, maxDepth - 1⟩ ⟨failedRecord, maxDepth - 2⟩
        (Outcome.ofBytes failedBody) ∧
      Outcome.ofBytes failedBody = .ok ⟨.failed, some "op", none, none, some "d", none,
        some "[true,null]", some "out", none, none, some "e"⟩ ∧
      Response.Decodes refusedBody refusedTop refusedRecord ∧
      Tells ⟨refusedTop, maxDepth - 1⟩ ⟨refusedRecord, maxDepth - 2⟩
        (Outcome.ofBytes refusedBody) ∧
      Outcome.ofBytes refusedBody = .error (.hub (some "4") "out") := by
  have hfailed : Response.ofBytes? failedBody = some ⟨some "op",
      { Description.empty with
        status := some "FAILED", errorCode := some "7", message := some "out", etag := some "e" },
      { Description.empty with
        status := some "assigned", deviceId := some "d",
        errorCode := some "[true,null]" }⟩ := by
    rw [Response.ofBytes?_of_hasMembers decodes_failedBody.members]
    decide +kernel
  have hrefused : Response.ofBytes? refusedBody = some ⟨none,
      { Description.empty with message := some "out" },
      { Description.empty with errorCode := some "4", errorMessage := some "in" }⟩ := by
    rw [Response.ofBytes?_of_hasMembers decodes_refusedBody.members]
    decide +kernel
  have hstatus : Status.ofText? "FAILED" = some .failed := by decide +kernel
  refine ⟨decodes_failedBody, (outcome_read_from_levels _).2 _ _ decodes_failedBody, ?_,
    decodes_refusedBody, (outcome_read_from_levels _).2 _ _ decodes_refusedBody, ?_⟩
  · rw [Outcome.ofBytes, hfailed]
    simp [Response.outcome, Description.empty, hstatus]
  · rw [Outcome.ofBytes, hrefused]
    rfl

end Enrollment
