import Enrollment.Handshake
import Enrollment.Proofs.Base64
import Enrollment.Proofs.Members
namespace Enrollment

/-!
# Nonce replies that hand out a key

A reply hands out a key if the key's text is the only one that stands in it, at
the top level or in the record `tpm`, and if whatever else the reader looks at
has the type it must have.
-/

namespace NonceReply

open Json

/-- What stands for the key in the inner record. -/
def innerKeys (t : Tree) : List Tree :=
  match t.record? ["authenticationKey"] with
  | some inner => inner.named "authenticationKey"
  | none => []

/-- What stands for the key in a reply, at its top level and then inside. -/
def keys (members : Members) : List Tree :=
  members.named "authenticationKey" ++ (members.named "tpm").flatMap innerKeys

/-- Of all that stands for the key only one is not `null`, and that is this text. -/
def Carries (encoded : String) (members : Members) : Prop :=
  ∃ pieces, text? pieces = some encoded ∧
    (keys members).filter (fun t ↦ !t.isNull) = [.string pieces]

/-- An inner record holds at most one key, which is an optional text. -/
structure InnerTyped (t : Tree) : Prop where
  record : (t.record? ["authenticationKey"]).isSome
  once : (innerKeys t).length ≤ 1
  text : ∀ key ∈ innerKeys t, key.IsOptionalText

/-- The members the reader looks at stand in the reply once and have their types. -/
structure Typed (members : Members) : Prop where
  once : ∀ name ∈ fields, (members.named name).length ≤ 1
  texts : ∀ name ∈ ["authenticationKey", "errorMessage", "message"],
    ∀ t ∈ members.named name, t.IsOptionalText
  code : ∀ t ∈ members.named "errorCode", (t.value? (maxDepth - 1)).isSome
  inner : ∀ t ∈ members.named "tpm", t = .null ∨ InnerTyped t

theorem nestedKey?_eq_bind {t : Tree} (h : t ≠ .null) :
    nestedKey? t = (t.record? ["authenticationKey"]).bind fun inner ↦
      inner.optionalText? "authenticationKey" := by
  cases t with
  | null => exact absurd rfl h
  | _ => rfl

theorem InnerTyped.nestedKey? {t : Tree} (h : InnerTyped t) :
    NonceReply.nestedKey? t = some (heldText (innerKeys t)) := by
  obtain ⟨inner, hinner⟩ := Option.isSome_iff_exists.mp h.record
  have hkeys : innerKeys t = inner.named "authenticationKey" := by
    rw [innerKeys, hinner]
  have htext := Members.optionalText?_eq_heldText (hkeys ▸ h.once) (hkeys ▸ h.text)
  have hnull : t ≠ .null := by
    rintro rfl
    exact nomatch hinner
  rw [nestedKey?_eq_bind hnull, hinner, hkeys]
  exact htext

/-- The key that is read of the record `tpm`, if there is one. -/
def tpmKey? (members : Members) : Option (Option String) :=
  (members.lookup? "tpm").bind fun found ↦ found.elim (some none) nestedKey?

theorem ofMembers?_eq (members : Members) :
    NonceReply.ofMembers? members = (do
      let topKey ← members.optionalText? "authenticationKey"
      let nestedKey ← tpmKey? members
      let errorCode ← members.anyText? (maxDepth - 1) "errorCode"
      let errorMessage ← members.optionalText? "errorMessage"
      let message ← members.optionalText? "message"
      return ⟨topKey, nestedKey, errorCode, errorMessage, message⟩) := by
  rw [NonceReply.ofMembers?, tpmKey?]
  cases members.lookup? "tpm" with
  | none => rfl
  | some found => cases found <;> rfl

theorem tpmKey?_eq_ask (members : Members) :
    NonceReply.tpmKey? members = members.ask "tpm" none nestedKey? := rfl

theorem Typed.tpmKey? {members : Members} (h : Typed members) :
    NonceReply.tpmKey? members =
      some (heldText ((members.named "tpm").flatMap innerKeys)) := by
  have honce : (members.named "tpm").length ≤ 1 := h.once "tpm" (by decide)
  have hinner := h.inner
  rw [tpmKey?_eq_ask, Members.ask_eq_some_iff]
  match members.named "tpm", honce, hinner with
  | [], _, _ => exact .inl ⟨rfl, rfl⟩
  | [t], _, hinner =>
    refine .inr ⟨t, rfl, ?_⟩
    rw [List.flatMap_singleton]
    rcases hinner t (by simp) with rfl | ht
    · rfl
    · exact ht.nestedKey?

theorem Typed.errorCode {members : Members} (h : Typed members) :
    ∃ code, members.anyText? (maxDepth - 1) "errorCode" = some code :=
  Option.isSome_iff_exists.mp
    (Members.isSome_anyText?_iff.mpr ⟨h.once "errorCode" (by decide), h.code⟩)

/-- The key that is read out of a reply is the first text that stands for it. -/
theorem Typed.ofMembers? {members : Members} (h : Typed members) :
    ∃ reply, NonceReply.ofMembers? members = some reply ∧
      (reply.topKey <|> reply.nestedKey) = heldText (keys members) := by
  have htext (name : String) (hfield : name ∈ fields)
      (hname : name ∈ ["authenticationKey", "errorMessage", "message"]) :
      members.optionalText? name = some (heldText (members.named name)) :=
    Members.optionalText?_eq_heldText (h.once name hfield) (h.texts name hname)
  obtain ⟨code, hcode⟩ := h.errorCode
  refine ⟨⟨heldText (members.named "authenticationKey"),
    heldText ((members.named "tpm").flatMap innerKeys), code,
    heldText (members.named "errorMessage"), heldText (members.named "message")⟩, ?_, ?_⟩
  · rw [ofMembers?_eq, htext "authenticationKey" (by decide) (by decide), h.tpmKey?, hcode,
      htext "errorMessage" (by decide) (by decide), htext "message" (by decide) (by decide)]
    rfl
  · exact (heldText_append (h.texts "authenticationKey" (by decide)) _).symm

theorem InnerTyped.of_nestedKey? {t : Tree} {key : Option String} (hnull : t ≠ .null)
    (h : NonceReply.nestedKey? t = some key) : InnerTyped t := by
  rw [nestedKey?_eq_bind hnull] at h
  obtain ⟨inner, hinner, hkey⟩ := Option.bind_eq_some_iff.mp h
  have hkeys : innerKeys t = inner.named "authenticationKey" := by
    rw [innerKeys, hinner]
  obtain ⟨honce, htext⟩ := Members.isOptionalText_of_optionalText? hkey
  exact ⟨Option.isSome_of_eq_some hinner, hkeys ▸ honce, hkeys ▸ htext⟩

/-- No reply can be read but a typed one. -/
theorem Typed.of_ofMembers? {members : Members} {reply : NonceReply}
    (h : NonceReply.ofMembers? members = some reply) : Typed members := by
  simp only [ofMembers?_eq, Option.bind_eq_bind, Option.bind_eq_some_iff] at h
  obtain ⟨_, htop, _, htpm, _, hcode, _, herror, _, hmessage, -⟩ := h
  have htop := Members.isOptionalText_of_optionalText? htop
  have htpm := Members.isSome_ask_iff.mp (Option.isSome_of_eq_some htpm)
  have hcode := Members.isSome_anyText?_iff.mp (Option.isSome_of_eq_some hcode)
  have herror := Members.isOptionalText_of_optionalText? herror
  have hmessage := Members.isOptionalText_of_optionalText? hmessage
  refine ⟨?_, ?_, hcode.2, fun t ht ↦ ?_⟩
  · simp only [fields, List.forall_mem_cons]
    exact ⟨htop.1, htpm.1, hcode.1, herror.1, hmessage.1, fun _ h ↦ nomatch h⟩
  · simp only [List.forall_mem_cons]
    exact ⟨htop.2, herror.2, hmessage.2, fun _ h ↦ nomatch h⟩
  · obtain ⟨key, hkey⟩ := Option.isSome_iff_exists.mp (htpm.2 t ht)
    by_cases hnull : t = .null
    · exact .inl hnull
    · exact .inr (.of_nestedKey? hnull hkey)

/-- Being typed is all it takes for a reply to be read. -/
theorem typed_iff {members : Members} :
    Typed members ↔ (NonceReply.ofMembers? members).isSome := by
  constructor
  · intro h
    obtain ⟨reply, hreply, -⟩ := h.ofMembers?
    exact Option.isSome_of_eq_some hreply
  · intro h
    obtain ⟨reply, hreply⟩ := Option.isSome_iff_exists.mp h
    exact .of_ofMembers? hreply

theorem heldText_of_carries {encoded : String} {members : Members} (h : Carries encoded members) :
    heldText (keys members) = some encoded := by
  obtain ⟨pieces, hpieces, hkeys⟩ := h
  rw [heldText, hkeys]
  exact hpieces

/-- Such a reply hands out the key it carries. -/
theorem Typed.key {encoded : String} {members : Members} (h : Typed members)
    (hcarries : Carries encoded members) (hne : encoded ≠ "") :
    ∃ reply, NonceReply.ofMembers? members = some reply ∧ reply.key = .ok encoded := by
  obtain ⟨reply, hreply, hkey⟩ := h.ofMembers?
  refine ⟨reply, hreply, ?_⟩
  have hnonempty : encoded.isEmpty = false := by simpa using hne
  rw [NonceReply.key, hkey, heldText_of_carries hcarries]
  simp [Option.filter, hnonempty]

end NonceReply

/-- The key is read out of a body that carries it in base64. -/
theorem nonceKey_of_carries {key body : Bytes} {members : Json.Members}
    (hbody : Json.HasMembers body members) (htyped : NonceReply.Typed members)
    (hcarries : NonceReply.Carries (Base64.encode key) members) (hne : key ≠ []) :
    nonceKey body = .ok key := by
  obtain ⟨tree, htree, hmembers⟩ := Option.bind_eq_some_iff.mp hbody
  obtain ⟨reply, hreply, hkey⟩ := htyped.key hcarries (Base64.encode_ne_empty hne)
  have hread : NonceReply.ofBytes? body = some reply := by
    simp only [NonceReply.ofBytes?, htree, Option.bind_eq_bind, Option.bind_some,
      Json.Tree.record?_of_object? hmembers, hreply]
  have hencoded : authenticationKey body = .ok (Base64.encode key) := by
    rw [authenticationKey, hread]
    exact hkey
  rw [nonceKey, hencoded]
  simp only [Base64.decode_ofText_encode]

end Enrollment
