import Enrollment.Proofs.NonceReply
import Enrollment.Proofs.ResponseReading
namespace Enrollment

/-!
# What is read out of a nonce reply

A nonce reply offers the key that stands at its top level or, if there is none, the one
in the record `tpm`; a text that is empty is no key.  What it offers is found, unless an
empty text at the top level stands before a key inside.  Where no key is found the error
code decides between a rejection and an authentication that failed.
-/

open Json

namespace NonceReply

/-! ### Replies that decode -/

/-- The members of the record `tpm`; there are none if it is missing or `null`. -/
inductive IsInner (top : Members) : Members → Prop
  | absent (h : top.named "tpm" = []) : IsInner top []
  | null (h : top.named "tpm" = [.null]) : IsInner top []
  | record {t : Tree} {inner : Members} (h : top.named "tpm" = [t])
      (hrecord : t.record? ["authenticationKey"] = some inner) : IsInner top inner

/-- The body decodes, and these are the members of its two levels. -/
structure Decodes (body : Bytes) (top inner : Members) : Prop where
  members : (Tree.ofBytes? body).bind (Tree.record? fields) = some top
  record : IsInner top inner
  typed : Typed top

section

variable {body : Bytes} {top inner : Members}

theorem ofBytes?_eq (body : Bytes) :
    ofBytes? body = ((Tree.ofBytes? body).bind (Tree.record? fields)).bind ofMembers? := by
  rw [Option.bind_assoc]
  rfl

/-- The key inside is read of the members of the record. -/
theorem IsInner.tpmKey? (h : IsInner top inner) :
    NonceReply.tpmKey? top = inner.optionalText? "authenticationKey" := by
  rw [tpmKey?_eq_ask]
  cases h with
  | absent h => exact Members.ask_eq_some_iff.mpr (.inl ⟨h, rfl⟩)
  | null h => exact Members.ask_of_singleton h
  | @record t _ h hrecord =>
    have hnull : t ≠ .null := by
      rintro rfl
      exact nomatch hrecord
    rw [Members.ask_of_singleton h, nestedKey?_eq_bind hnull, hrecord]
    rfl

theorem Typed.exists_inner (h : Typed top) : ∃ inner, IsInner top inner := by
  have honce : (top.named "tpm").length ≤ 1 := h.once "tpm" (by decide)
  have hinner := h.inner
  match hnamed : top.named "tpm", honce with
  | [], _ => exact ⟨[], .absent hnamed⟩
  | [t], _ =>
    rcases hinner t (by simp [hnamed]) with rfl | ht
    · exact ⟨[], .null hnamed⟩
    · obtain ⟨inner, hrecord⟩ := Option.isSome_iff_exists.mp ht.record
      exact ⟨inner, .record hnamed hrecord⟩

/-- What can be read decodes. -/
theorem exists_decodes {reply : NonceReply} (h : ofBytes? body = some reply) :
    ∃ top inner, Decodes body top inner := by
  rw [ofBytes?_eq] at h
  obtain ⟨top, hmembers, hreply⟩ := Option.bind_eq_some_iff.mp h
  have htyped : Typed top := .of_ofMembers? hreply
  obtain ⟨inner, hinner⟩ := htyped.exists_inner
  exact ⟨top, inner, hmembers, hinner, htyped⟩

end

/-- The parts of a reply are read from where they stand. -/
structure IsReadFrom (r : NonceReply) (top inner : Level) : Prop where
  topKey : ReadFrom [(top, "authenticationKey")] r.topKey
  nestedKey : ReadFrom [(inner, "authenticationKey")] r.nestedKey
  errorCode : ReadFrom [(top, "errorCode")] r.errorCode
  errorMessage : ReadFrom [(top, "errorMessage")] r.errorMessage
  message : ReadFrom [(top, "message")] r.message

theorem Decodes.read {body : Bytes} {top inner : Members} (h : Decodes body top inner) :
    ∃ r, ofBytes? body = some r ∧
      r.IsReadFrom ⟨top, maxDepth - 1⟩ ⟨inner, maxDepth - 2⟩ := by
  obtain ⟨r, hr⟩ := Option.isSome_iff_exists.mp (typed_iff.mp h.typed)
  have hread : ofBytes? body = some r := by
    rw [ofBytes?_eq, h.members]
    exact hr
  refine ⟨r, hread, ?_⟩
  simp only [ofMembers?_eq, h.record.tpmKey?, Option.bind_eq_bind, Option.bind_eq_some_iff] at hr
  obtain ⟨_, htop, _, hnested, _, hcode, _, herror, _, hmessage, hparts⟩ := hr
  cases hparts
  exact ⟨.of_optionalText? _ htop, .of_optionalText? _ hnested, .of_anyText? hcode,
    .of_optionalText? _ herror, .of_optionalText? _ hmessage⟩

/-! ### The key of a reply -/

/-- A key stands at this level, and it is not empty. -/
def Gives (l : Level) (key : String) : Prop := l.Says "authenticationKey" key ∧ key ≠ ""

/-- The key of a reply: the one at its top level or, if that gives none, the one
inside. -/
def Offers (top inner : Level) (key : String) : Prop :=
  Gives top key ∨ (∀ other, ¬ Gives top other) ∧ Gives inner key

/-- An empty text at the top level stands before a key inside. -/
def Hides (top inner : Level) : Prop :=
  top.Says "authenticationKey" "" ∧ ∃ key, Gives inner key

/-- What becomes of a reply that decodes, by what its two levels say. -/
structure KeyTold (top inner : Level) (result : Except Error String) : Prop where
  ok_iff : ∀ key, result = .ok key ↔ Offers top inner key ∧ ¬ Hides top inner
  rejected : (∀ key, ¬ Offers top inner key) ∨ Hides top inner → top.Has "errorCode" →
    ∃ code found, result = .error (.hub (some code) (found.getD "nonce request rejected")) ∧
      top.Says "errorCode" code ∧ ReadFrom [(top, "errorMessage"), (top, "message")] found
  silent : (∀ key, ¬ Offers top inner key) ∨ Hides top inner → ¬ top.Has "errorCode" →
    result = .error (.authentication .noKey)

theorem gives_iff {l : Level} {value : Option String} {key : String}
    (h : ReadFrom [(l, "authenticationKey")] value) :
    Gives l key ↔ value = some key ∧ key ≠ "" := by
  rw [Gives, h.eq_some_iff, FirstSays.singleton_iff]

/-- The key that a reply is found to carry. -/
def foundKey (r : NonceReply) : Option String :=
  (r.topKey <|> r.nestedKey).filter fun key ↦ !key.isEmpty

theorem foundKey_eq_some_iff {r : NonceReply} {key : String} :
    r.foundKey = some key ↔ (r.topKey <|> r.nestedKey) = some key ∧ key ≠ "" := by
  simp [foundKey, Option.filter_eq_some_iff]

theorem key_eq_ok_iff {r : NonceReply} {key : String} :
    r.key = .ok key ↔ r.foundKey = some key := by
  rw [NonceReply.key, ← foundKey]
  cases r.foundKey with
  | none => cases r.errorCode <;> simp
  | some found => simp

/-- Without a key the error code decides. -/
theorem key_of_none {r : NonceReply} (h : r.foundKey = none) :
    r.key = match r.errorCode with
      | some code =>
        .error (.hub (some code) ((r.errorMessage <|> r.message).getD "nonce request rejected"))
      | none => .error (.authentication .noKey) := by
  have hnone : (r.topKey <|> r.nestedKey).filter (fun key ↦ !key.isEmpty) = none := h
  cases herror : r.errorCode with
  | some code => simp only [NonceReply.key, hnone, herror]
  | none => simp only [NonceReply.key, hnone, herror]

theorem key_ne_malformedBody (r : NonceReply) : r.key ≠ .error .malformedBody := by
  cases hfound : r.foundKey with
  | none =>
    rw [key_of_none hfound]
    cases r.errorCode <;> simp
  | some key =>
    rw [key_eq_ok_iff.mpr hfound]
    exact nofun

namespace IsReadFrom

variable {r : NonceReply} {top inner : Level} (h : r.IsReadFrom top inner)
include h

/-- A key is found where one is offered and not hidden. -/
theorem foundKey_iff {key : String} :
    r.foundKey = some key ↔ Offers top inner key ∧ ¬ Hides top inner := by
  have hempty : top.Says "authenticationKey" "" ↔ r.topKey = some "" := by
    rw [h.topKey.eq_some_iff, FirstSays.singleton_iff]
  rw [foundKey_eq_some_iff, Offers, Hides, hempty]
  simp only [gives_iff h.topKey, gives_iff h.nestedKey]
  cases r.topKey with
  | none => simp
  | some text =>
    by_cases htext : text = ""
    · subst htext
      simp only [Option.some.injEq]
      constructor
      · rintro ⟨hkey, hne⟩
        exact absurd (Option.some.inj hkey).symm hne
      · rintro ⟨⟨rfl, hne⟩ | ⟨-, hinner⟩, hhidden⟩
        · exact absurd rfl hne
        · exact absurd ⟨trivial, key, hinner⟩ hhidden
    · simp [htext]

theorem foundKey_eq_none_iff :
    r.foundKey = none ↔ (∀ key, ¬ Offers top inner key) ∨ Hides top inner := by
  simp only [Option.eq_none_iff_forall_ne_some, ne_eq, h.foundKey_iff, not_and_not_right]
  constructor
  · intro hnone
    by_cases hhides : Hides top inner
    · exact .inr hhides
    · exact .inl fun key hkey ↦ hhides (hnone key hkey)
  · rintro (hnone | hhides) key hkey
    · exact absurd hkey (hnone key)
    · exact hhides

theorem keyTold : KeyTold top inner r.key where
  ok_iff key := by rw [key_eq_ok_iff, h.foundKey_iff]
  rejected hnone hhas := by
    obtain ⟨code, hcode⟩ := Option.isSome_iff_exists.mp (h.errorCode.isSome_iff.mpr (by simpa))
    refine ⟨code, r.errorMessage <|> r.message, ?_, ?_, h.errorMessage.orElse h.message⟩
    · rw [key_of_none (h.foundKey_eq_none_iff.mpr hnone), hcode]
    · exact FirstSays.singleton_iff.mp ((h.errorCode.eq_some_iff code).mp hcode)
  silent hnone hhas := by
    have hcode : r.errorCode = none := h.errorCode.eq_none_iff.mpr (by simpa)
    rw [key_of_none (h.foundKey_eq_none_iff.mpr hnone), hcode]

end IsReadFrom
end NonceReply

/-- A reply that decodes hands out the key it offers, unless an empty text at its top
level hides it, and is an error otherwise; any other body is malformed. -/
theorem key_found_unless_hidden (body : Bytes) :
    (authenticationKey body = .error .malformedBody ↔
        ¬ ∃ top inner, NonceReply.Decodes body top inner) ∧
      ∀ top inner, NonceReply.Decodes body top inner →
        NonceReply.KeyTold ⟨top, maxDepth - 1⟩ ⟨inner, maxDepth - 2⟩
          (authenticationKey body) := by
  constructor
  · rw [iff_not_comm]
    constructor
    · rintro ⟨top, inner, h⟩
      obtain ⟨r, hr, -⟩ := h.read
      rw [authenticationKey, hr]
      exact r.key_ne_malformedBody
    · intro hne
      cases hr : NonceReply.ofBytes? body with
      | none => exact absurd (by rw [authenticationKey, hr]) hne
      | some r => exact NonceReply.exists_decodes hr
  · intro top inner h
    obtain ⟨r, hr, hread⟩ := h.read
    rw [authenticationKey, hr]
    exact hread.keyTold

/-! ### A key inside, beside an error code and behind an empty text -/

namespace NonceReply

def keyRecord : Members := [("authenticationKey", .string (plain "a2V5"))]

def codedTop : Members :=
  [("errorCode", .number ⟨false, [7], [], none⟩), ("authenticationKey", .null),
    ("tpm", plainRecord keyRecord)]

def codedBody : Bytes := Bytes.ofText <|
  "\x7b\"errorCode\":7,\"authenticationKey\":null," ++
    "\"tpm\":\x7b\"authenticationKey\":\"a2V5\"\x7d\x7d"

def hiddenTop : Members :=
  [("authenticationKey", .string (plain "")), ("tpm", plainRecord keyRecord)]

def hiddenBody : Bytes := Bytes.ofText <|
  "\x7b\"authenticationKey\":\"\"," ++
    "\"tpm\":\x7b\"authenticationKey\":\"a2V5\"\x7d\x7d"

theorem decodes_codedBody : Decodes codedBody codedTop keyRecord where
  members := by decide +kernel
  record := by
    have hrecord : codedTop.named "tpm" = [plainRecord keyRecord] := by decide +kernel
    apply IsInner.record hrecord
    decide +kernel
  typed := by
    apply typed_iff.mpr
    decide +kernel

theorem decodes_hiddenBody : Decodes hiddenBody hiddenTop keyRecord where
  members := by decide +kernel
  record := by
    have hrecord : hiddenTop.named "tpm" = [plainRecord keyRecord] := by decide +kernel
    apply IsInner.record hrecord
    decide +kernel
  typed := by
    apply typed_iff.mpr
    decide +kernel

end NonceReply

theorem key_found_unless_hidden_coded :
    NonceReply.Decodes NonceReply.codedBody NonceReply.codedTop NonceReply.keyRecord ∧
      NonceReply.KeyTold ⟨NonceReply.codedTop, maxDepth - 1⟩
        ⟨NonceReply.keyRecord, maxDepth - 2⟩ (authenticationKey NonceReply.codedBody) ∧
      authenticationKey NonceReply.codedBody = .ok "a2V5" := by
  have hread : NonceReply.ofBytes? NonceReply.codedBody =
      some ⟨none, some "a2V5", some "7", none, none⟩ := by
    decide +kernel
  refine ⟨NonceReply.decodes_codedBody, ?_, ?_⟩
  · exact (key_found_unless_hidden _).2 _ _ NonceReply.decodes_codedBody
  · rw [authenticationKey, hread]
    exact NonceReply.key_eq_ok_iff.mpr rfl

/-- The key inside is the only one of the reply, and it is not found. -/
theorem key_lost_behind_empty :
    NonceReply.Decodes NonceReply.hiddenBody NonceReply.hiddenTop NonceReply.keyRecord ∧
      NonceReply.Offers ⟨NonceReply.hiddenTop, maxDepth - 1⟩
        ⟨NonceReply.keyRecord, maxDepth - 2⟩ "a2V5" ∧
      authenticationKey NonceReply.hiddenBody = .error (.authentication .noKey) := by
  obtain ⟨r, hr, hread⟩ := NonceReply.decodes_hiddenBody.read
  have hfound : NonceReply.ofBytes? NonceReply.hiddenBody =
      some ⟨some "", some "a2V5", none, none, none⟩ := by
    decide +kernel
  cases hr.symm.trans hfound
  refine ⟨NonceReply.decodes_hiddenBody, .inr ⟨?_, ?_⟩, ?_⟩
  · intro other hother
    obtain ⟨hkey, hne⟩ := (NonceReply.gives_iff hread.topKey).mp hother
    exact hne (Option.some.inj hkey).symm
  · exact (NonceReply.gives_iff hread.nestedKey).mpr ⟨rfl, by decide⟩
  · rw [authenticationKey, hr]
    exact NonceReply.key_of_none rfl

end Enrollment
