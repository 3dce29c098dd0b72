import Enrollment.Proofs.RequestBody
import Enrollment.Proofs.SoftwareHandshake
import Enrollment.Proofs.TokenIdentity
namespace Enrollment

/-!
# Ids derived from endorsement keys

An id that is derived from an endorsement key spells the digest of the key in lowercase
hexadecimal digits.  These are good for a segment of a path, and stand for themselves
wherever an id is written.
-/

open Program

/-! ### Hexadecimal digits -/

namespace Bytes

/-- The bytes that pairs of hexadecimal digits stand for. -/
def unhex? : List Char → Option Bytes
  | [] => some []
  | [_] => none
  | a :: b :: rest => do
    let high ← hexValue? a
    let low ← hexValue? b
    return UInt8.ofNat (high * 16 + low) :: (← unhex? rest)

def IsLowerHex (c : Char) : Prop := '0' ≤ c ∧ c ≤ '9' ∨ 'a' ≤ c ∧ c ≤ 'f'

instance (c : Char) : Decidable (IsLowerHex c) := inferInstanceAs (Decidable (_ ∨ _))

theorem hexValue?_hexDigit : ∀ n, n < 16 → hexValue? (hexDigit n) = some n := by
  decide

theorem isLowerHex_hexDigit : ∀ n, n < 16 → IsLowerHex (hexDigit n) := by
  decide

theorem toList_hex (bs : Bytes) : (hex bs).toList = bs.flatMap hexPair := String.toList_ofList

theorem unhex?_hex (bs : Bytes) : unhex? (hex bs).toList = some bs := by
  rw [toList_hex]
  induction bs with
  | nil => rfl
  | cons b bs ih =>
    have hb : b.toNat < 256 := b.toNat_lt
    have hwhole : b.toNat / 16 * 16 + b.toNat % 16 = b.toNat := by omega
    rw [List.flatMap_cons, hexPair, List.cons_append, List.cons_append, List.nil_append, unhex?,
      hexValue?_hexDigit _ (by omega), hexValue?_hexDigit _ (by omega), ih]
    simp only [Option.bind_eq_bind, Option.bind_some, hwhole, UInt8.ofNat_toNat]
    rfl

theorem hex_injective : Function.Injective hex := by
  intro bs bs' h
  have hread := unhex?_hex bs
  rw [h, unhex?_hex] at hread
  exact (Option.some.inj hread).symm

theorem length_hex (bs : Bytes) : (hex bs).length = 2 * bs.length := by
  rw [← String.length_toList, toList_hex]
  induction bs with
  | nil => rfl
  | cons b bs ih =>
    rw [List.flatMap_cons, List.length_append, ih, List.length_cons]
    simp [hexPair]
    omega

theorem isLowerHex_of_mem_hex {bs : Bytes} {c : Char} (h : c ∈ (hex bs).toList) : IsLowerHex c := by
  rw [toList_hex] at h
  obtain ⟨b, -, hc⟩ := List.mem_flatMap.mp h
  have hb : b.toNat < 256 := b.toNat_lt
  simp only [hexPair, List.mem_cons, List.not_mem_nil, or_false] at hc
  rcases hc with rfl | rfl <;> exact isLowerHex_hexDigit _ (by omega)

theorem isLowerHex_iff {c : Char} :
    IsLowerHex c ↔ 48 ≤ c.toNat ∧ c.toNat ≤ 57 ∨ 97 ≤ c.toNat ∧ c.toNat ≤ 102 := by
  simp only [IsLowerHex, Char.le_def, UInt32.le_iff_toNat_le]
  exact Iff.rfl

end Bytes

/-! ### Digits stand for themselves -/

namespace Percent

theorem encode_append (s t : String) : encode (s ++ t) = encode s ++ encode t := by
  rw [encode, Bytes.ofText_append, List.flatMap_append, String.ofList_append]
  rfl

theorem encode_of_unreserved {s : String}
    (h : ∀ c ∈ s.toList, c.toNat < 128 ∧ isUnreserved (UInt8.ofNat c.toNat) = true) :
    encode s = s := by
  have hbytes : Bytes.ofText s = s.toList.map fun c ↦ UInt8.ofNat c.toNat := by
    rw [Json.ofText_eq_utf8]
    exact Json.utf8_of_ascii fun c hc ↦ (h c hc).1
  have hbyte : ∀ c ∈ s.toList, encodeByte (UInt8.ofNat c.toNat) = [c] := by
    intro c hc
    obtain ⟨hascii, hunreserved⟩ := h c hc
    rw [encodeByte, if_pos hunreserved, toNat_byte_of_ascii hascii, Char.ofNat_toNat]
  rw [encode, hbytes, List.flatMap_map, List.flatMap_congr hbyte]
  simp

end Percent

namespace Bytes.IsLowerHex

variable {c : Char} (h : IsLowerHex c)
include h

theorem isUnreserved : c.toNat < 128 ∧ Percent.isUnreserved (UInt8.ofNat c.toNat) = true := by
  rw [isLowerHex_iff] at h
  have hascii : c.toNat < 128 := by omega
  refine ⟨hascii, ?_⟩
  simp only [Percent.isUnreserved, toNat_byte_of_ascii hascii, Bool.or_eq_true,
    Bool.and_eq_true, decide_eq_true_eq]
  omega

theorem isSegmentChar : Token.isSegmentChar c = true := by
  rw [isLowerHex_iff] at h
  have hne {d : Char} (hd : d.toNat < 48) : c ≠ d := by
    rintro rfl
    omega
  have hquestion : c ≠ '?' := by
    rintro rfl
    exact absurd h (by decide)
  refine Token.isSegmentChar_iff.mpr ⟨⟨hne (by decide), hquestion, hne (by decide)⟩, ?_, by omega⟩
  simp only [Token.whiteSpace, List.mem_cons, List.not_mem_nil, or_false]
  omega

theorem escape : Json.escape c = [c] := by
  rw [isLowerHex_iff] at h
  refine Json.escape_of_printable ?_ ?_ (by omega)
  · rintro rfl
    exact absurd h (by decide)
  · rintro rfl
    exact absurd h (by decide)

end Bytes.IsLowerHex

/-! ### The id of a key -/

/-- The text spells the digest in lowercase hexadecimal digits. -/
structure SpellsDigest (id : String) (digest : Bytes) : Prop where
  length : id.length = 64
  digits : ∀ c ∈ id.toList, Bytes.IsLowerHex c
  decoded : Bytes.unhex? id.toList = some digest

theorem spellsDigest_registrationIdOfKey (key : Bytes) :
    SpellsDigest (registrationIdOfKey key) (Sha256.digest key) where
  length := by rw [registrationIdOfKey, Bytes.length_hex, Sha256.length_digest]
  digits _ hc := Bytes.isLowerHex_of_mem_hex hc
  decoded := Bytes.unhex?_hex _

namespace SpellsDigest

variable {id : String} {digest : Bytes} (h : SpellsDigest id digest)
include h

theorem isSegment : Token.IsSegment id := by
  have hne : id ≠ "" := by
    rintro rfl
    exact absurd h.length (by decide)
  rw [Token.isSegment_iff, List.all_eq_true]
  exact ⟨by simpa using hne, fun c hc ↦ (h.digits c hc).isSegmentChar⟩

theorem encode_resource (idScope : String) :
    Percent.encode (idScope ++ "/registrations/" ++ id) =
      Percent.encode idScope ++ "%2Fregistrations%2F" ++ id := by
  have hid : Percent.encode id = id :=
    Percent.encode_of_unreserved fun c hc ↦ (h.digits c hc).isUnreserved
  have hpath : Percent.encode "/registrations/" = "%2Fregistrations%2F" := by decide +kernel
  rw [Percent.encode_append, Percent.encode_append, hid, hpath]

theorem quote : Json.quote id = '"' :: id.toList ++ ['"'] :=
  Json.quote_of_plain fun c hc ↦ (h.digits c hc).escape

end SpellsDigest

/-! ### Where the id is written -/

theorem Base64.escape_of_mem_encode {bytes : Bytes} {c : Char}
    (h : c ∈ (Base64.encode bytes).toList) : Json.escape c = [c] := by
  refine Base64.forall_mem_encode (p := fun c ↦ Json.escape c = [c]) ?_ h
  decide +kernel

theorem SpellsDigest.certificateBody {id : String} {digest : Bytes} (h : SpellsDigest id digest) :
    Enrollment.certificateBody id =
      Bytes.ofText ("\x7b\"registrationId\":\"" ++ id ++ "\"\x7d") := by
  have hname : Json.quote "registrationId" = '"' :: "registrationId".toList ++ ['"'] := rfl
  refine congrArg Bytes.ofText (String.toList_inj.mp ?_)
  simp [Json.Value.text, RequestBody.certificate, Json.Value.write, Json.writeMembers, h.quote,
    hname]

theorem SpellsDigest.keyBody {id : String} {digest : Bytes} (h : SpellsDigest id digest)
    (endorsementKey storageRootKey : Bytes) :
    KeyIdentity.body ⟨id, endorsementKey, storageRootKey⟩ =
      Bytes.ofText ("\x7b\"registrationId\":\"" ++ id ++ "\",\"tpm\":\x7b\"endorsementKey\":\"" ++
        Base64.encode endorsementKey ++ "\",\"storageRootKey\":\"" ++
        Base64.encode storageRootKey ++ "\"\x7d\x7d") := by
  have hkey (key : Bytes) : Json.quote (Base64.encode key) =
      '"' :: (Base64.encode key).toList ++ ['"'] :=
    Json.quote_of_plain fun _ ↦ Base64.escape_of_mem_encode
  have hid : Json.quote "registrationId" = '"' :: "registrationId".toList ++ ['"'] := rfl
  have htpm : Json.quote "tpm" = '"' :: "tpm".toList ++ ['"'] := rfl
  have hendorsement : Json.quote "endorsementKey" = '"' :: "endorsementKey".toList ++ ['"'] := rfl
  have hstorageRoot : Json.quote "storageRootKey" = '"' :: "storageRootKey".toList ++ ['"'] := rfl
  refine congrArg Bytes.ofText (String.toList_inj.mp ?_)
  simp [Json.Value.text, RequestBody.key, Json.Value.write, Json.writeMembers, h.quote, hkey, hid,
    htpm, hendorsement, hstorageRoot]

/-- The fields of a token that has been signed. -/
theorem Token.Signs.exists_fields {sign : Bytes → Program (Except Error Bytes)} {resource : String}
    {expiry : Nat} {signature : Bytes} {events : List Event}
    (h : Signs sign resource expiry signature events) :
    ∃ text, (∀ result, Runs (signed sign resource expiry) events result ↔
        result = .ok ("SharedAccessSignature " ++ text)) ∧
      fieldsOf text = [["sr", Percent.encode resource],
        ["sig", Percent.encode (Base64.encode signature)], ["se", decimal expiry],
        ["skn", "registration"]] := by
  obtain ⟨token, htoken⟩ := ofSignature_eq_ok h.nonempty resource expiry
  refine ⟨_, fun result ↦ ?_, fieldsOf_contentFields resource expiry signature⟩
  rw [h.runs_iff, htoken, eq_of_ofSignature htoken]

/-- The id of an endorsement key spells the digest of the key and no other.  Wherever some
id is good for a scope this one is, and it is written as it is in the resource of a token
and in the bodies that register the device. -/
theorem derived_id_usable (endorsementKey : Bytes) :
    SpellsDigest (registrationIdOfKey endorsementKey) (Sha256.digest endorsementKey) ∧
    (∀ other, registrationIdOfKey other = registrationIdOfKey endorsementKey ↔
      Sha256.digest other = Sha256.digest endorsementKey) ∧
    (∀ idScope other resource, Token.scope idScope other = .ok resource →
      ∃ own, Token.scope idScope (registrationIdOfKey endorsementKey) = .ok own ∧
        ∀ (sign : Bytes → Program (Except Error Bytes)) (expiry : Nat) (signature : Bytes)
          (events : List Event), Token.Signs sign own expiry signature events →
          ∃ text encoded, (∀ result, Runs (Token.signed sign own expiry) events result ↔
              result = .ok ("SharedAccessSignature " ++ text)) ∧
            Token.fieldsOf text =
              [["sr", Percent.encode idScope ++ "%2Fregistrations%2F" ++
                  registrationIdOfKey endorsementKey],
                ["sig", encoded], ["se", decimal expiry], ["skn", "registration"]]) ∧
    (∀ storageRootKey,
      (SoftwareDevice.ofKeys endorsementKey storageRootKey).identity.body = Bytes.ofText
        ("\x7b\"registrationId\":\"" ++ registrationIdOfKey endorsementKey ++
          "\",\"tpm\":\x7b\"endorsementKey\":\"" ++ Base64.encode endorsementKey ++
          "\",\"storageRootKey\":\"" ++ Base64.encode storageRootKey ++ "\"\x7d\x7d")) ∧
    certificateBody (registrationIdOfKey endorsementKey) = Bytes.ofText
      ("\x7b\"registrationId\":\"" ++ registrationIdOfKey endorsementKey ++ "\"\x7d") := by
  have hid := spellsDigest_registrationIdOfKey endorsementKey
  refine ⟨hid, fun other ↦ Bytes.hex_injective.eq_iff, fun idScope other resource hother ↦ ?_,
    fun storageRootKey ↦ hid.keyBody endorsementKey storageRootKey, hid.certificateBody⟩
  obtain ⟨hscope, -⟩ := Token.scope_accepts_iff.mp ⟨resource, hother⟩
  obtain ⟨own, hown⟩ := Token.scope_accepts_iff.mpr ⟨hscope, hid.isSegment⟩
  refine ⟨own, hown, fun sign expiry signature events hsigns ↦ ?_⟩
  obtain ⟨text, hruns, hfields⟩ := hsigns.exists_fields
  rw [(Token.eq_of_scope hown).1, hid.encode_resource] at hfields
  exact ⟨text, _, hruns, hfields⟩

/-! ### The id of a short key -/

def ekDigits : String := "5e930b1b2b6c65de47679df72b3a7316a54a84f4b0d1e2159f483657fba3be43"

def ekResource : String := "0né/registrations/" ++ ekDigits

def ekSigned : List Event := [⟨.device (.sign (Token.signingInput ekResource 10)), .ok [0xfb]⟩]

theorem derived_id_usable_ek :
    registrationIdOfKey (Bytes.ofText "ek") = ekDigits ∧
      SpellsDigest ekDigits (Sha256.digest (Bytes.ofText "ek")) ∧
      Token.scope "0né" "device" = .ok "0né/registrations/device" ∧
      Token.scope "0né" ekDigits = .ok ekResource ∧
      Token.Signs Token.byDevice ekResource 10 [0xfb] ekSigned ∧
      (∃ text encoded, Runs (Token.signed Token.byDevice ekResource 10) ekSigned
          (.ok ("SharedAccessSignature " ++ text)) ∧
        Token.fieldsOf text = [["sr", "0n%C3%A9%2Fregistrations%2F" ++ ekDigits], ["sig", encoded],
          ["se", "10"], ["skn", "registration"]]) ∧
      certificateBody ekDigits =
        Bytes.ofText ("\x7b\"registrationId\":\"" ++ ekDigits ++ "\"\x7d") := by
  have hid : registrationIdOfKey (Bytes.ofText "ek") = ekDigits := by decide +kernel
  obtain ⟨hspells, -, hscope, -, hbody⟩ := derived_id_usable (Bytes.ofText "ek")
  have hdevice : Token.scope "0né" "device" = .ok "0né/registrations/device" :=
    Token.scope_eq_ok (by decide +kernel) (by decide +kernel) (by decide +kernel)
      (by decide +kernel)
  have hsigns : Token.Signs Token.byDevice ekResource 10 [0xfb] ekSigned :=
    ⟨runs_query_iff.mpr rfl, List.cons_ne_nil _ _⟩
  obtain ⟨own, hown, htoken⟩ := hscope _ _ _ hdevice
  rw [hid] at hspells hown htoken hbody
  obtain rfl : own = ekResource := (Token.eq_of_scope hown).1
  obtain ⟨text, encoded, hruns, hfields⟩ := htoken _ _ _ _ hsigns
  have hencoded : Percent.encode "0né" = "0n%C3%A9" := by decide +kernel
  have hexpiry : decimal 10 = "10" := by decide +kernel
  rw [hencoded, hexpiry] at hfields
  exact ⟨hid, hspells, hdevice, hown, hsigns, ⟨text, encoded, (hruns _).mpr rfl, hfields⟩, hbody⟩

end Enrollment
