import Enrollment.Proofs.CertificateHandshake
import Enrollment.Proofs.JsonText
namespace Enrollment

/-!
# What a request body says

A body is one object and says who a device is, by what means it proves that, and
nothing else.  Whoever reads it finds exactly the id and the keys that it was made
of, so no two identities are sent in one body.
-/

open Json

theorem Json.HasMembers.unique {body : Bytes} {members members' : Members}
    (h : HasMembers body members) (h' : HasMembers body members') : members = members' :=
  Option.some.inj (h.symm.trans h')

/-- What a device sends of itself to be registered. -/
inductive Identity
  | certificate (registrationId : String)
  | key (identity : KeyIdentity)

namespace Identity

def body : Identity → Bytes
  | certificate registrationId => certificateBody registrationId
  | key identity => identity.body

end Identity

/-- A text that is the base64 of some bytes. -/
def HoldsKey (t : Tree) (key : Bytes) : Prop :=
  ∃ text, t.asText? = some text ∧ Base64.decode (Bytes.ofText text) = .ok key

/-- The body is one object with no other members than those that show the identity. -/
inductive Shows (body : Bytes) : Identity → Prop
  | certificate {registrationId : String} {id : Tree}
      (hbody : HasMembers body [("registrationId", id)])
      (hid : id.asText? = some registrationId) : Shows body (.certificate registrationId)
  | key {identity : KeyIdentity} {id tpm endorsement storageRoot : Tree}
      (hbody : HasMembers body [("registrationId", id), ("tpm", tpm)])
      (hid : id.asText? = some identity.registrationId)
      (htpm : tpm.object? = some [("endorsementKey", endorsement), ("storageRootKey", storageRoot)])
      (hendorsement : HoldsKey endorsement identity.endorsementKey)
      (hstorageRoot : HoldsKey storageRoot identity.storageRootKey) : Shows body (.key identity)

theorem HoldsKey.unique {t : Tree} {key key' : Bytes} (h : HoldsKey t key) (h' : HoldsKey t key') :
    key = key' := by
  obtain ⟨text, htext, hkey⟩ := h
  obtain ⟨text', htext', hkey'⟩ := h'
  obtain rfl : text = text' := Option.some.inj (htext.symm.trans htext')
  exact Except.ok.inj (hkey.symm.trans hkey')

/-- A body shows one identity at most. -/
theorem Shows.unique {body : Bytes} {i j : Identity} (hi : Shows body i) (hj : Shows body j) :
    i = j := by
  cases hi with
  | @certificate name id hbody hid =>
    cases hj with
    | @certificate name' id' hbody' hid' =>
      obtain rfl : id = id' := by simpa using hbody.unique hbody'
      rw [Option.some.inj (hid.symm.trans hid')]
    | key hbody' => exact absurd (hbody.unique hbody') (by simp)
  | @key identity id tpm endorsement storageRoot hbody hid htpm hendorsement hstorageRoot =>
    cases hj with
    | certificate hbody' => exact absurd (hbody.unique hbody') (by simp)
    | @key identity' id' tpm' endorsement' storageRoot' hbody' hid' htpm' hendorsement'
        hstorageRoot' =>
      obtain ⟨rfl, rfl⟩ : id = id' ∧ tpm = tpm' := by simpa using hbody.unique hbody'
      obtain ⟨rfl, rfl⟩ : endorsement = endorsement' ∧ storageRoot = storageRoot' := by
        simpa using htpm.symm.trans htpm'
      have hname := Option.some.inj (hid.symm.trans hid')
      have hek := hendorsement.unique hendorsement'
      have hsrk := hstorageRoot.unique hstorageRoot'
      obtain ⟨name, ek, srk⟩ := identity
      obtain ⟨name', ek', srk'⟩ := identity'
      obtain ⟨rfl, rfl, rfl⟩ : name = name' ∧ ek = ek' ∧ srk = srk' := ⟨hname, hek, hsrk⟩
      rfl

theorem holdsKey_encode (key : Bytes) : HoldsKey (.string (written (Base64.encode key))) key :=
  ⟨Base64.encode key, text?_written _, Base64.decode_ofText_encode key⟩

theorem hasMembers_of_readAs {v : Value} {ts : Members}
    (h : ReadAs v (.object (ts.map fun t ↦ (written t.1, t.2)))) :
    HasMembers (RequestBody.bytes v) ts := by
  rw [HasMembers, RequestBody.bytes, ofBytes?_text h]
  exact object?_written ts

theorem shows_certificate (registrationId : String) :
    Shows (certificateBody registrationId) (.certificate registrationId) := by
  let members : Members := [("registrationId", .string (written registrationId))]
  have hread : ReadAs (RequestBody.certificate registrationId)
      (.object (members.map fun t ↦ (written t.1, t.2))) :=
    readAs_object (by simp) (.cons ⟨rfl, readAs_string registrationId⟩ .nil)
  exact .certificate (hasMembers_of_readAs hread) (text?_written registrationId)

theorem shows_key (identity : KeyIdentity) : Shows identity.body (.key identity) := by
  obtain ⟨registrationId, endorsementKey, storageRootKey⟩ := identity
  let keys : Members := [
    ("endorsementKey", .string (written (Base64.encode endorsementKey))),
    ("storageRootKey", .string (written (Base64.encode storageRootKey)))]
  let tpm : Tree := .object (keys.map fun t ↦ (written t.1, t.2))
  have htpm : ReadAs (.object [
      ("endorsementKey", .string (Base64.encode endorsementKey)),
      ("storageRootKey", .string (Base64.encode storageRootKey))]) tpm :=
    readAs_object (by simp) (.cons ⟨rfl, readAs_string _⟩ (.cons ⟨rfl, readAs_string _⟩ .nil))
  let members : Members := [("registrationId", .string (written registrationId)), ("tpm", tpm)]
  have hread : ReadAs (RequestBody.key registrationId endorsementKey storageRootKey)
      (.object (members.map fun t ↦ (written t.1, t.2))) :=
    readAs_object (by simp) (.cons ⟨rfl, readAs_string registrationId⟩ (.cons ⟨rfl, htpm⟩ .nil))
  exact .key (hasMembers_of_readAs hread) (text?_written registrationId) (object?_written keys)
    (holdsKey_encode endorsementKey) (holdsKey_encode storageRootKey)

/-- A body shows the identity it was made of, and only bodies of one identity are
equal. -/
theorem body_shows_identity :
    (∀ i : Identity, Shows i.body i) ∧ Function.Injective Identity.body := by
  have hshows (i : Identity) : Shows i.body i := by
    cases i with
    | certificate registrationId => exact shows_certificate registrationId
    | key identity => exact shows_key identity
  refine ⟨hshows, fun i j hbody ↦ ?_⟩
  have hj : Shows i.body j := hbody ▸ hshows j
  exact (hshows i).unique hj

end Enrollment
