import Enrollment.Encoding.Base64
import Enrollment.Json.Value
import Enrollment.Session
namespace Enrollment

/-!
# The registration handshake

A device with a certificate registers by one call.  A device that proves itself
by a key first asks for a nonce: the reply carries the key it then imports, and
with which it signs the token that authorizes the register call.  The first step
that fails ends the handshake with its own error.

What is sent of a device is its id and, if it proves itself by a key, its two public
keys in base64.
-/

namespace RequestBody

open Json

def certificate (registrationId : String) : Value :=
  .object [("registrationId", .string registrationId)]

def key (registrationId : String) (endorsementKey storageRootKey : Bytes) : Value :=
  .object [
    ("registrationId", .string registrationId),
    ("tpm", .object [
      ("endorsementKey", .string (Base64.encode endorsementKey)),
      ("storageRootKey", .string (Base64.encode storageRootKey))])]

def bytes (body : Value) : Bytes :=
  Bytes.ofText body.text

end RequestBody

open Session

/-- What a device shows of itself to be registered by a key. -/
structure KeyIdentity where
  registrationId : String
  endorsementKey : Bytes
  storageRootKey : Bytes
deriving DecidableEq

def KeyIdentity.body (i : KeyIdentity) : Bytes :=
  RequestBody.bytes (RequestBody.key i.registrationId i.endorsementKey i.storageRootKey)

def keyIdentity : Session KeyIdentity := do
  let registrationId ←
    required Session.registrationId String.isEmpty (.security .emptyRegistrationId)
  let endorsementKey ←
    required Session.endorsementKey List.isEmpty (.security .emptyEndorsementKey)
  let storageRootKey ←
    required Session.storageRootKey List.isEmpty (.security .emptyStorageRootKey)
  return ⟨registrationId, endorsementKey, storageRootKey⟩

/-- The decoded key that the body of a nonce reply carries. -/
def nonceKey (body : Bytes) : Except Error Bytes :=
  match authenticationKey body with
  | .error error => .error error
  | .ok encoded =>
    match Base64.decode (Bytes.ofText encoded) with
    | .ok key => .ok key
    | .error fault => .error (.authentication (.notBase64 fault))

def registerByKey (config : Config) : Session Outcome := do
  let identity ← keyIdentity
  let credential ← Session.credential .symmetricKey
  let key ← call config.operationTimeout
    (.requestNonce identity.registrationId identity.body credential) nonceKey
  importKey key
  let token ← signedToken config identity.registrationId
  modify fun a ↦ { a with bearerToken := some token }
  call config.operationTimeout
    (.authenticate identity.registrationId identity.body credential (some token)) Outcome.ofBytes

def registerByCertificate (config : Config) : Session Outcome := do
  let registrationId ←
    required Session.registrationId String.isEmpty (.client .emptyRegistrationId)
  let body := RequestBody.bytes (RequestBody.certificate registrationId)
  let credential ← Session.credential .x509
  call config.operationTimeout
    (.authenticate registrationId body credential none) Outcome.ofBytes

/-- One registration under a valid configuration. -/
def register (config : Config) : Mechanism → Session Outcome
  | .symmetricKey => do
    ofResult config.validate
    registerByKey config
  | .x509 => do
    ofResult config.validate
    registerByCertificate config

/-- One question after the state of a registration that takes its time.  The
registration id is asked for again, the rest was gathered by the handshake. -/
def queryStatus (operationId : String) (timeout : Duration) : Session Outcome := do
  if operationId.isEmpty then ofResult (.error (.client .emptyOperationId))
  else
    let registrationId ←
      required Session.registrationId String.isEmpty (.security .emptyRegistrationId)
    let authorization ← get
    match authorization.credential with
    | none => ofResult (.error (.security .noAuthorizedCredential))
    | some credential =>
      call timeout
        (.getStatus operationId registrationId credential authorization.bearerToken)
        Outcome.ofBytes

end Enrollment
