import Enrollment.Program
import Enrollment.Digest
import Enrollment.Token
namespace Enrollment

/-!
# Keys held in software

A stand-in for a hardware module on development devices.  The key that the
service hands out is used as it is, to sign by HMAC; it is the only part of the
device that changes.
-/

/-- The registration id of a device that is enrolled by its endorsement key. -/
def registrationIdOfKey (endorsementKey : Bytes) : String :=
  (Sha256.digest endorsementKey).hex

structure SoftwareDevice where
  registrationId : String
  endorsementKey : Bytes
  storageRootKey : Bytes
  importedKey : Option Bytes
deriving DecidableEq

namespace SoftwareDevice

def new (registrationId : String) (endorsementKey storageRootKey : Bytes) : SoftwareDevice :=
  ⟨registrationId, endorsementKey, storageRootKey, none⟩

/-- A device whose id is derived from its endorsement key. -/
def ofKeys (endorsementKey storageRootKey : Bytes) : SoftwareDevice :=
  new (registrationIdOfKey endorsementKey) endorsementKey storageRootKey

def credential (_ : SoftwareDevice) : Credential := .serverAuthOnly

/-- An empty key is refused and leaves the device as it was. -/
def importKey (d : SoftwareDevice) (key : Bytes) : Except Error Unit × SoftwareDevice :=
  if key.isEmpty then (.error (.security .emptyImportedKey), d)
  else (.ok (), { d with importedKey := some key })

end SoftwareDevice

def signature (key data : Bytes) : Except Error Bytes :=
  if key.isEmpty then .error (.security .emptyHmacKey) else .ok (Hmac.sign key data)

def SoftwareDevice.sign (d : SoftwareDevice) (data : Bytes) : Except Error Bytes :=
  match d.importedKey with
  | none => .error (.security .noImportedKey)
  | some key => signature key data

/-- What a device answers, and what it is afterwards. -/
def SoftwareDevice.answer (d : SoftwareDevice) : (q : DeviceQuery) → q.Answer × SoftwareDevice
  | .registrationId => (.ok d.registrationId, d)
  | .credential => (.ok (some d.credential), d)
  | .endorsementKey => (.ok d.endorsementKey, d)
  | .storageRootKey => (.ok d.storageRootKey, d)
  | .sign data => (d.sign data, d)
  | .importKey key => d.importKey key

/-- A key held in hardware is looked for and, without support for any hardware,
not found. -/
def detectHardwareKey : Except Error Empty :=
  .error (.security .noProvider)

end Enrollment
