import Enrollment.Program
namespace Enrollment

/-!
# Identities by certificate

An identity is read from two PEM texts: the certificates, the device's own one
first, and the private key, of whose blocks the first counts.
-/

structure CertificateDevice where
  registrationId : String
  credential : Credential
deriving DecidableEq

namespace CertificateDevice

def certificateLabel : String := "CERTIFICATE"
def keyLabel : String := "PRIVATE KEY"

def blocks (label text : String) : Except Error (List Bytes) :=
  match Pem.blocks label text with
  | .ok found => .ok found
  | .error fault => .error (.security (.pem fault))

def ofPem (registrationId certificates privateKey : String) :
    Except Error CertificateDevice := do
  let chain ← blocks certificateLabel certificates
  if chain.isEmpty then throw (.security .noCertificate)
  match ← blocks keyLabel privateKey with
  | [] => throw (.security .noPrivateKey)
  | key :: _ => return ⟨registrationId, .withClientIdentity chain key⟩

def readFile (path : String) (content : Option Bytes) : Except Error String :=
  match readText content with
  | .ok text => .ok text
  | .error reason => .error (.security (.unreadableFile path reason))

/-- An identity from two files, each given by its path and its content. -/
def ofFiles (registrationId : String) (certificates privateKey : String × Option Bytes) :
    Except Error CertificateDevice := do
  let certificateText ← readFile certificates.1 certificates.2
  let keyText ← readFile privateKey.1 privateKey.2
  ofPem registrationId certificateText keyText

/-- A device with a certificate knows who it is, and has no key to attest. -/
def answer (d : CertificateDevice) : (q : DeviceQuery) → q.Answer
  | .registrationId => .ok d.registrationId
  | .credential => .ok (some d.credential)
  | .endorsementKey => .error (.security .noProvider)
  | .storageRootKey => .error (.security .noProvider)
  | .sign _ => .error (.security .noProvider)
  | .importKey _ => .error (.security .noProvider)

end CertificateDevice
end Enrollment
