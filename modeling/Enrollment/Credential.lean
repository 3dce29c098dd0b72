import Enrollment.Bytes
import Enrollment.Duration
namespace Enrollment

/-!
# Transport credentials

A credential is a certificate chain, the device's own certificate first, and
perhaps a private key.  The engine hands it on and never looks inside; a log
shows only how many certificates there are and whether they identify a client.
-/

structure Credential where
  chain : List Bytes
  key : Option Bytes
deriving DecidableEq

namespace Credential

def withClientIdentity (chain : List Bytes) (key : Bytes) : Credential := ⟨chain, some key⟩

/-- Only the server is authenticated; the device shows a bearer token. -/
def serverAuthOnly : Credential := ⟨[], none⟩

def hasClientIdentity (c : Credential) : Bool :=
  c.key.isSome && !c.chain.isEmpty

def summary (c : Credential) : String :=
  "TlsCredential \x7b certificates: " ++ decimal c.chain.length ++ ", client_identity: " ++
    (if c.hasClientIdentity then "true" else "false") ++ " \x7d"

end Credential

/-- What an attempt has gathered to authorize its calls: filled in while the
device registers, only read while it polls. -/
structure Authorization where
  credential : Option Credential
  bearerToken : Option String
deriving DecidableEq

namespace Authorization

def empty : Authorization := ⟨none, none⟩

/-- What a log may show of an authorization: the token is never in it. -/
def summary (a : Authorization) : String :=
  let credential := match a.credential with
    | none => "None"
    | some c => "Some(" ++ c.summary ++ ")"
  let token := if a.bearerToken.isSome then "Some(\"<redacted>\")" else "None"
  "Authorization \x7b tls_credential: " ++ credential ++ ", bearer_token: " ++ token ++ " \x7d"

end Authorization
end Enrollment
