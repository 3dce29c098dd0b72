import Enrollment.Encoding.Percent
import Enrollment.Error
import Enrollment.Text.Blank
namespace Enrollment.Token

/-!
# Bearer tokens

A token names the resource it is good for, the signature over resource and
expiry, and the expiry in seconds of the epoch.  The resource is the path of a
registration; its two variable segments hold nothing that could end a segment.
-/

def isSegmentChar (c : Char) : Bool :=
  !(c == '/' || c == '?' || c == '#' || Text.isBlank c || Text.isControl c)

def checkPart (part : ScopePart) (text : String) : Except Error Unit :=
  if text.isEmpty then .error (.client (.emptyScopePart part))
  else if text.toList.all isSegmentChar then .ok ()
  else .error (.client (.badScopePart part text))

/-- The resource a registration token is scoped to. -/
def scope (idScope registrationId : String) : Except Error String := do
  checkPart .idScope idScope
  checkPart .registrationId registrationId
  return idScope ++ "/registrations/" ++ registrationId

/-- What a device signs. -/
def signingInput (scope : String) (expiry : Nat) : Bytes :=
  Bytes.ofText (scope ++ "\n" ++ decimal expiry)

def ofSignature (scope : String) (expiry : Nat) (signature : Bytes) : Except Error String :=
  if signature.isEmpty then .error (.client .emptySignature)
  else .ok <|
    "SharedAccessSignature sr=" ++ Percent.encode scope ++
      "&sig=" ++ Percent.encode (Base64.encode signature) ++
      "&se=" ++ decimal expiry ++ "&skn=registration"

/-- The token for a resource, signed by whoever answers `sign`. -/
def signed {m : Type → Type} [Monad m] (sign : Bytes → m (Except Error Bytes))
    (scope : String) (expiry : Nat) : m (Except Error String) := do
  match ← sign (signingInput scope expiry) with
  | .error error => return .error error
  | .ok signature => return ofSignature scope expiry signature

/-- The whole seconds of the epoch at which a lifetime ends that starts at
`now`, unless they do not fit in sixty-four bits. -/
def expiry (now : Option Duration) (ttl : Duration) : Except Error Nat :=
  match now with
  | none => .error (.client .clockBeforeEpoch)
  | some now =>
    let ends := (now + ttl).secs
    if ends < Nat.pow 2 64 then .ok ends else .error (.client (.longLifetime ttl))

end Enrollment.Token
