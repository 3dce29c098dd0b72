import Enrollment.Duration
import Enrollment.Pem
import Enrollment.Protocol
import Enrollment.Status
import Enrollment.Text.Shown
namespace Enrollment

/-!
# Faults

What can be wrong with arguments and data, with a device's identity, and with
the exchange of a key.  A fault holds what its message needs; a device and a
transport report faults of their own, which hold the text they came with.
-/

inductive TimeSetting
  | operationTimeout
  | pollInterval
  | attemptBudget
  | tokenTtl
deriving DecidableEq

def TimeSetting.name : TimeSetting → String
  | operationTimeout => "operation_timeout"
  | pollInterval => "poll_interval"
  | attemptBudget => "attempt_budget"
  | tokenTtl => "token_ttl"

/-- The longest duration a setting may have: a year of seconds. -/
def TimeSetting.limit : Duration := .ofSecs (365 * 24 * 60 * 60)

/-- A segment of the path a token is good for. -/
inductive ScopePart
  | idScope
  | registrationId
deriving DecidableEq

def ScopePart.name : ScopePart → String
  | idScope => "id scope"
  | registrationId => "registration id"

inductive ClientFault
  | reported (message : String)
  | unknownStatus (text : String)
  | noStatus
  | noIdScope
  | noEndpoint
  | zeroDuration (setting : TimeSetting)
  | longDuration (setting : TimeSetting) (value : Duration)
  | unreadableConfig (path : String) (reason : Unreadable)
  | malformedConfig
  | emptyScopePart (part : ScopePart)
  | badScopePart (part : ScopePart) (text : String)
  | emptySignature
  | clockBeforeEpoch
  | longLifetime (ttl : Duration)
  | longTimeout (operation : Operation) (timeout : Duration)
  | protocolMismatch (spoken selected : Protocol)
  | noOperationId (status : Status)
  | emptyOperationId
  | emptyRegistrationId
deriving DecidableEq

namespace ClientFault

def message : ClientFault → String
  | reported message => message
  | unknownStatus text => "unrecognized registration status " ++ Text.quoted text
  | noStatus => "response carries no registration status"
  | noIdScope => "id_scope is missing or empty"
  | noEndpoint => "global_endpoint is empty"
  | zeroDuration setting => setting.name ++ " must be greater than zero"
  | longDuration setting value =>
    setting.name ++ " of " ++ decimal value.secs ++ "s exceeds the maximum of " ++
      decimal TimeSetting.limit.secs ++ "s"
  | unreadableConfig path reason => "failed to read config from " ++ path ++ ": " ++ reason.message
  | malformedConfig => "failed to parse provisioning config: <toml>"
  | emptyScopePart part => part.name ++ " is empty"
  | badScopePart part text =>
    part.name ++ " " ++ Text.quoted text ++ " is not a valid path segment"
  | emptySignature => "signer returned an empty signature"
  | clockBeforeEpoch => "system clock before epoch: second time provided was later than self"
  | longLifetime ttl => "token lifetime of " ++ ttl.text ++ " is out of range"
  | longTimeout operation timeout =>
    operation.name ++ " timeout of " ++ timeout.text ++ " is out of range"
  | protocolMismatch spoken selected =>
    "contract speaks " ++ spoken.name ++ " but configuration selects " ++ selected.name
  | noOperationId status => "service reported " ++ status.name ++ " without an operation id"
  | emptyOperationId => "operation id is empty"
  | emptyRegistrationId => "registration id is empty"

end ClientFault

/-- Missing or unusable attestation material. -/
inductive SecurityFault
  | reported (message : String)
  | emptyHmacKey
  | noImportedKey
  | emptyImportedKey
  | emptyRegistrationId
  | emptyEndorsementKey
  | emptyStorageRootKey
  | noCredential (mechanism : Mechanism)
  | noAuthorizedCredential
  | noProvider
  | noCertificate
  | noPrivateKey
  | pem (fault : Pem.Fault)
  | unreadableFile (path : String) (reason : Unreadable)
deriving DecidableEq

namespace SecurityFault

def message : SecurityFault → String
  | reported message => message
  | emptyHmacKey => "HMAC key is empty"
  | noImportedKey => "no authentication key imported"
  | emptyImportedKey => "authentication key is empty"
  | emptyRegistrationId => "registration id is empty"
  | emptyEndorsementKey => "endorsement key is empty"
  | emptyStorageRootKey => "storage root key is empty"
  | noCredential .symmetricKey => "security provider has no TLS credential"
  | noCredential .x509 => "X.509 provider has no TLS credential"
  | noAuthorizedCredential => "no TLS credential in authorization"
  | noProvider => "no key attestation provider detected"
  | noCertificate => "no CERTIFICATE block in certificate PEM"
  | noPrivateKey => "no PRIVATE KEY block in key PEM"
  | pem fault => fault.message
  | unreadableFile path reason => "failed to read " ++ path ++ ": " ++ reason.message

end SecurityFault

/-- Why the nonce exchange ended without a usable key. -/
inductive AuthenticationFault
  | reported (message : String)
  | noKey
  | notBase64 (fault : Base64.Fault)
deriving DecidableEq

namespace AuthenticationFault

def message : AuthenticationFault → String
  | reported message => message
  | noKey => "nonce response carried no authentication key"
  | notBase64 fault => "authentication key is not base64: " ++ fault.message

end AuthenticationFault

end Enrollment
