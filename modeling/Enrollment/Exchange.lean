import Enrollment.Credential
import Enrollment.Error
namespace Enrollment

/-!
# Calls to the service and their replies

A call is sent with a callback, which its receiver uses at most once: to deliver
a body, to report a failure, or not at all.  `Reply.body` sorts what became of a
call into a body that is not empty or an error.
-/

inductive Call
  | requestNonce (registrationId : String) (body : Bytes) (credential : Credential)
  | authenticate (registrationId : String) (body : Bytes) (credential : Credential)
    (bearerToken : Option String)
  | getStatus (operationId registrationId : String) (credential : Credential)
    (bearerToken : Option String)
deriving DecidableEq

def Call.operation : Call → Operation
  | requestNonce .. => .requestNonce
  | authenticate .. => .authenticate
  | getStatus .. => .getStatus

abbrev Delivery := Except Error (Option Bytes)

/-- What has come of a callback by the time nobody waits for it any longer. -/
inductive Arrival
  | delivered (delivery : Delivery)
  | dropped
  | nothing

inductive Reply
  /-- The call was refused before anything was sent. -/
  | rejected (error : Error)
  | accepted (arrival : Arrival)

namespace Reply

def body (operation : Operation) (timeout : Duration) : Reply → Except Error Bytes
  | rejected error => .error error
  | accepted (.delivered (.error error)) => .error error
  | accepted (.delivered (.ok (some (b :: bs)))) => .ok (b :: bs)
  | accepted (.delivered (.ok _)) => .error (.noResponse operation)
  | accepted .dropped => .error (.noResponse operation)
  | accepted .nothing => .error (.timeout operation timeout)

end Reply

/-- The point in time at which a wait ends that starts at `now`.  Points in time
have sixty-three bits of seconds. -/
def deadline? (now timeout : Duration) : Option Duration :=
  if (now + timeout).secs < Nat.pow 2 63 then some (now + timeout) else none

end Enrollment
