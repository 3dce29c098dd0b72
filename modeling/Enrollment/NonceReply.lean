import Enrollment.Error
import Enrollment.Json.Reader
import Enrollment.Json.Record
namespace Enrollment

/-!
# Replies to a nonce request

The reply carries the authentication key in base64, at its top level or in the
record `tpm`, or says why there is none.  A key at the top level hides the one
inside even where it is empty, and an empty key is no key.
-/

structure NonceReply where
  topKey : Option String
  nestedKey : Option String
  errorCode : Option String
  errorMessage : Option String
  message : Option String
deriving DecidableEq

namespace NonceReply

open Json

def fields : List String :=
  ["authenticationKey", "tpm", "errorCode", "errorMessage", "message"]

/-- The key of the inner record. -/
def nestedKey? : Tree → Option (Option String)
  | .null => some none
  | t => do (← t.record? ["authenticationKey"]).optionalText? "authenticationKey"

def ofMembers? (members : Members) : Option NonceReply := do
  return {
    topKey := ← members.optionalText? "authenticationKey"
    nestedKey := ← match ← members.lookup? "tpm" with
      | none => some none
      | some t => nestedKey? t
    errorCode := ← members.anyText? (maxDepth - 1) "errorCode"
    errorMessage := ← members.optionalText? "errorMessage"
    message := ← members.optionalText? "message" }

def ofBytes? (body : Bytes) : Option NonceReply := do
  ofMembers? (← (← Tree.ofBytes? body).record? fields)

def key (r : NonceReply) : Except Error String :=
  match (r.topKey <|> r.nestedKey).filter fun key ↦ !key.isEmpty with
  | some key => .ok key
  | none =>
    match r.errorCode with
    | some code =>
      let message := r.errorMessage <|> r.message
      .error (.hub (some code) (message.getD "nonce request rejected"))
    | none => .error (.authentication .noKey)

end NonceReply

/-- The key in base64 that the body of a nonce reply carries. -/
def authenticationKey (body : Bytes) : Except Error String :=
  match NonceReply.ofBytes? body with
  | none => .error .malformedBody
  | some reply => reply.key

end Enrollment
