import Enrollment.Fault
namespace Enrollment

/-!
# Errors

An error says what ended a step.  `Error.kind` is what a caller decides by,
`Error.message` what a reader sees.  What a parser has to say about a body or a
document is not part of a message: `<json>` and `<toml>` stand for it.
-/

inductive Error
  | client (fault : ClientFault)
  /-- No answer to a call within its timeout. -/
  | timeout (operation : Operation) (after : Duration)
  /-- An answer with nothing in it, or none that could still come. -/
  | noResponse (operation : Operation)
  /-- The whole attempt, polling included, outran its budget. -/
  | attemptExpired (budget : Duration)
  /-- A body that cannot be read.  What the parser has to say about it is not carried:
  two bodies that end in this error end in an error of the same variant, no more. -/
  | malformedBody
  | security (fault : SecurityFault)
  /-- A failed hardware operation, the outermost cause first. -/
  | hsm (causes : List String)
  | transport (message : String)
  | hub (code : Option String) (message : String)
  | authentication (fault : AuthenticationFault)
deriving DecidableEq

/-- What a caller decides by: whether to try again or to give up. -/
inductive Error.Kind
  | client
  | security
  | transport
  | hub
  | authentication
deriving DecidableEq

namespace Error

def kind : Error → Kind
  | client _ | timeout _ _ | noResponse _ | attemptExpired _ | malformedBody => .client
  | security _ | hsm _ => .security
  | transport _ => .transport
  | hub _ _ => .hub
  | authentication _ => .authentication

def message : Error → String
  | client fault => "client error: " ++ fault.message
  | timeout operation after => "no " ++ operation.name ++ " response within " ++ after.text
  | noResponse operation => "empty " ++ operation.name ++ " response"
  | attemptExpired budget =>
    "registration not completed within attempt budget of " ++ budget.text
  | malformedBody => "malformed body: <json>"
  | security fault => "security error: " ++ fault.message
  | hsm causes => "HSM operation failed: " ++ String.intercalate ": " causes
  | transport message => "transport error: " ++ message
  | hub code message =>
    "service rejected request (" ++ code.getD "no code" ++ "): " ++ message
  | authentication fault => "authentication error: " ++ fault.message

/-- A poll that ends so is tried again. -/
def isRetryable : Error → Bool
  | timeout _ _ | noResponse _ | transport _ => true
  | _ => false

end Error
end Enrollment
