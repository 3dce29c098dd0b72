import Enrollment.Error
import Enrollment.Json.Reader
import Enrollment.Json.Record
namespace Enrollment

/-!
# Outcomes of a registration

The body that answers a register or status call describes the registration
twice: at its top level and, if it has one, in the record `registrationState`.
A status at the top level goes before one inside.  What the outcome tells about
the device comes from inside first; what a rejection tells comes from the top
level first.
-/

structure Outcome where
  status : Status
  operationId : Option String
  registrationId : Option String
  assignedHub : Option String
  deviceId : Option String
  generationId : Option String
  errorCode : Option String
  errorMessage : Option String
  createdAt : Option String
  lastUpdatedAt : Option String
  etag : Option String
deriving DecidableEq

/-- The failed outcome that stands for a rejection seen while polling. -/
def Outcome.rejected (code : Option String) (message : String) : Outcome :=
  ⟨.failed, none, none, none, none, none, code, some message, none, none, none⟩

/-- One description of a registration, every part of it optional. -/
structure Description where
  registrationId : Option String
  status : Option String
  assignedHub : Option String
  deviceId : Option String
  generationId : Option String
  errorCode : Option String
  errorMessage : Option String
  message : Option String
  createdAt : Option String
  lastUpdatedAt : Option String
  etag : Option String
deriving DecidableEq

namespace Description

open Json

def empty : Description :=
  ⟨none, none, none, none, none, none, none, none, none, none, none⟩

def fields : List String :=
  ["registrationId", "status", "assignedHub", "deviceId", "generationId", "errorCode",
    "errorMessage", "message", "createdDateTimeUtc", "lastUpdatedDateTimeUtc", "etag"]

/-- Reads a description whose error code may be nested `room` deep. -/
def ofMembers? (room : Nat) (members : Members) : Option Description := do
  return {
    registrationId := ← members.optionalText? "registrationId"
    status := ← members.optionalText? "status"
    assignedHub := ← members.optionalText? "assignedHub"
    deviceId := ← members.optionalText? "deviceId"
    generationId := ← members.optionalText? "generationId"
    errorCode := ← members.anyText? room "errorCode"
    errorMessage := ← members.optionalText? "errorMessage"
    message := ← members.optionalText? "message"
    createdAt := ← members.optionalText? "createdDateTimeUtc"
    lastUpdatedAt := ← members.optionalText? "lastUpdatedDateTimeUtc"
    etag := ← members.optionalText? "etag" }

/-- The record inside a body, or an empty description where there is none. -/
def ofTree? : Tree → Option Description
  | .null => some empty
  | t => do ofMembers? (maxDepth - 2) (← t.record? fields)

end Description

/-- What a body says: an operation id and the two descriptions. -/
structure Response where
  operationId : Option String
  top : Description
  nested : Description
deriving DecidableEq

namespace Response

open Json

/-- Every member of the top level but the inner record must have a meaning,
whether its name is known or not. -/
def ofMembers? (members : Members) : Option Response := do
  let operationId ← members.optionalText? "operationId"
  let top ← Description.ofMembers? (maxDepth - 1) members
  let nested ← match ← members.lookup? "registrationState" with
    | none => some .empty
    | some t => Description.ofTree? t
  if members.all fun m ↦ m.1 == "registrationState" || (m.2.value? (maxDepth - 1)).isSome then
    return ⟨operationId, top, nested⟩
  else none

def ofBytes? (body : Bytes) : Option Response := do
  ofMembers? (← (← Tree.ofBytes? body).object?)

/-- A status makes an outcome; an error code without one makes a rejection. -/
def outcome (r : Response) : Except Error Outcome :=
  match r.top.status <|> r.nested.status with
  | some text =>
    match Status.ofText? text with
    | none => .error (.client (.unknownStatus text))
    | some status => .ok {
        status
        operationId := r.operationId
        registrationId := r.nested.registrationId <|> r.top.registrationId
        assignedHub := r.nested.assignedHub <|> r.top.assignedHub
        deviceId := r.nested.deviceId <|> r.top.deviceId
        generationId := r.nested.generationId <|> r.top.generationId
        errorCode := r.nested.errorCode <|> r.top.errorCode
        errorMessage := r.nested.errorMessage <|> r.nested.message <|>
          r.top.errorMessage <|> r.top.message
        createdAt := r.nested.createdAt <|> r.top.createdAt
        lastUpdatedAt := r.nested.lastUpdatedAt <|> r.top.lastUpdatedAt
        etag := r.nested.etag <|> r.top.etag }
  | none =>
    match r.top.errorCode <|> r.nested.errorCode with
    | none => .error (.client .noStatus)
    | some code =>
      let message := r.top.errorMessage <|> r.top.message <|>
        r.nested.errorMessage <|> r.nested.message
      .error (.hub (some code) (message.getD "registration rejected"))

end Response

def Outcome.ofBytes (body : Bytes) : Except Error Outcome :=
  match Response.ofBytes? body with
  | none => .error .malformedBody
  | some response => response.outcome

end Enrollment
