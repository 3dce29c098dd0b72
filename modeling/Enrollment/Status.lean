namespace Enrollment

/-!
# Registration status and client state

The service reports one of five statuses, in any mixture of ASCII cases.  Three
of them are terminal.  The client's state follows the status of the attempt.
-/

inductive Status
  | unassigned
  | assigning
  | assigned
  | failed
  | disabled
deriving DecidableEq

namespace Status

def all : List Status := [unassigned, assigning, assigned, failed, disabled]

def name : Status → String
  | unassigned => "unassigned"
  | assigning => "assigning"
  | assigned => "assigned"
  | failed => "failed"
  | disabled => "disabled"

def isTerminal : Status → Bool
  | unassigned | assigning => false
  | assigned | failed | disabled => true

def lowered (s : String) : List Char := s.toList.map Char.toLower

def ofText? (s : String) : Option Status :=
  all.find? fun status ↦ status.name.toList == lowered s

theorem ofText?_eq_some_iff {s : String} {status : Status} :
    ofText? s = some status ↔ lowered s = status.name.toList := by
  constructor
  · intro h
    have := List.find?_some h
    exact (by simpa using this : status.name.toList = lowered s).symm
  · intro h
    unfold ofText? all
    rw [h]
    cases status <;> decide

end Status

/-- What a client is doing, or how its last attempt ended. -/
inductive State
  | notStarted
  | registering
  | assigning
  | assigned
  | failed
  | disabled
  | error
deriving DecidableEq

namespace State

def name : State → String
  | notStarted => "NotStarted"
  | registering => "Registering"
  | assigning => "Assigning"
  | assigned => "Assigned"
  | failed => "Failed"
  | disabled => "Disabled"
  | error => "Error"

def ofStatus : Status → State
  | .unassigned | .assigning => assigning
  | .assigned => assigned
  | .failed => failed
  | .disabled => disabled

end State
end Enrollment
