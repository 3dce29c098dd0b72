import Enrollment.Config
import Enrollment.NonceReply
import Enrollment.Outcome
import Enrollment.Program
import Enrollment.Token
namespace Enrollment

/-!
# Steps of a session

A session is made of steps that may fail and that gather an authorization.  A
step that fails ends the session with its own error, and what was gathered up to
then stays.
-/

/-- Steps that may fail and that gather an authorization. -/
abbrev Session := ExceptT Error (StateT Authorization Program)

namespace Session

variable {α β : Type}

def ofResult (result : Except Error α) : Session α := ExceptT.mk (pure result)

/-- Runs a program whose result may be an error. -/
def ofProgram (p : Program (Except Error α)) : Session α :=
  ExceptT.mk (StateT.lift p)

/-! What a step asks and what it leaves of an authorization. -/

@[simp] theorem run_ofResult (result : Except Error α) (a : Authorization) :
    (ofResult result).run.run a = .done (result, a) := rfl

@[simp] theorem run_ofProgram (p : Program (Except Error α)) (a : Authorization) :
    (ofProgram p).run.run a = p.bind fun result ↦ .done (result, a) := rfl

@[simp] theorem run_pure (x : α) (a : Authorization) :
    (pure x : Session α).run.run a = .done (.ok x, a) := rfl

@[simp] theorem run_modify (f : Authorization → Authorization) (a : Authorization) :
    (modify f : Session Unit).run.run a = .done (.ok (), f a) := rfl

@[simp] theorem run_get (a : Authorization) :
    (get : Session Authorization).run.run a = .done (.ok a, a) := rfl

@[simp] theorem run_bind (s : Session α) (f : α → Session β) (a : Authorization) :
    (s >>= f).run.run a = (s.run.run a).bind fun
      | (.ok x, a) => (f x).run.run a
      | (.error error, a) => .done (.error error, a) := by
  show Program.bind _ _ = _
  congr 1
  funext result
  obtain ⟨x, a⟩ := result
  cases x <;> rfl

/-! ### Steps -/

def registrationId : Session String :=
  ofProgram (Program.query (.device .registrationId))

def endorsementKey : Session Bytes :=
  ofProgram (Program.query (.device .endorsementKey))

def storageRootKey : Session Bytes :=
  ofProgram (Program.query (.device .storageRootKey))

def importKey (key : Bytes) : Session Unit :=
  ofProgram (Program.query (.device (.importKey key)))

def epoch : Session (Option Duration) :=
  ExceptT.lift (StateT.lift (Program.query .epoch))

/-- A part of the identity that must not be empty. -/
def required (part : Session α) (isEmpty : α → Bool) (error : Error) : Session α := do
  let found ← part
  ofResult (if isEmpty found then .error error else .ok found)

def call (timeout : Duration) (request : Call) (read : Bytes → Except Error α) : Session α := do
  let body ← ofProgram (exchange timeout request)
  ofResult (read body)

/-- Asks for the credential and keeps it for all calls of the attempt. -/
def credential (mechanism : Mechanism) : Session Credential := do
  let found : Option Credential ← ofProgram (Program.query (.device .credential))
  match found with
  | none => ofResult (.error (.security (.noCredential mechanism)))
  | some credential =>
    modify fun a ↦ { a with credential := some credential }
    return credential

/-- The seconds of the epoch at which a token expires that is made now. -/
def expiry (ttl : Duration) : Session Nat := do
  ofResult (Token.expiry (← epoch) ttl)

def signedToken (config : Config) (registrationId : String) : Session String := do
  let scope ← ofResult (Token.scope config.idScope registrationId)
  let expiry ← expiry config.tokenTtl
  let sign (data : Bytes) : Program (Except Error Bytes) := Program.query (.device (.sign data))
  ofProgram (Token.signed sign scope expiry)

end Session
end Enrollment
