import Enrollment.Handshake
namespace Enrollment

/-!
# Clients and their attempts

An attempt registers the device and then asks for its status until the service
has decided or the budget is spent.  Between two questions it sleeps, the last
time only as long as there is budget left, and then asks once more.  A poll that
the transport failed to carry is repeated at the next turn; a rejection seen
while polling ends the attempt as a failed registration.
-/

structure Client where
  config : Config
  mechanism : Mechanism
  state : State
deriving DecidableEq

namespace Client

/-- A client for a service that speaks the configured protocol. -/
def new (config : Config) (mechanism : Mechanism) (spoken : Protocol) : Except Error Client := do
  config.validate
  if spoken = config.protocol then return ⟨config, mechanism, .notStarted⟩
  else throw (.client (.protocolMismatch spoken config.protocol))

/-- A client for a service that is made from the configuration, once that is
known to be valid.  Making it tells which protocol it speaks. -/
def connect {m : Type → Type} [Monad m] (config : Config) (mechanism : Mechanism)
    (make : Config → m (Except Error Protocol)) : m (Except Error Client) := do
  match config.validate with
  | .error error => return .error error
  | .ok () =>
    match ← make config with
    | .error error => return .error error
    | .ok spoken => return new config mechanism spoken

structure Polling where
  started : Duration
  operationId : String
  authorization : Authorization

inductive Progress
  | finished (result : Except Error Outcome)
  | polling (p : Polling)

/-- The client enters a state unless it is in it: nothing is entered twice in a
row. -/
def transition (c : Client) (next : State) : Program Client :=
  if c.state = next then return c
  else do
    Program.query (.enter next)
    return { c with state := next }

/-- The part of an attempt up to the reply to the register call. -/
def begin (c : Client) : Program (Progress × Client) := do
  let started ← Program.query .clock
  let c ← c.transition .registering
  let (result, authorization) ← (register c.config c.mechanism).run.run .empty
  match result with
  | .error error => return (.finished (.error error), c)
  | .ok outcome =>
    if outcome.status.isTerminal then return (.finished (.ok outcome), c)
    else
      match outcome.operationId.filter fun id ↦ !id.isEmpty with
      | none => return (.finished (.error (.client (.noOperationId outcome.status))), c)
      | some operationId =>
        let c ← c.transition .assigning
        return (.polling ⟨started, operationId, authorization⟩, c)

/-- What a poll decides; nothing if it is to be repeated. -/
def verdict? : Except Error Outcome → Option (Except Error Outcome)
  | .ok outcome => if outcome.status.isTerminal then some (.ok outcome) else none
  | .error (.hub code message) => some (.ok (.rejected code message))
  | .error error => if error.isRetryable then none else some (.error error)

def remaining (c : Client) (p : Polling) (now : Duration) : Duration :=
  c.config.attemptBudget - (now - p.started)

/-- One turn: look at the budget, sleep, ask. -/
def poll (c : Client) (p : Polling) : Program Progress := do
  let left := c.remaining p (← Program.query .clock)
  if left.isZero then return .finished (.error (.attemptExpired c.config.attemptBudget))
  Program.query (.sleep (min c.config.pollInterval left))
  let timeout := min c.config.operationTimeout (c.remaining p (← Program.query .clock))
  let (result, _) ← (queryStatus p.operationId timeout).run.run p.authorization
  match verdict? result with
  | some result => return .finished result
  | none => return .polling p

def polls (c : Client) : Nat → Progress → Program Progress
  | 0, progress => pure progress
  | _, .finished result => pure (.finished result)
  | n + 1, .polling p => do c.polls n (← c.poll p)

def finalState : Except Error Outcome → State
  | .ok outcome => .ofStatus outcome.status
  | .error _ => .error

/-- An attempt of up to `turns` turns, and the client it leaves. -/
def attempt (c : Client) (turns : Nat) : Program (Progress × Client) := do
  let (progress, c) ← c.begin
  match ← c.polls turns progress with
  | .polling p => return (.polling p, c)
  | .finished result => return (.finished result, ← c.transition (finalState result))

/-- So many turns outlast the budget if every sleep takes its time: in all but
the last two the sleep is a whole interval. -/
def enoughTurns (c : Client) : Nat :=
  c.config.attemptBudget.nanos / c.config.pollInterval.nanos + 2

end Client
end Enrollment
