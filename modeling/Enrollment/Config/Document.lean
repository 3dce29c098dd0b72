import Enrollment.Config
import Enrollment.Toml.Table
namespace Enrollment.Config

/-!
# Configuration documents

A document gives seven keys their values; every key but the scope has a default.
A key it does not know, or a value of the wrong type, makes the whole document
malformed, and that is found before any setting is judged.
-/

open Toml

/-- What a document says, before defaults. -/
structure Settings where
  globalEndpoint : Option String
  idScope : Option String
  protocol : Option Protocol
  operationTimeoutSecs : Option Nat
  pollIntervalSecs : Option Nat
  attemptBudgetSecs : Option Nat
  tokenTtlSecs : Option Nat
deriving DecidableEq

namespace Settings

def keys : List String :=
  ["global_endpoint", "id_scope", "protocol", "operation_timeout_secs", "poll_interval_secs",
    "attempt_budget_secs", "token_ttl_secs"]

def asText? : Node → Option String
  | .leaf (.text s) => some s
  | _ => none

def asSecs? : Node → Option Nat
  | .leaf (.integer n) => if 0 ≤ n then some n.toNat else none
  | _ => none

/-- Nothing but the name is said of a protocol that is named by a table. -/
def isBare : Node → Bool
  | .leaf .emptyList => true
  | .leaf (.inline []) => true
  | .table _ [] => true
  | _ => false

/-- A protocol is its name, or a table whose only key is the name. -/
def asProtocol? : Node → Option Protocol
  | .leaf (.text name) => Protocol.ofName? name
  | .leaf (.inline [([name], value)]) =>
    if isBare (.leaf value) then Protocol.ofName? name else none
  | .table _ [(name, node)] => if isBare node then Protocol.ofName? name else none
  | _ => none

/-- What a key says, if it stands in the document at all. -/
def read? {α : Type} (as? : Node → Option α) (key : String) (entries : Entries) :
    Option (Option α) :=
  match entries.lookup key with
  | none => some none
  | some node => (as? node).map some

def ofEntries? (entries : Entries) : Option Settings := do
  if entries.all fun e ↦ keys.contains e.1 then
    return {
      globalEndpoint := ← read? asText? "global_endpoint" entries
      idScope := ← read? asText? "id_scope" entries
      protocol := ← read? asProtocol? "protocol" entries
      operationTimeoutSecs := ← read? asSecs? "operation_timeout_secs" entries
      pollIntervalSecs := ← read? asSecs? "poll_interval_secs" entries
      attemptBudgetSecs := ← read? asSecs? "attempt_budget_secs" entries
      tokenTtlSecs := ← read? asSecs? "token_ttl_secs" entries }
  else none

def ofText? (text : String) : Option Settings := do
  ofEntries? (← document? text)

def withScope (s : Settings) (idScope : String) : Config where
  globalEndpoint := s.globalEndpoint.getD defaultEndpoint
  idScope := idScope
  protocol := s.protocol.getD .https
  operationTimeout := (s.operationTimeoutSecs.map .ofSecs).getD (defaultDuration .operationTimeout)
  pollInterval := (s.pollIntervalSecs.map .ofSecs).getD (defaultDuration .pollInterval)
  attemptBudget := (s.attemptBudgetSecs.map .ofSecs).getD (defaultDuration .attemptBudget)
  tokenTtl := (s.tokenTtlSecs.map .ofSecs).getD (defaultDuration .tokenTtl)

end Settings

def ofDocument (text : String) : Except Error Config := do
  match Settings.ofText? text with
  | none => throw (.client .malformedConfig)
  | some settings =>
    match settings.idScope with
    | none => throw (.client .noIdScope)
    | some idScope =>
      let config := settings.withScope idScope
      config.validate
      return config

def ofFile (path : String) (content : Option Bytes) : Except Error Config :=
  match readText content with
  | .error reason => .error (.client (.unreadableConfig path reason))
  | .ok text => ofDocument text

/-- Where a configuration is looked for unless the environment names another
file. -/
def defaultPath : String := "/etc/device-provisioning/config.toml"

def pathVariable : String := "DPS_PROVISIONING_CONFIG"

/-- The file a configuration is loaded from, by the variable's value if it is
set. -/
def path (named : Option String) : String := named.getD defaultPath

end Enrollment.Config
