namespace Enrollment

/-!
# Wire protocols, exchanges and mechanisms

The names that a configuration, a message or an observer shows.
-/

/-- The wire protocols a service can speak. -/
inductive Protocol
  | https
  | amqps
  | amqpsWs
  | mqtt
  | mqttWs
deriving DecidableEq

namespace Protocol

def all : List Protocol := [https, amqps, amqpsWs, mqtt, mqttWs]

def name : Protocol → String
  | https => "https"
  | amqps => "amqps"
  | amqpsWs => "amqps-ws"
  | mqtt => "mqtt"
  | mqttWs => "mqtt-ws"

def ofName? (s : String) : Option Protocol :=
  all.find? fun p ↦ p.name == s

@[simp] theorem ofName?_name (p : Protocol) : ofName? p.name = some p := by
  cases p <;> decide

end Protocol

/-- The calls of which an enrollment is made. -/
inductive Operation
  | requestNonce
  | authenticate
  | getStatus
deriving DecidableEq

def Operation.name : Operation → String
  | requestNonce => "requestNonce"
  | authenticate => "authenticate"
  | getStatus => "getStatus"

/-- How a device proves its identity: by a key the service hands out, or by a
client certificate. -/
inductive Mechanism
  | symmetricKey
  | x509
deriving DecidableEq

def Mechanism.name : Mechanism → String
  | symmetricKey => "symmetric-key"
  | x509 => "x509"

end Enrollment
