/-!
Why a connection was delayed or turned away. The names are what operators see
in audit records; a rejected peer is told nothing.
-/

namespace AdmissionGate

inductive Reason where
  /-- The handshake was malformed, too large or too slow. -/
  | malformedHandshake
  | rateExceeded
  /-- The address is blocked, or its score reached the blocking score. -/
  | reputationBlocked
  | classificationTimeout
  | classificationRejected
  | internalFault
  | connectionLimit
  | manualBlock
deriving DecidableEq, Repr

namespace Reason

def all : List Reason :=
  [malformedHandshake, rateExceeded, reputationBlocked, classificationTimeout,
    classificationRejected, internalFault, connectionLimit, manualBlock]

def name : Reason → String
  | malformedHandshake => "malformed_handshake"
  | rateExceeded => "rate_exceeded"
  | reputationBlocked => "reputation_blocked"
  | classificationTimeout => "classification_timeout"
  | classificationRejected => "classification_rejected"
  | internalFault => "internal_fault"
  | connectionLimit => "connection_limit"
  | manualBlock => "manual_block"

def ofName? (s : String) : Option Reason := all.find? (·.name = s)

theorem ofName?_name (r : Reason) : ofName? r.name = some r := by
  cases r <;> decide

end Reason

end AdmissionGate
