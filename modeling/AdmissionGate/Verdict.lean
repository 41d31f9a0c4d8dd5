import AdmissionGate.Reason
import AdmissionGate.Time

/-!
What a stage answers about a connection: go on, wait and ask again, or turn it
away.
-/

namespace AdmissionGate

inductive Verdict where
  | allow
  | throttle (reason : Reason) (retryAfter : Duration)
  /-- Turn the connection away. Without a duration the block is permanent, or it
  concerns this connection only. -/
  | block (reason : Reason) (duration : Option Duration)
deriving DecidableEq, Repr

namespace Verdict

/-- Turn this connection away and leave its address alone. -/
def reject (reason : Reason) : Verdict := block reason none

def isAllowed : Verdict → Bool
  | allow => true
  | _ => false

def isThrottled : Verdict → Bool
  | throttle .. => true
  | _ => false

def isBlocked : Verdict → Bool
  | block .. => true
  | _ => false

def reason? : Verdict → Option Reason
  | allow => none
  | throttle reason _ | block reason _ => some reason

end Verdict

end AdmissionGate
