import AdmissionGate.Gate.Outcome
import AdmissionGate.Proxy.Session

/-!
What becomes of an accepted connection. The backend is reached, and gets the bytes that were
taken of the connection before. Only then does the session begin, and either side is read.
-/

namespace AdmissionGate

/-- How far an accepted connection has come. -/
inductive Handover where
  | reaching
  /-- What was taken of the connection before is being written to the backend. -/
  | opening (written pending : List UInt8)
  | forwarding (s : Session)
  /-- The backend was not reached, or did not take what was written first. -/
  | lost
deriving DecidableEq

inductive HandoverEvent where
  | reached
  | unreachable
  /-- The backend takes some of the bytes that are pending. -/
  | takes (count : Nat)
  | writeFails
  | session (e : SessionEvent)
deriving DecidableEq

namespace Handover

/-- The session begins when nothing is left to be written first. -/
def opened (c : Accepted) (idle : Duration) (now : Instant) (written pending : List UInt8) :
    Handover :=
  if pending = [] then .forwarding (.start c.key written idle now) else .opening written pending

/-- What is done about an event at an instant; nothing, if it cannot happen now. -/
def step? (c : Accepted) (idle : Duration) (now : Instant) (h : Handover) (r : Registry)
    (e : HandoverEvent) : Option (Handover × Registry) :=
  match h, e with
  | .reaching, .reached => some (opened c idle now [] c.buffered, r)
  | .reaching, .unreachable => some (.lost, r)
  | .opening written pending, .takes count =>
      if count = 0 ∨ pending.length < count then none
      else some (opened c idle now (written ++ pending.take count) (pending.drop count), r)
  | .opening .., .writeFails => some (.lost, r)
  | .forwarding s, .session e => (s.step? now r e).map fun (s, r) => (.forwarding s, r)
  | _, _ => none

end Handover

end AdmissionGate
