import AdmissionGate.Audit.Record

/-!
Where audit events go. A bounded queue takes an event only while it is open and
has room; every event it does not take is counted.
-/

namespace AdmissionGate

/-- A queue of `capacity` events between the gate and a reader. -/
structure EventQueue where
  capacity : Nat
  waiting : List AuditEvent := []
  dropped : Nat := 0
  closed : Bool := false

namespace EventQueue

def mostRoom : Nat := 2305843009213693951

/-- A queue with room for `capacity` events, and for one at least. -/
def ofCapacity? (capacity : Nat) : Option EventQueue :=
  if capacity ≤ mostRoom then some { capacity := max capacity 1 } else none

def accepts (q : EventQueue) : Bool := !q.closed && q.waiting.length < q.capacity

def offer (q : EventQueue) (e : AuditEvent) : EventQueue :=
  if q.accepts then { q with waiting := q.waiting ++ [e] } else { q with dropped := q.dropped + 1 }

def take (q : EventQueue) : Option AuditEvent × EventQueue :=
  match q.waiting with
  | [] => (none, q)
  | e :: rest => (some e, { q with waiting := rest })

/-- Takes all events. -/
def drain (q : EventQueue) : List AuditEvent × EventQueue := (q.waiting, { q with waiting := [] })

/-- Events that wait can still be taken, but none is added. -/
def close (q : EventQueue) : EventQueue := { q with closed := true }

end EventQueue

inductive AuditSink where
  | discard
  | memory (events : List AuditEvent)
  | journal
  | queue (q : EventQueue)

namespace AuditSink

def record (s : AuditSink) (e : AuditEvent) : AuditSink :=
  match s with
  | discard => discard
  | memory events => memory (events ++ [e])
  | journal => journal
  | queue q => queue (q.offer e)

def kept : AuditSink → List AuditEvent
  | memory events => events
  | _ => []

end AuditSink

end AdmissionGate
