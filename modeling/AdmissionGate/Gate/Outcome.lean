import AdmissionGate.Detection.Engine
import AdmissionGate.Net.Peer

/-!
What becomes of a connection at the gate, and what is kept of it until that is
decided.
-/

namespace AdmissionGate

structure Accepted where
  key : ConnectionKey
  handshake : Handshake
  /-- All bytes taken so far; they are forwarded first. -/
  buffered : List UInt8
  /-- Nobody gave a verdict on it. -/
  degraded : Bool
deriving DecidableEq

structure Rejection where
  address : Address
  connectionId : Option Nat
  reason : Reason
  state : ConnectionState
  /-- The block on the address that goes with it. -/
  blockDuration : Option Duration
deriving DecidableEq

inductive Outcome where
  | accepted (c : Accepted)
  | rejected (r : Rejection)
  | cancelled
deriving DecidableEq

/-- A stage that a connection went through, with what came of it. -/
inductive StageResult where
  | registration (result : Except GateError ConnectionKey)
  | check (verdict : Verdict)
  | greeting (result : Except HandshakeError Handshake)
  | question (record : ConnectionRecord) (handshake : Handshake)

/-- A registered connection that it is not decided on yet. -/
structure Candidate where
  key : ConnectionKey
  peer : Peer
  buffered : List UInt8 := []
  /-- Sum of the delays that the limiter imposed. -/
  waited : Duration := 0
  trail : List StageResult

namespace Candidate

def passed (c : Candidate) (r : StageResult) : Candidate := { c with trail := c.trail ++ [r] }

def address (c : Candidate) : Address := c.key.address

end Candidate

/-- A question that the detector was asked about a connection. -/
structure Question where
  handshake : Handshake
  /-- The opinion, and when it is there. -/
  answer : Option (Instant × Opinion)
  /-- What will be noted down meanwhile, and when. -/
  notes : List (Instant × JournalEntry)
  /-- Until then an opinion counts. -/
  deadline : Instant
  /-- Bytes that were taken when the question was put. -/
  known : Nat

inductive Wait where
  | delay (ends : Instant)
  | greeting (deadline : Instant)
  | opinion (q : Question)

/-- Where an admission has got to. -/
inductive Progress where
  | waiting (c : Candidate) (w : Wait)
  /-- It is over; `peer` is what the peer still sends. -/
  | finished (o : Outcome) (peer : Peer) (trail : List StageResult)

end AdmissionGate
