import AdmissionGate.Handshake.Parser
import AdmissionGate.Net.Peer

/-!
Taking in bytes of a connection. Two things are done with them: collecting a
handshake, and, while another stage keeps the connection waiting, watching
whether the peer goes away. Both keep every byte they take, both stop at the
byte budget, and both go on from where the other left off.
-/

namespace AdmissionGate

def readChunk : Nat := 256

/-- Where collecting a handshake has got to. -/
structure Collection where
  /-- How it ended; `none` while bytes are missing. -/
  result : Option (Except HandshakeError Handshake)
  buffered : List UInt8
  peer : Peer

namespace HandshakeSettings

/-- Takes what the peer has sent by now, until a handshake is there or cannot be. -/
def collect (s : HandshakeSettings) (now : Instant) (buffered : List UInt8) (peer : Peer) :
    Collection :=
  match s.parse buffered with
  | .complete handshake => ⟨some (.ok handshake), buffered, peer⟩
  | .failed e => ⟨some (.error e), buffered, peer⟩
  | .needMore =>
      if s.budget ≤ buffered.length then
        ⟨some (.error (.budgetExceeded s.budget)), buffered, peer⟩
      else
        match _h : peer.read now (min (s.budget - buffered.length) readChunk) with
        | .waiting => ⟨none, buffered, peer⟩
        | .failed fault => ⟨some (.error (.readFailed fault)), buffered, peer⟩
        | .bytes [] rest => ⟨some (.error .connectionClosed), buffered, rest⟩
        | .bytes (b :: bs) rest => s.collect now (buffered ++ b :: bs) rest
termination_by peer.weight
decreasing_by exact Peer.weight_lt_of_read _h

def collectedReads (s : HandshakeSettings) (now : Instant) (buffered : List UInt8) (peer : Peer) :
    List Nat :=
  match s.parse buffered with
  | .complete _ | .failed _ => []
  | .needMore =>
      if s.budget ≤ buffered.length then []
      else
        match _h : peer.read now (min (s.budget - buffered.length) readChunk) with
        | .waiting | .failed _ | .bytes [] _ => []
        | .bytes (b :: bs) rest =>
            (bs.length + 1) :: s.collectedReads now (buffered ++ b :: bs) rest
termination_by peer.weight
decreasing_by exact Peer.weight_lt_of_read _h

end HandshakeSettings

structure Watch where
  /-- The peer closed the stream, or reading failed. -/
  closed : Bool
  buffered : List UInt8
  peer : Peer

/-- Takes what the peer has sent by now, up to `limit` bytes in all. With that many bytes
nothing more is read, so the end of the stream is not seen either. -/
def watch (limit : Nat) (now : Instant) (buffered : List UInt8) (peer : Peer) : Watch :=
  if limit ≤ buffered.length then ⟨false, buffered, peer⟩
  else
    match _h : peer.read now (min (limit - buffered.length) readChunk) with
    | .waiting => ⟨false, buffered, peer⟩
    | .failed _ => ⟨true, buffered, peer⟩
    | .bytes [] rest => ⟨true, buffered, rest⟩
    | .bytes (b :: bs) rest => watch limit now (buffered ++ b :: bs) rest
termination_by peer.weight
decreasing_by exact Peer.weight_lt_of_read _h

def watchDue? (limit : Nat) (buffered : List UInt8) (peer : Peer) : Option Instant :=
  if limit ≤ buffered.length then none else peer.nextDue?

namespace HandshakeSettings

/-- Collects a handshake on a clock that jumps from one delivery to the next. What is due
at the deadline still counts. Each round but the first takes a delivery, so there is at
most one round more than there are deliveries. -/
def collectUntil (s : HandshakeSettings) (deadline : Instant) :
    Nat → Instant → List UInt8 → Peer → Collection × Instant
  | 0, _, buffered, peer => (⟨none, buffered, peer⟩, deadline)
  | rounds + 1, now, buffered, peer =>
      let c := s.collect now buffered peer
      match c.result with
      | some _ => (c, now)
      | none =>
          match c.peer.nextDue? with
          | some due =>
              if due ≤ deadline then s.collectUntil deadline rounds (max now due) c.buffered c.peer
              else (c, deadline)
          | none => (c, deadline)

/-- Reads a handshake from a peer, within the time allowed for it. Gives how it went, and
when it ended. -/
def readHandshake (s : HandshakeSettings) (start : Instant) (buffered : List UInt8)
    (peer : Peer) : Except HandshakeError Handshake × Collection × Instant :=
  let (c, ended) := s.collectUntil (start + s.timeout) (peer.length + 1) start buffered peer
  match c.result with
  | some r => (r, c, ended)
  | none => (.error (.timeout s.timeout), c, ended)

end HandshakeSettings

def watchUntil (limit : Nat) (deadline : Instant) :
    Nat → Instant → List UInt8 → Peer → Watch × Instant
  | 0, _, buffered, peer => (⟨false, buffered, peer⟩, deadline)
  | rounds + 1, now, buffered, peer =>
      let w := watch limit now buffered peer
      if w.closed then (w, now)
      else
        match watchDue? limit w.buffered w.peer with
        | some due =>
            if due ≤ deadline then watchUntil limit deadline rounds (max now due) w.buffered w.peer
            else (w, deadline)
        | none => (w, deadline)

end AdmissionGate
