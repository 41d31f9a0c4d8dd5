import AdmissionGate.Handshake.Error

/-!
The other end of a connection, as a script: what it does next, and from when on.
A read takes the first thing that is left. It waits until that is due, gives no
more bytes than asked for, and never joins two sends.
-/

namespace AdmissionGate

inductive Signal where
  | send (bytes : List UInt8)
  /-- The stream ends here, for good. -/
  | close
  /-- Reading fails here, for good. -/
  | fail (fault : ReadFault)
deriving DecidableEq

structure Delivery where
  due : Instant
  signal : Signal
deriving DecidableEq

/-- What a peer still does. After that it is silent, and the stream stays open. -/
abbrev Peer := List Delivery

inductive Arrival where
  | waiting
  /-- Bytes, and what the peer does after them. No bytes mean the end of the stream. -/
  | bytes (bs : List UInt8) (rest : Peer)
  | failed (fault : ReadFault)

namespace Peer

/-- The instant from which a read gives something. -/
def nextDue? (p : Peer) : Option Instant := p.head?.map (·.due)

def read (now : Instant) (want : Nat) : Peer → Arrival
  | [] => .waiting
  | d :: rest =>
      if now < d.due then .waiting
      else
        match d.signal with
        | .close => .bytes [] (d :: rest)
        | .fail fault => .failed fault
        | .send bs =>
            .bytes (bs.take want)
              (if bs.length ≤ want then rest else ⟨d.due, .send (bs.drop want)⟩ :: rest)

/-- Bytes and deliveries that are left, which reading makes fewer. -/
def weight : Peer → Nat
  | [] => 0
  | d :: rest =>
      (match d.signal with
        | .send bs => bs.length + 1
        | _ => 1) + weight rest

/-- All bytes that the peer still sends before it closes or fails. -/
def bytesLeft : Peer → List UInt8
  | [] => []
  | d :: rest =>
      match d.signal with
      | .send bs => bs ++ bytesLeft rest
      | _ => []

theorem weight_lt_of_read {p rest : Peer} {now : Instant} {want : Nat} {b : UInt8}
    {bs : List UInt8} (h : p.read now want = .bytes (b :: bs) rest) :
    rest.weight < p.weight := by
  cases p with
  | nil => simp [read] at h
  | cons d tail =>
      simp only [read] at h
      split at h
      · contradiction
      · cases hs : d.signal with
        | close => simp [hs] at h
        | fail fault => simp [hs] at h
        | send sent =>
            simp only [hs, Arrival.bytes.injEq] at h
            obtain ⟨taken, rfl⟩ := h
            have nonempty : (sent.take want).length = bs.length + 1 := by rw [taken]; rfl
            rw [List.length_take] at nonempty
            split
            · simp [weight, hs]
            · simp only [weight, hs, List.length_drop]
              omega

end Peer

end AdmissionGate
