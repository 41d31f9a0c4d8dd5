import AdmissionGate.Registry.Basic

/-!
A session: bytes of a connection on their way to the backend and back. The session
reads from one side at a time and writes what it read to the other side before it
does anything else, so a side that takes no bytes holds it up. Between writes it ends
when it is told to, when it was idle for too long, or when both sides have ended.

`Session.step?` says what the session does about an event, and which events can
happen to it.
-/

namespace AdmissionGate

inductive Direction where
  /-- From the client to the backend. -/
  | up
  /-- From the backend to the client. -/
  | down
deriving DecidableEq, Repr

structure Flow where
  /-- Bytes that were read and are not written yet. -/
  pending : List UInt8 := []
  written : List UInt8 := []
  /-- Bytes of whole writes. -/
  moved : Nat := 0
  /-- The side that is read has not ended. -/
  isOpen : Bool := true
  /-- How often the side that is written to was told that no more will come. -/
  shutdowns : Nat := 0
deriving DecidableEq

inductive SessionPhase where
  | ready
  | writing (d : Direction) (size : Nat)
  /-- Over; `failed` if reading or writing failed. -/
  | over (failed : Bool)
deriving DecidableEq

structure Session where
  key : ConnectionKey
  /-- A session without traffic for so long ends. -/
  idle : Duration
  up : Flow
  down : Flow := {}
  /-- When the session has been idle for too long. -/
  idleEnds : Instant
  phase : SessionPhase := .ready
deriving DecidableEq

inductive SessionEvent where
  /-- Reading gives bytes; no bytes mean that the side has ended. -/
  | read (d : Direction) (bytes : List UInt8)
  | readFails (d : Direction)
  /-- The side that is written to takes some of the bytes that are pending. -/
  | takes (d : Direction) (count : Nat)
  | writeFails (d : Direction)
  | stop
  | idle
deriving DecidableEq

namespace Flow

/-- Tells the side that is written to that no more will come. -/
def shutdown (f : Flow) : Flow := { f with shutdowns := f.shutdowns + 1 }

def close (f : Flow) : Flow := { f.shutdown with isOpen := false }

def finish (f : Flow) : Flow := if f.isOpen then f.shutdown else f

def write (f : Flow) (count : Nat) : Flow :=
  { f with pending := f.pending.drop count, written := f.written ++ f.pending.take count }

end Flow

namespace Session

/-- A session of an accepted connection; what was taken of it before is written first. -/
def start (key : ConnectionKey) (buffered : List UInt8) (idle : Duration) (now : Instant) :
    Session where
  key := key
  idle := idle
  up := { written := buffered }
  idleEnds := now + idle

def flow (s : Session) : Direction → Flow
  | .up => s.up
  | .down => s.down

def setFlow (s : Session) (d : Direction) (f : Flow) : Session :=
  match d with
  | .up => { s with up := f }
  | .down => { s with down := f }

def finish (s : Session) : Session :=
  { s with up := s.up.finish, down := s.down.finish, phase := .over false }

def loop (s : Session) : Session :=
  if s.up.isOpen || s.down.isOpen then { s with phase := .ready } else s.finish

def completed (s : Session) (d : Direction) (size : Nat) (now : Instant) : Session :=
  let f := s.flow d
  { s.setFlow d { f with moved := f.moved + size } with
    idleEnds := now + s.idle, phase := .ready }

/-- What is to be counted for the connection when a write is complete. -/
def credit (s : Session) (r : Registry) (d : Direction) (size : Nat) (now : Instant) : Registry :=
  match d with
  | .up => r.update s.key size now
  | .down => r

/-- What a session does about an event at an instant; nothing, if it cannot happen now. -/
def step? (now : Instant) (s : Session) (r : Registry) (e : SessionEvent) :
    Option (Session × Registry) :=
  match s.phase, e with
  | .ready, .read d bytes =>
      let f := s.flow d
      if !f.isOpen then none
      else if bytes = [] then some ((s.setFlow d f.close).loop, r)
      else
        some ({ s.setFlow d { f with pending := bytes } with phase := .writing d bytes.length }, r)
  | .ready, .readFails d =>
      if (s.flow d).isOpen then some ({ s with phase := .over true }, r) else none
  | .ready, .stop => some (s.finish, r)
  | .ready, .idle => if s.idleEnds ≤ now then some (s.finish, r) else none
  | .writing d size, .takes side count =>
      let f := s.flow d
      if side ≠ d ∨ count = 0 ∨ f.pending.length < count then none
      else
        let s := s.setFlow d (f.write count)
        if count = f.pending.length then some (s.completed d size now, s.credit r d size now)
        else some (s, r)
  | .writing d _, .writeFails side =>
      if side = d then some ({ s with phase := .over true }, r) else none
  | _, _ => none

/-- Bytes that the session moved in both directions, without those taken before. -/
def counts (s : Session) : Nat × Nat := (s.up.moved, s.down.moved)

end Session

end AdmissionGate
