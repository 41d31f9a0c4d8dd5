import AdmissionGate.Net.AddressMap
import AdmissionGate.Reason
import AdmissionGate.Settings.Sections

/-!
Blocked addresses. A block ends at its instant without anyone's doing: whoever
looks it up after that finds nothing, and the entry goes.
-/

namespace AdmissionGate

structure BlockEntry where
  reason : Reason
  /-- When the block ends; a permanent one does not. -/
  expires : Option Instant
  /-- How often the address was blocked while it was listed. -/
  count : Nat
deriving DecidableEq

/-- A block that is in force. -/
structure BlockStatus where
  reason : Reason
  /-- Time left; none for a permanent block. -/
  remaining : Option Duration
  count : Nat
deriving DecidableEq

structure Blocklist where
  /-- No block is placed for longer. -/
  cap : Duration
  entries : AddressMap BlockEntry := .empty
  /-- A block was asked for that would end behind the last instant. The program does not
  survive that, so what the list holds then is of no account. -/
  overrun : Bool := false

namespace BlockEntry

def isExpired (e : BlockEntry) (now : Instant) : Bool := e.expires.any (· ≤ now)

def status (e : BlockEntry) (now : Instant) : BlockStatus :=
  ⟨e.reason, e.expires.map fun ends => Instant.since ends now, e.count⟩

end BlockEntry

namespace Blocklist

def ofSettings (s : BlockSettings) : Blocklist := { cap := s.maxBlock }

def size (b : Blocklist) : Nat := b.entries.size

/-- The block on an address, if one is in force. -/
def status? (b : Blocklist) (a : Address) (now : Instant) : Option BlockStatus :=
  match b.entries.get? a with
  | none => none
  | some e => if e.isExpired now then none else some (e.status now)

def isBlocked (b : Blocklist) (a : Address) (now : Instant) : Bool := (b.status? a now).isSome

/-- Removes the entry of an address if its block has ended, as every lookup does. -/
def settle (b : Blocklist) (a : Address) (now : Instant) : Blocklist :=
  match b.entries.get? a with
  | none => b
  | some e => if e.isExpired now then { b with entries := b.entries.erase a } else b

/-- The length of a block that is asked for: the cap bounds it. -/
def effective (b : Blocklist) (requested : Option Duration) : Option Duration :=
  requested.map (min · b.cap)

/-- Blocks an address; without a duration for good. -/
def block (b : Blocklist) (a : Address) (reason : Reason) (requested : Option Duration)
    (now : Instant) : Blocklist :=
  let count := ((b.entries.get? a).map (·.count)).getD 0
  let expires := (b.effective requested).map (now + ·)
  let entry : BlockEntry := { reason, expires, count := min (count + 1) max32 }
  { b with
    entries := b.entries.insert a entry
    overrun := b.overrun || expires.any (Instant.latest < ·) }

def isListed (b : Blocklist) (a : Address) : Bool := (b.entries.get? a).isSome

def unblock (b : Blocklist) (a : Address) : Blocklist := { b with entries := b.entries.erase a }

def purge (b : Blocklist) (now : Instant) : Blocklist :=
  { b with entries := b.entries.filter fun _ e => !e.isExpired now }

def clear (b : Blocklist) : Blocklist := { b with entries := .empty }

end Blocklist

end AdmissionGate
