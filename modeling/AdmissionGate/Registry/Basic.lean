import AdmissionGate.Blocklist
import AdmissionGate.ConnectionState
import AdmissionGate.Error

/-!
Live connections, and addresses that connected lately. Every connection has a
number of its own. An address keeps its slot while it has live connections and
for some time after, and the slot counts its registrations.
-/

namespace AdmissionGate

/-- Names one live connection. -/
structure ConnectionKey where
  address : Address
  id : Nat
deriving DecidableEq

namespace ConnectionKey

def text (k : ConnectionKey) : String := k.address.text ++ "#" ++ Digits.decimal k.id

end ConnectionKey

structure ConnectionRecord where
  key : ConnectionKey
  bytesIn : Nat := 0
  packetsIn : Nat := 0
  /-- Score of the address when it was last looked at. -/
  reputation : Float := 0.0
  state : ConnectionState := .registered
  /-- Registrations of the address that were remembered when this one was made. -/
  priorConnections : Nat

structure Slot where
  live : List ConnectionRecord := []
  registrations : Nat := 0
  lastActivity : Instant

structure Registry where
  /-- Live connections that one address may hold. -/
  limit : Nat
  recentTtl : Duration
  slots : AddressMap Slot := .empty
  nextId : Nat := 1
  active : Nat := 0

namespace Slot

def find? (s : Slot) (id : Nat) : Option ConnectionRecord := s.live.find? (·.key.id = id)

def modify (s : Slot) (id : Nat) (f : ConnectionRecord → ConnectionRecord) : Slot :=
  { s with live := s.live.map fun r => if r.key.id = id then f r else r }

def remove (s : Slot) (id : Nat) : Slot := { s with live := s.live.filter (·.key.id ≠ id) }

end Slot

namespace Registry

def ofSettings (s : RegistrySettings) : Registry where
  limit := s.maxConnectionsPerAddress.toNat
  recentTtl := s.recentTtl

def slot? (r : Registry) (a : Address) : Option Slot := r.slots.get? a

def record? (r : Registry) (k : ConnectionKey) : Option ConnectionRecord :=
  (r.slot? k.address).bind (·.find? k.id)

def activeFor (r : Registry) (a : Address) : Nat := ((r.slot? a).map (·.live.length)).getD 0

def registrations (r : Registry) (a : Address) : Nat :=
  ((r.slot? a).map (·.registrations)).getD 0

def trackedAddresses (r : Registry) : Nat := r.slots.size

/-- The slot of an address, which is made if there is none. -/
def slotAt (r : Registry) (a : Address) (now : Instant) : Slot :=
  (r.slot? a).getD { lastActivity := now }

/-- Registers a connection of an address. The blocklist is looked at before the slot is taken
hold of, and again (`landed`) when it is there, since a block may have landed meanwhile. A new
slot stays although the second look or the limit refuses the connection. -/
def register (r : Registry) (b landed : Blocklist) (a : Address) (now : Instant) :
    Except GateError ConnectionKey × Registry :=
  match b.status? a now with
  | some block => (.error (.blocked a block.reason), r)
  | none =>
      let slot := r.slotAt a now
      let held := { r with slots := r.slots.insert a slot }
      match landed.status? a now with
      | some block => (.error (.blocked a block.reason), held)
      | none =>
          if r.limit ≤ slot.live.length then
            (.error (.connectionLimit a slot.live.length r.limit), held)
          else
            let key : ConnectionKey := ⟨a, r.nextId⟩
            let record : ConnectionRecord := { key, priorConnections := slot.registrations }
            let slot : Slot :=
              { live := slot.live ++ [record],
                registrations := min (slot.registrations + 1) max64, lastActivity := now }
            (.ok key,
              { r with
                slots := r.slots.insert a slot, nextId := r.nextId + 1, active := r.active + 1 })

/-- Changes the record of a connection, and its slot; nothing happens if it is not live. -/
def modify (r : Registry) (k : ConnectionKey) (f : ConnectionRecord → ConnectionRecord) :
    Registry :=
  match r.slot? k.address with
  | none => r
  | some slot => { r with slots := r.slots.insert k.address (slot.modify k.id f) }

def isLive (r : Registry) (k : ConnectionKey) : Bool := (r.record? k).isSome

def touch (r : Registry) (a : Address) (now : Instant) : Registry :=
  match r.slot? a with
  | none => r
  | some slot => { r with slots := r.slots.insert a { slot with lastActivity := now } }

def update (r : Registry) (k : ConnectionKey) (bytes : Nat) (now : Instant) : Registry :=
  if r.isLive k then
    (r.modify k fun record =>
      { record with
        bytesIn := min (record.bytesIn + bytes) max64,
        packetsIn := min (record.packetsIn + 1) max64 }).touch k.address now
  else r

def canMove (r : Registry) (k : ConnectionKey) (state : ConnectionState) : Bool :=
  (r.record? k).any (·.state.canMoveTo state)

/-- Moves a connection to a state; nothing happens if it may not. -/
def setState (r : Registry) (k : ConnectionKey) (state : ConnectionState) : Registry :=
  if r.canMove k state then r.modify k fun record => { record with state } else r

def setReputation (r : Registry) (k : ConnectionKey) (score : Float) : Registry :=
  r.modify k fun record => { record with reputation := score }

def release (r : Registry) (k : ConnectionKey) (now : Instant) : Registry :=
  if r.isLive k then
    match r.slot? k.address with
    | none => r
    | some slot =>
        { r with
          slots := r.slots.insert k.address { slot.remove k.id with lastActivity := now },
          active := r.active - 1 }
  else r

def keeps (r : Registry) (now : Instant) (slot : Slot) : Bool :=
  !slot.live.isEmpty || Instant.since now slot.lastActivity < r.recentTtl

/-- Forgets addresses that have no live connection and were quiet for long enough. -/
def purge (r : Registry) (now : Instant) : Registry :=
  { r with slots := r.slots.filter fun _ slot => r.keeps now slot }

end Registry

end AdmissionGate
