import AdmissionGate.Audit.EventId
import AdmissionGate.Audit.Timestamp
import AdmissionGate.ConnectionState
import AdmissionGate.Json.Printer
import AdmissionGate.Json.Reader
import AdmissionGate.Net.Address
import AdmissionGate.Reason
import AdmissionGate.Time

/-!
What operators are told: one record for each connection that was turned away,
and for each that was admitted without a verdict. The gate makes an `AuditEvent`;
with an identifier and a time it becomes an `AuditRecord`, which is kept as JSON.
-/

namespace AdmissionGate

inductive AuditKind where
  | rejected
  | escalated
  | degraded
deriving DecidableEq, Repr

namespace AuditKind

def all : List AuditKind := [rejected, escalated, degraded]

def name : AuditKind → String
  | rejected => "rejected"
  | escalated => "escalated"
  | degraded => "degraded"

def ofName? (s : String) : Option AuditKind := all.find? (·.name = s)

theorem ofName?_name (k : AuditKind) : ofName? k.name = some k := by
  cases k <;> decide

end AuditKind

structure AuditEvent where
  kind : AuditKind
  address : Address
  /-- The registry's number of the connection, if it got one. -/
  connectionId : Option Nat := none
  reason : Reason
  state : ConnectionState
  /-- Length of the block on the address, in milliseconds. -/
  blockMs : Option Nat := none
  detail : Option String := none
deriving DecidableEq

namespace AuditEvent

/-- Whole milliseconds of a block, as a 64-bit word. -/
def withBlock (e : AuditEvent) (block : Option Duration) : AuditEvent :=
  { e with blockMs := block.map Duration.wrappedMillis }

end AuditEvent

structure AuditRecord where
  id : EventId
  event : AuditEvent
  time : Timestamp
deriving DecidableEq

namespace AuditRecord

def fieldNames : List String :=
  ["event_id", "kind", "address", "connection_id", "reason", "state", "block_duration_ms",
    "detail", "timestamp"]

def toJson (r : AuditRecord) : Json :=
  .ofMembers [
    ("event_id", .ofText (String.ofList r.id.toChars)),
    ("kind", .ofText r.event.kind.name),
    ("address", .ofText r.event.address.text),
    ("connection_id", .ofOption .ofNat r.event.connectionId),
    ("reason", .ofText r.event.reason.name),
    ("state", .ofText r.event.state.name),
    ("block_duration_ms", .ofOption .ofNat r.event.blockMs),
    ("detail", .ofOption .ofText r.event.detail),
    ("timestamp", .ofText (String.ofList r.time.toChars))]

def toText (r : AuditRecord) : String := r.toJson.text

def readText (read : String → Option α) : Json → Option α
  | .string (some s) => read s
  | _ => none

/-- A name, as text or as the only key of an object, beside a null. -/
def readName (ofName? : String → Option α) : Json → Option α
  | .string (some s) => ofName? s
  | .object [(some s, .null)] => ofName? s
  | _ => none

def readWord : Json → Option Nat
  | .number n => do
      let i ← n.int?
      if 0 ≤ i ∧ i.toNat < UInt64.size then some i.toNat else none
  | _ => none

def readOption (read : Json → Option α) : Json → Option (Option α)
  | .null => some none
  | j => (read j).map some

/-- The record with fields given by position; a field that may be null may be missing. -/
def ofFields? (field : Nat → Option Json) : Option AuditRecord := do
  let id ← readText (EventId.ofChars? ·.toList) (← field 0)
  let kind ← readName AuditKind.ofName? (← field 1)
  let address ← readText Address.ofText? (← field 2)
  let connectionId ← readOption readWord ((field 3).getD .null)
  let reason ← readName Reason.ofName? (← field 4)
  let state ← readName ConnectionState.ofName? (← field 5)
  let blockMs ← readOption readWord ((field 6).getD .null)
  let detail ← readOption (readText some) ((field 7).getD .null)
  let time ← readText (Timestamp.ofChars? ·.toList) (← field 8)
  some { id, event := { kind, address, connectionId, reason, state, blockMs, detail }, time }

def membersOf (name : String) (members : List (Option String × Json)) : List Json :=
  (members.filter (·.1 = some name)).map (·.2)

/-- A record as an object, in which no field may stand twice, or as a list of all fields
in their order. -/
def ofJson? : Json → Option AuditRecord
  | .object members =>
      if members.all (·.1.isSome) && fieldNames.all (fun n => (membersOf n members).length ≤ 1) then
        ofFields? fun i => fieldNames[i]?.bind fun n => (membersOf n members).head?
      else none
  | .array items => if items.length = fieldNames.length then ofFields? (items[·]?) else none
  | _ => none

def ofText? (text : String) : Option AuditRecord := (Json.ofString? text).bind ofJson?

end AuditRecord

end AdmissionGate
