/-!
How far a connection has come. The states follow the order of the stages, and
every state but the last two can still end in a rejection.
-/

namespace AdmissionGate

inductive ConnectionState where
  /-- Accepted by the listener, nothing checked yet. -/
  | new
  | registered
  | handshakeValidated
  | classified
  | admitted
  | rejected
deriving DecidableEq, Repr

namespace ConnectionState

def all : List ConnectionState :=
  [new, registered, handshakeValidated, classified, admitted, rejected]

def name : ConnectionState → String
  | new => "new"
  | registered => "registered"
  | handshakeValidated => "handshake_validated"
  | classified => "classified"
  | admitted => "admitted"
  | rejected => "rejected"

def ofName? (s : String) : Option ConnectionState := all.find? (·.name = s)

theorem ofName?_name (s : ConnectionState) : ofName? s.name = some s := by
  cases s <;> decide

def isTerminal : ConnectionState → Bool
  | admitted | rejected => true
  | _ => false

def next? : ConnectionState → Option ConnectionState
  | new => some registered
  | registered => some handshakeValidated
  | handshakeValidated => some classified
  | classified => some admitted
  | admitted | rejected => none

def canMoveTo (s t : ConnectionState) : Bool :=
  s.next? = some t || (!s.isTerminal && t = rejected)

end ConnectionState

end AdmissionGate
