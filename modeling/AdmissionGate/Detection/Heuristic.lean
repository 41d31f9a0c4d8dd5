import AdmissionGate.Detection.Engine
import AdmissionGate.Net.Address
import AdmissionGate.Settings.Sections

/-!
The engine that goes by signs: each sign that a handshake or the history of its
address shows is worth some points of a hundred, and the sum decides.
-/

namespace AdmissionGate

/-- A sign that a client is no player. -/
inductive Sign where
  | emptyHost
  /-- The client dialled an address instead of a name. -/
  | literalHost
  | unexpectedHost
  | unexpectedPort
  | forwardingMarkers
  | poorReputation
  /-- The address registers again and again. -/
  | reconnectChurn
deriving DecidableEq, Repr

namespace Sign

def points : Sign → Nat
  | emptyHost => 40
  | literalHost => 25
  | unexpectedHost => 40
  | unexpectedPort => 20
  | forwardingMarkers => 50
  | poorReputation => 30
  | reconnectChurn => 35

def name : Sign → String
  | emptyHost => "empty_server_address"
  | literalHost => "ip_literal_address"
  | unexpectedHost => "unexpected_host"
  | unexpectedPort => "unexpected_port"
  | forwardingMarkers => "forwarding_markers"
  | poorReputation => "poor_reputation"
  | reconnectChurn => "reconnect_churn"

end Sign

/-- The signs that a connection shows, in the order they are looked for, and its score. -/
structure Assessment where
  score : Nat := 0
  signs : List Sign := []
deriving DecidableEq

namespace Assessment

def mostPoints : Nat := 100

def add (a : Assessment) (sign : Sign) : Assessment where
  score := min (a.score + sign.points) mostPoints
  signs := a.signs ++ [sign]

def ofSigns (signs : List Sign) : Assessment := signs.foldl add {}

end Assessment

namespace HeuristicSettings

def expects (s : HeuristicSettings) (host : List Char) : Bool :=
  s.expectedHosts.any fun e => HostName.sameName (HostName.canonical e.toList) host

def shows (s : HeuristicSettings) (r : ConnectionRecord) (h : Handshake) : Sign → Bool
  | .emptyHost => h.hostChars.isEmpty
  | .literalHost => !h.hostChars.isEmpty && (Address.ofChars? h.hostChars).isSome
  | .unexpectedHost => !s.expectedHosts.isEmpty && !s.expects h.hostChars
  | .unexpectedPort => s.expectedPort.any (· ≠ h.serverPort)
  | .forwardingMarkers => h.hasForwardingMarkers && !s.allowForwardingMarkers
  | .poorReputation => Float.ofNat s.suspiciousReputation.toNat ≤ r.reputation
  | .reconnectChurn => s.churnThreshold.toNat ≤ r.priorConnections

def order : List Sign :=
  [.emptyHost, .literalHost, .unexpectedHost, .unexpectedPort, .forwardingMarkers,
    .poorReputation, .reconnectChurn]

def assess (s : HeuristicSettings) (r : ConnectionRecord) (h : Handshake) : Assessment :=
  .ofSigns (order.filter (s.shows r h))

def verdictFor (s : HeuristicSettings) (score : Nat) : Verdict :=
  if s.blockThreshold.toNat ≤ score then .reject .classificationRejected
  else if s.suspicionThreshold.toNat ≤ score then .throttle .classificationRejected 0
  else .allow

def classify (s : HeuristicSettings) (r : ConnectionRecord) (h : Handshake) : Consultation :=
  let a := s.assess r h
  let v := s.verdictFor a.score
  { answer := some (0, .verdict v)
    notes := if v.isAllowed then [] else [(0, .flagged r.key a.score (a.signs.map (·.name)))] }

def engine (s : HeuristicSettings) : Engine where
  name := "heuristic"
  classify := s.classify

end HeuristicSettings

end AdmissionGate
