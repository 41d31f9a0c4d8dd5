import AdmissionGate.Handshake.NextState
import AdmissionGate.Time

/-!
The settings of the gate, one structure a section, with the values they have
when nothing is said. Spans of time are kept in milliseconds; the functions that
give them as durations stand beside their section.
-/

namespace AdmissionGate

structure RegistrySettings where
  /-- Live connections that one address may hold. -/
  maxConnectionsPerAddress : UInt32 := 4
  /-- How long an address without live connections is remembered. -/
  recentTtlMs : UInt64 := 600000
deriving DecidableEq

structure LimiterSettings where
  /-- Connection events that one window may hold. -/
  maxEventsPerWindow : UInt32 := 10
  windowBuckets : UInt32 := 10
  bucketMs : UInt64 := 100
  /-- Throttle events within the escalation window that make a block. -/
  escalationThreshold : UInt32 := 3
  escalationWindowMs : UInt64 := 60000
  /-- How long an idle entry is kept. -/
  idleTtlMs : UInt64 := 3600000
  enabled : Bool := true
deriving DecidableEq

/-- Scores are penalties: the baseline is neutral, and more is worse. -/
structure ReputationSettings where
  baselineScore : Float := 0.0
  blockScore : Float := 100.0
  /-- Points that a quiet second takes off. -/
  decayPerSecond : Float := 1.0
  throttlePenalty : Float := 10.0
  malformedPenalty : Float := 25.0
  classificationPenalty : Float := 50.0
  suspicionPenalty : Float := 15.0
  timeoutPenalty : Float := 5.0

structure BlockSettings where
  /-- The first block that an escalation places. -/
  baseBlockMs : UInt64 := 30000
  maxBlockMs : UInt64 := 86400000
deriving DecidableEq

structure HandshakeSettings where
  /-- Bytes that a handshake frame may take up. -/
  maxBytes : UInt64 := 512
  timeoutMs : UInt64 := 5000
  minProtocolVersion : Option Int32 := none
  maxProtocolVersion : Option Int32 := none
  /-- Bytes that the server address may take up. -/
  maxAddressLength : UInt64 := 255
  allowedNextStates : List NextState := [.status, .login, .transfer]
deriving DecidableEq

/-- What becomes of a connection when the detection engine gives no verdict. -/
inductive FailurePolicy where
  | failOpen
  | failClosed
deriving DecidableEq, Repr

namespace FailurePolicy

def name : FailurePolicy → String
  | failOpen => "fail_open"
  | failClosed => "fail_closed"

def ofName? (s : String) : Option FailurePolicy := [failOpen, failClosed].find? (·.name = s)

theorem ofName?_name (p : FailurePolicy) : ofName? p.name = some p := by
  cases p <;> decide

end FailurePolicy

structure HeuristicSettings where
  /-- Names that clients should dial; with none, any will do. -/
  expectedHosts : List String := []
  expectedPort : Option UInt16 := none
  allowForwardingMarkers : Bool := true
  /-- Remembered registrations from which reconnecting is suspicious. -/
  churnThreshold : UInt64 := 50
  suspiciousReputation : UInt32 := 50
  /-- Points, of a hundred, from which a client is turned away. -/
  blockThreshold : UInt8 := 70
  /-- Points, of a hundred, from which a client is flagged. -/
  suspicionThreshold : UInt8 := 40
deriving DecidableEq

structure DetectionSettings where
  classifyTimeoutMs : UInt64 := 250
  failurePolicy : FailurePolicy := .failOpen
  heuristic : HeuristicSettings := {}
deriving DecidableEq

structure PipelineSettings where
  /-- Throttle delays of one admission may sum to this. -/
  maxThrottleWaitMs : UInt64 := 2000
deriving DecidableEq

structure Settings where
  registry : RegistrySettings := {}
  limiter : LimiterSettings := {}
  reputation : ReputationSettings := {}
  blocklist : BlockSettings := {}
  handshake : HandshakeSettings := {}
  detection : DetectionSettings := {}
  pipeline : PipelineSettings := {}

namespace RegistrySettings

def recentTtl (s : RegistrySettings) : Duration := .ofMillis s.recentTtlMs.toNat

end RegistrySettings

namespace LimiterSettings

def bucketDuration (s : LimiterSettings) : Duration := .ofMillis s.bucketMs.toNat

/-- All buckets together; the milliseconds stop at the largest 64-bit number. -/
def window (s : LimiterSettings) : Duration :=
  .ofMillis (min (s.bucketMs.toNat * s.windowBuckets.toNat) max64)

def escalationWindow (s : LimiterSettings) : Duration := .ofMillis s.escalationWindowMs.toNat

def idleTtl (s : LimiterSettings) : Duration := .ofMillis s.idleTtlMs.toNat

end LimiterSettings

namespace BlockSettings

def baseBlock (s : BlockSettings) : Duration := .ofMillis s.baseBlockMs.toNat

def maxBlock (s : BlockSettings) : Duration := .ofMillis s.maxBlockMs.toNat

end BlockSettings

namespace HandshakeSettings

def timeout (s : HandshakeSettings) : Duration := .ofMillis s.timeoutMs.toNat

/-- Bytes that are read of a connection before its handshake is through. -/
def budget (s : HandshakeSettings) : Nat := s.maxBytes.toNat

end HandshakeSettings

namespace DetectionSettings

def classifyTimeout (s : DetectionSettings) : Duration := .ofMillis s.classifyTimeoutMs.toNat

end DetectionSettings

namespace PipelineSettings

def maxThrottleWait (s : PipelineSettings) : Duration := .ofMillis s.maxThrottleWaitMs.toNat

end PipelineSettings

end AdmissionGate
