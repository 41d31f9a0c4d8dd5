import AdmissionGate.Settings.Datum
import AdmissionGate.Settings.Sections

/-!
Settings as data of a document, and back. Every section and field has a default,
and entries that no field answers to are passed over.
-/

namespace AdmissionGate

def Datum.ofWord (n : Nat) : Datum := int n

def Datum.ofOption (f : α → Datum) : Option α → Datum
  | none => null
  | some a => f a

namespace NextState

def ofDatum? (dialect : Dialect) (d : Datum) : Option NextState := d.toName? dialect ofName?

end NextState

namespace RegistrySettings

def ofDatum? (dialect : Dialect) (d : Datum) : Option RegistrySettings := do
  let s ← d.toSection? dialect 2
  let base : RegistrySettings := {}
  some {
    maxConnectionsPerAddress :=
      ← s.read 0 "max_connections_per_address" Datum.toUInt32? base.maxConnectionsPerAddress
    recentTtlMs := ← s.read 1 "recent_ttl_ms" Datum.toUInt64? base.recentTtlMs }

def toDatum (s : RegistrySettings) : Datum :=
  .table [
    ("max_connections_per_address", .ofWord s.maxConnectionsPerAddress.toNat),
    ("recent_ttl_ms", .ofWord s.recentTtlMs.toNat)]

end RegistrySettings

namespace LimiterSettings

def ofDatum? (dialect : Dialect) (d : Datum) : Option LimiterSettings := do
  let s ← d.toSection? dialect 7
  let base : LimiterSettings := {}
  some {
    maxEventsPerWindow :=
      ← s.read 0 "max_events_per_window" Datum.toUInt32? base.maxEventsPerWindow
    windowBuckets := ← s.read 1 "window_buckets" Datum.toUInt32? base.windowBuckets
    bucketMs := ← s.read 2 "bucket_ms" Datum.toUInt64? base.bucketMs
    escalationThreshold :=
      ← s.read 3 "escalation_threshold" Datum.toUInt32? base.escalationThreshold
    escalationWindowMs :=
      ← s.read 4 "escalation_window_ms" Datum.toUInt64? base.escalationWindowMs
    idleTtlMs := ← s.read 5 "idle_ttl_ms" Datum.toUInt64? base.idleTtlMs
    enabled := ← s.read 6 "enabled" Datum.toBool? base.enabled }

def toDatum (s : LimiterSettings) : Datum :=
  .table [
    ("max_events_per_window", .ofWord s.maxEventsPerWindow.toNat),
    ("window_buckets", .ofWord s.windowBuckets.toNat),
    ("bucket_ms", .ofWord s.bucketMs.toNat),
    ("escalation_threshold", .ofWord s.escalationThreshold.toNat),
    ("escalation_window_ms", .ofWord s.escalationWindowMs.toNat),
    ("idle_ttl_ms", .ofWord s.idleTtlMs.toNat),
    ("enabled", .bool s.enabled)]

end LimiterSettings

namespace ReputationSettings

def ofDatum? (dialect : Dialect) (d : Datum) : Option ReputationSettings := do
  let s ← d.toSection? dialect 8
  let base : ReputationSettings := {}
  some {
    baselineScore := ← s.read 0 "baseline_score" Datum.toFloat? base.baselineScore
    blockScore := ← s.read 1 "block_score" Datum.toFloat? base.blockScore
    decayPerSecond := ← s.read 2 "decay_per_second" Datum.toFloat? base.decayPerSecond
    throttlePenalty := ← s.read 3 "throttle_penalty" Datum.toFloat? base.throttlePenalty
    malformedPenalty := ← s.read 4 "malformed_penalty" Datum.toFloat? base.malformedPenalty
    classificationPenalty :=
      ← s.read 5 "classification_penalty" Datum.toFloat? base.classificationPenalty
    suspicionPenalty := ← s.read 6 "suspicion_penalty" Datum.toFloat? base.suspicionPenalty
    timeoutPenalty := ← s.read 7 "timeout_penalty" Datum.toFloat? base.timeoutPenalty }

def toDatum (s : ReputationSettings) : Datum :=
  .table [
    ("baseline_score", .float s.baselineScore),
    ("block_score", .float s.blockScore),
    ("decay_per_second", .float s.decayPerSecond),
    ("throttle_penalty", .float s.throttlePenalty),
    ("malformed_penalty", .float s.malformedPenalty),
    ("classification_penalty", .float s.classificationPenalty),
    ("suspicion_penalty", .float s.suspicionPenalty),
    ("timeout_penalty", .float s.timeoutPenalty)]

end ReputationSettings

namespace BlockSettings

def ofDatum? (dialect : Dialect) (d : Datum) : Option BlockSettings := do
  let s ← d.toSection? dialect 2
  let base : BlockSettings := {}
  some {
    baseBlockMs := ← s.read 0 "base_block_ms" Datum.toUInt64? base.baseBlockMs
    maxBlockMs := ← s.read 1 "max_block_ms" Datum.toUInt64? base.maxBlockMs }

def toDatum (s : BlockSettings) : Datum :=
  .table [
    ("base_block_ms", .ofWord s.baseBlockMs.toNat),
    ("max_block_ms", .ofWord s.maxBlockMs.toNat)]

end BlockSettings

namespace HandshakeSettings

def ofDatum? (dialect : Dialect) (d : Datum) : Option HandshakeSettings := do
  let s ← d.toSection? dialect 6
  let base : HandshakeSettings := {}
  some {
    maxBytes := ← s.read 0 "max_bytes" Datum.toUInt64? base.maxBytes
    timeoutMs := ← s.read 1 "timeout_ms" Datum.toUInt64? base.timeoutMs
    minProtocolVersion :=
      ← s.read 2 "min_protocol_version" (Datum.toOption? Datum.toInt32?) base.minProtocolVersion
    maxProtocolVersion :=
      ← s.read 3 "max_protocol_version" (Datum.toOption? Datum.toInt32?) base.maxProtocolVersion
    maxAddressLength := ← s.read 4 "max_address_len" Datum.toUInt64? base.maxAddressLength
    allowedNextStates :=
      ← s.read 5 "allowed_next_states" (Datum.toList? (NextState.ofDatum? dialect))
        base.allowedNextStates }

def toDatum (s : HandshakeSettings) : Datum :=
  .table [
    ("max_bytes", .ofWord s.maxBytes.toNat),
    ("timeout_ms", .ofWord s.timeoutMs.toNat),
    ("min_protocol_version", .ofOption (.int ·.toInt) s.minProtocolVersion),
    ("max_protocol_version", .ofOption (.int ·.toInt) s.maxProtocolVersion),
    ("max_address_len", .ofWord s.maxAddressLength.toNat),
    ("allowed_next_states", .list (s.allowedNextStates.map (.text ·.name)))]

end HandshakeSettings

namespace HeuristicSettings

def ofDatum? (dialect : Dialect) (d : Datum) : Option HeuristicSettings := do
  let s ← d.toSection? dialect 7
  let base : HeuristicSettings := {}
  some {
    expectedHosts := ← s.read 0 "expected_hosts" (Datum.toList? Datum.toText?) base.expectedHosts
    expectedPort :=
      ← s.read 1 "expected_port" (Datum.toOption? Datum.toUInt16?) base.expectedPort
    allowForwardingMarkers :=
      ← s.read 2 "allow_forwarding_markers" Datum.toBool? base.allowForwardingMarkers
    churnThreshold := ← s.read 3 "churn_threshold" Datum.toUInt64? base.churnThreshold
    suspiciousReputation :=
      ← s.read 4 "suspicious_reputation" Datum.toUInt32? base.suspiciousReputation
    blockThreshold := ← s.read 5 "block_threshold" Datum.toUInt8? base.blockThreshold
    suspicionThreshold := ← s.read 6 "suspicion_threshold" Datum.toUInt8? base.suspicionThreshold }

def toDatum (s : HeuristicSettings) : Datum :=
  .table [
    ("expected_hosts", .list (s.expectedHosts.map .text)),
    ("expected_port", .ofOption (.ofWord ·.toNat) s.expectedPort),
    ("allow_forwarding_markers", .bool s.allowForwardingMarkers),
    ("churn_threshold", .ofWord s.churnThreshold.toNat),
    ("suspicious_reputation", .ofWord s.suspiciousReputation.toNat),
    ("block_threshold", .ofWord s.blockThreshold.toNat),
    ("suspicion_threshold", .ofWord s.suspicionThreshold.toNat)]

end HeuristicSettings

namespace DetectionSettings

def ofDatum? (dialect : Dialect) (d : Datum) : Option DetectionSettings := do
  let s ← d.toSection? dialect 3
  let base : DetectionSettings := {}
  some {
    classifyTimeoutMs := ← s.read 0 "classify_timeout_ms" Datum.toUInt64? base.classifyTimeoutMs
    failurePolicy :=
      ← s.read 1 "failure_policy" (Datum.toName? dialect FailurePolicy.ofName?) base.failurePolicy
    heuristic := ← s.read 2 "heuristic" (HeuristicSettings.ofDatum? dialect) base.heuristic }

def toDatum (s : DetectionSettings) : Datum :=
  .table [
    ("classify_timeout_ms", .ofWord s.classifyTimeoutMs.toNat),
    ("failure_policy", .text s.failurePolicy.name),
    ("heuristic", s.heuristic.toDatum)]

end DetectionSettings

namespace PipelineSettings

def ofDatum? (dialect : Dialect) (d : Datum) : Option PipelineSettings := do
  let s ← d.toSection? dialect 1
  let base : PipelineSettings := {}
  some {
    maxThrottleWaitMs :=
      ← s.read 0 "max_throttle_wait_ms" Datum.toUInt64? base.maxThrottleWaitMs }

def toDatum (s : PipelineSettings) : Datum :=
  .table [("max_throttle_wait_ms", .ofWord s.maxThrottleWaitMs.toNat)]

end PipelineSettings

namespace Settings

def ofDatum? (dialect : Dialect) (d : Datum) : Option Settings := do
  let s ← d.toSection? dialect 7
  let base : Settings := {}
  some {
    registry := ← s.read 0 "registry" (RegistrySettings.ofDatum? dialect) base.registry
    limiter := ← s.read 1 "limiter" (LimiterSettings.ofDatum? dialect) base.limiter
    reputation := ← s.read 2 "reputation" (ReputationSettings.ofDatum? dialect) base.reputation
    blocklist := ← s.read 3 "blocklist" (BlockSettings.ofDatum? dialect) base.blocklist
    handshake := ← s.read 4 "handshake" (HandshakeSettings.ofDatum? dialect) base.handshake
    detection := ← s.read 5 "detection" (DetectionSettings.ofDatum? dialect) base.detection
    pipeline := ← s.read 6 "pipeline" (PipelineSettings.ofDatum? dialect) base.pipeline }

def toDatum (s : Settings) : Datum :=
  .table [
    ("registry", s.registry.toDatum),
    ("limiter", s.limiter.toDatum),
    ("reputation", s.reputation.toDatum),
    ("blocklist", s.blocklist.toDatum),
    ("handshake", s.handshake.toDatum),
    ("detection", s.detection.toDatum),
    ("pipeline", s.pipeline.toDatum)]

end Settings

end AdmissionGate
