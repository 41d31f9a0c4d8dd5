import AdmissionGate.Settings.Sections
import AdmissionGate.Text.Digits

/-!
Which settings make sense together. A fault names the first rule that is
broken, in the order of the sections.
-/

namespace AdmissionGate

inductive SettingsFault where
  | emptyWindow
  | zeroEscalationThreshold
  | badDecay
  | blockScoreTooLow
  | zeroBaseBlock
  | blockCapTooLow
  | budgetTooSmall
  | zeroHandshakeTimeout
  | invertedVersions (low high : Int32)
  | noNextStates
  | badThresholds
deriving DecidableEq

namespace SettingsFault

def message : SettingsFault → String
  | emptyWindow => "limiter window must have at least one non-empty bucket"
  | zeroEscalationThreshold => "limiter.escalation_threshold must be at least 1"
  | badDecay => "reputation.decay_per_second must be a non-negative number"
  | blockScoreTooLow => "reputation.block_score must exceed reputation.baseline_score"
  | zeroBaseBlock => "blocklist.base_block_ms cannot be zero"
  | blockCapTooLow => "blocklist.max_block_ms must be at least blocklist.base_block_ms"
  | budgetTooSmall => "handshake.max_bytes is too small to hold a handshake"
  | zeroHandshakeTimeout => "handshake.timeout_ms cannot be zero"
  | invertedVersions low high =>
      "handshake protocol range is inverted: " ++ Digits.decimalOfInt low.toInt ++ " > " ++
        Digits.decimalOfInt high.toInt
  | noNextStates => "handshake.allowed_next_states cannot be empty"
  | badThresholds =>
      "detection.heuristic thresholds must satisfy suspicion <= block <= 100"

end SettingsFault

namespace HandshakeSettings

/-- The accepted range of versions if its ends are given the wrong way round. -/
def invertedRange? (s : HandshakeSettings) : Option (Int32 × Int32) :=
  match s.minProtocolVersion, s.maxProtocolVersion with
  | some low, some high => if high < low then some (low, high) else none
  | _, _ => none

end HandshakeSettings

namespace Settings

def fault? (s : Settings) : Option SettingsFault :=
  if s.limiter.windowBuckets = 0 ∨ s.limiter.bucketMs = 0 then some .emptyWindow
  else if s.limiter.escalationThreshold = 0 then some .zeroEscalationThreshold
  else if !s.reputation.decayPerSecond.isFinite || s.reputation.decayPerSecond < 0.0 then
    some .badDecay
  else if s.reputation.blockScore ≤ s.reputation.baselineScore then some .blockScoreTooLow
  else if s.blocklist.baseBlockMs = 0 then some .zeroBaseBlock
  else if s.blocklist.maxBlockMs < s.blocklist.baseBlockMs then some .blockCapTooLow
  else if s.handshake.maxBytes < 3 then some .budgetTooSmall
  else if s.handshake.timeoutMs = 0 then some .zeroHandshakeTimeout
  else
    match s.handshake.invertedRange? with
    | some (low, high) => some (.invertedVersions low high)
    | none =>
        if s.handshake.allowedNextStates = [] then some .noNextStates
        else if 100 < s.detection.heuristic.blockThreshold ∨
            s.detection.heuristic.blockThreshold < s.detection.heuristic.suspicionThreshold then
          some .badThresholds
        else none

def Valid (s : Settings) : Prop := s.fault? = none

instance (s : Settings) : Decidable s.Valid := inferInstanceAs (Decidable (_ = none))

end Settings

end AdmissionGate
