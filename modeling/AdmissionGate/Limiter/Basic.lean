import AdmissionGate.Blocklist
import AdmissionGate.Limiter.Decay
import AdmissionGate.Limiter.Window
import AdmissionGate.Verdict

/-!
How often an address may connect, and how it stands. Each address has an entry:
a window of connection events, the throttle events of late, and a score of
penalties that goes down with time. Too many throttle events or too high a score
turn into a block, and each block of an entry is twice as long as the one before.
-/

namespace AdmissionGate

structure LimiterEntry where
  window : Window
  /-- Throttle events that are remembered, the oldest first. -/
  throttles : List Instant := []
  score : Float
  /-- The instant that the score stands for. -/
  scoredAt : Instant
  /-- Blocks that the entry has brought about. -/
  level : Nat := 0
  totalThrottles : Nat := 0
  lastSeen : Instant

structure EntryView where
  score : Float
  eventsInWindow : Nat
  recentThrottles : Nat
  totalThrottles : Nat
  level : Nat

structure Limiter where
  settings : LimiterSettings
  reputation : ReputationSettings
  /-- Length of the first block of an entry. -/
  baseBlock : Duration
  entries : AddressMap LimiterEntry := .empty
  /-- A bucket was needed that has no number in 64 bits. The program does not survive that,
  so what the limiter holds then is of no account. -/
  overrun : Bool := false

structure Limited (α : Type) where
  answer : α
  limiter : Limiter
  blocklist : Blocklist

namespace Limiter

def ofSettings (s : Settings) : Limiter where
  settings := s.limiter
  reputation := s.reputation
  baseBlock := s.blocklist.baseBlock

def maxEvents (l : Limiter) : Nat := l.settings.maxEventsPerWindow.toNat

def escalationThreshold (l : Limiter) : Nat := l.settings.escalationThreshold.toNat

def trackedCount (l : Limiter) : Nat := l.entries.size

def freshEntry (l : Limiter) (now : Instant) : LimiterEntry where
  window := .ofBuckets l.settings.windowBuckets.toNat l.settings.bucketDuration now
  score := l.reputation.baselineScore
  scoredAt := now
  lastSeen := now

def scoreOf (l : Limiter) (e : LimiterEntry) (now : Instant) : Float :=
  decayed l.reputation.baselineScore l.reputation.decayPerSecond
    (Duration.seconds (Instant.since now e.scoredAt)) e.score

def isRecent (l : Limiter) (now : Instant) (throttle : Instant) : Bool :=
  Instant.since now throttle < l.settings.escalationWindow

/-- Brings an entry up to an instant. -/
def refresh (l : Limiter) (e : LimiterEntry) (now : Instant) : LimiterEntry :=
  { e with
    score := l.scoreOf e now
    scoredAt := max e.scoredAt now
    lastSeen := max e.lastSeen now
    window := e.window.advance now
    throttles := e.throttles.dropWhile fun t => !l.isRecent now t }

def entryFor (l : Limiter) (a : Address) (now : Instant) : LimiterEntry :=
  l.refresh ((l.entries.get? a).getD (l.freshEntry now)) now

def withEntry (l : Limiter) (a : Address) (e : LimiterEntry) : Limiter :=
  { l with entries := l.entries.insert a e }

/-- How many times the base block a block of this level is. -/
def escalationFactor (level : Nat) : Nat := if level - 1 < 32 then Nat.pow 2 (level - 1) else max32

def escalate (l : Limiter) (b : Blocklist) (a : Address) (e : LimiterEntry) (reason : Reason)
    (now : Instant) : Limited Verdict :=
  let level := min (e.level + 1) max32
  let requested := Duration.times l.baseBlock (escalationFactor level)
  { answer := .block reason (b.effective (some requested))
    limiter := l.withEntry a { e with level, throttles := [] }
    blocklist := b.block a reason (some requested) now }

def addThrottle (l : Limiter) (e : LimiterEntry) (now : Instant) : LimiterEntry :=
  { e with
    throttles := e.throttles ++ [now]
    totalThrottles := min (e.totalThrottles + 1) max64
    score := e.score + l.reputation.throttlePenalty }

def blocksAt (l : Limiter) (score : Float) : Bool := l.reputation.blockScore ≤ score

def checkEntry (l : Limiter) (b : Blocklist) (a : Address) (e : LimiterEntry) (now : Instant) :
    Limited Verdict :=
  if l.blocksAt e.score then l.escalate b a e .reputationBlocked now
  else if e.window.total < l.maxEvents then
    ⟨.allow, l.withEntry a { e with window := e.window.record }, b⟩
  else
    let e := l.addThrottle e now
    if l.escalationThreshold ≤ e.throttles.length then l.escalate b a e .rateExceeded now
    else if l.blocksAt e.score then l.escalate b a e .reputationBlocked now
    else
      ⟨.throttle .rateExceeded (e.window.retryAfter l.maxEvents now),
        { l.withEntry a e with overrun := l.overrun || e.window.retryOverruns l.maxEvents }, b⟩

def check (l : Limiter) (b : Blocklist) (a : Address) (now : Instant) : Limited Verdict :=
  match b.status? a now with
  | some block => ⟨.block .reputationBlocked block.remaining, l, b⟩
  | none =>
      let b := b.settle a now
      if l.settings.enabled then l.checkEntry b a (l.entryFor a now) now else ⟨.allow, l, b⟩

def penaltyFor (l : Limiter) : Reason → Float
  | .malformedHandshake => l.reputation.malformedPenalty
  | .classificationRejected => l.reputation.classificationPenalty
  | .classificationTimeout => l.reputation.timeoutPenalty
  | .rateExceeded | .connectionLimit => l.reputation.throttlePenalty
  | .reputationBlocked | .internalFault | .manualBlock => 0.0

/-- Only a positive finite amount is a penalty. -/
def isPenalty (amount : Float) : Bool := !(amount ≤ 0.0) && amount.isFinite

/-- Adds to the score of an address. A block is placed if the score is one to block for
and the address is not blocked yet; the answer is that block. -/
def penalize (l : Limiter) (b : Blocklist) (a : Address) (amount : Float) (now : Instant) :
    Limited (Option Verdict) :=
  if isPenalty amount then
    let e := l.entryFor a now
    let e := { e with score := e.score + amount }
    if l.blocksAt e.score then
      if b.isBlocked a now then ⟨none, l.withEntry a e, b⟩
      else
        let r := l.escalate (b.settle a now) a e .reputationBlocked now
        ⟨some r.answer, r.limiter, r.blocklist⟩
    else ⟨none, l.withEntry a e, b⟩
  else ⟨none, l, b⟩

def score? (l : Limiter) (a : Address) (now : Instant) : Option Float :=
  (l.entries.get? a).map fun e => l.scoreOf e now

/-- What can be seen of an entry at an instant. Looking does not count as activity. -/
def view? (l : Limiter) (a : Address) (now : Instant) : Option EntryView :=
  (l.entries.get? a).map fun e =>
    { score := l.scoreOf e now
      eventsInWindow := e.window.totalAt now
      recentThrottles := (e.throttles.filter (l.isRecent now)).length
      totalThrottles := e.totalThrottles
      level := e.level }

/-- Whether the view of an address at an instant needs a bucket without a number, which the
program does not survive. -/
def viewOverruns (l : Limiter) (a : Address) (now : Instant) : Bool :=
  (l.entries.get? a).any fun e => e.window.isLastAt now

/-- Forgets all about an address. A block stays in place. -/
def reset (l : Limiter) (a : Address) : Limiter := { l with entries := l.entries.erase a }

def isTracked (l : Limiter) (a : Address) : Bool := (l.entries.get? a).isSome

/-- Forgets addresses that were quiet for long enough. A blocked address is not idle: its
time starts when the block ends. The lookups remove blocks that have ended. -/
def purgeIdle (l : Limiter) (b : Blocklist) (now : Instant) : Limited Nat :=
  let b := { b with entries := b.entries.filter fun a e => !(l.isTracked a && e.isExpired now) }
  let seen := l.entries.map fun a e =>
    if b.isBlocked a now then { e with lastSeen := max e.lastSeen now } else e
  let kept := seen.filter fun a e =>
    b.isBlocked a now || Instant.since now e.lastSeen < l.settings.idleTtl
  ⟨l.entries.size - kept.size, { l with entries := kept }, b⟩

end Limiter

end AdmissionGate
