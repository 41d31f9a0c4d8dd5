import AdmissionGate.Audit.Sink
import AdmissionGate.Detection.Heuristic
import AdmissionGate.Limiter.Basic
import AdmissionGate.Settings.Load

/-!
The gate: the stores that all connections share, the counters, and where audit
events and journal entries go. The functions of this module are those of the
stores, with what is noted down about each use.
-/

namespace AdmissionGate

structure Counters where
  admitted : Nat := 0
  rejected : Nat := 0
  throttled : Nat := 0
  /-- Connections that were admitted without a verdict. -/
  degraded : Nat := 0
  /-- Rejections that put a block on the address for its rate. -/
  escalated : Nat := 0
  cancelled : Nat := 0
deriving DecidableEq

structure Gate where
  settings : Settings
  detector : Detector
  registry : Registry
  limiter : Limiter
  blocklist : Blocklist
  counters : Counters := {}
  sink : AuditSink
  journal : List JournalEntry := []

namespace Gate

/-- A gate on settings that break no rule. Without a detector of its own it goes by signs. -/
def ofSettings (s : Settings) (detector : Option Detector) (sink : AuditSink)
    (blocklist : Option Blocklist) : Except SettingsError Gate := do
  let s ← s.validated
  let detector := detector.getD (.engine s.detection.heuristic.engine)
  .ok {
    settings := s
    detector
    registry := .ofSettings s.registry
    limiter := .ofSettings s
    blocklist := blocklist.getD (.ofSettings s.blocklist)
    sink
    journal := [.ready detector.name s.detection.failurePolicy] }

def note (g : Gate) (entries : List JournalEntry) : Gate :=
  { g with journal := g.journal ++ entries }

def expiryNotes (g : Gate) (a : Address) (now : Instant) : List JournalEntry :=
  if g.blocklist.isListed a && !g.blocklist.isBlocked a now then [.blockExpired a] else []

def blockCount (b : Blocklist) (a : Address) : Nat := ((b.entries.get? a).map (·.count)).getD 0

def lookUp (g : Gate) (a : Address) (now : Instant) : Option BlockStatus × Gate :=
  (g.blocklist.status? a now,
    { g.note (g.expiryNotes a now) with blocklist := g.blocklist.settle a now })

def block (g : Gate) (a : Address) (reason : Reason) (requested : Option Duration)
    (now : Instant) : Option Duration × Gate :=
  let b := g.blocklist.block a reason requested now
  let length := b.effective requested
  (length, { g.note [.blocked a reason length (blockCount b a)] with blocklist := b })

def unblock (g : Gate) (a : Address) : Bool × Gate :=
  if g.blocklist.isListed a then
    (true, { g.note [.unblocked a] with blocklist := g.blocklist.unblock a })
  else (false, g)

def escalationNotes (l : Limiter) (b : Blocklist) (a : Address) : Verdict → List JournalEntry
  | .block reason length =>
      [.blocked a reason length (blockCount b a),
        .escalated a reason (((l.entries.get? a).map (·.level)).getD 0) length]
  | _ => []

def checkNotes (g : Gate) (a : Address) (now : Instant) (r : Limited Verdict) :
    List JournalEntry :=
  if g.blocklist.isBlocked a now then []
  else
    g.expiryNotes a now ++
      match r.answer with
      | .throttle _ retryAfter =>
          [.throttled a (((r.limiter.entries.get? a).map (·.throttles.length)).getD 0) retryAfter]
      | v => escalationNotes r.limiter r.blocklist a v

/-- Counts a connection of an address, and decides on it. -/
def check (g : Gate) (a : Address) (now : Instant) : Verdict × Gate :=
  let r := g.limiter.check g.blocklist a now
  (r.answer,
    { g.note (g.checkNotes a now r) with limiter := r.limiter, blocklist := r.blocklist })

def penaltyNotes (g : Gate) (a : Address) (amount : Float) (now : Instant)
    (r : Limited (Option Verdict)) : List JournalEntry :=
  if Limiter.isPenalty amount then
    let score := ((r.limiter.entries.get? a).map (·.score)).getD amount
    .penalized a amount score ::
      if r.limiter.blocksAt score then
        g.expiryNotes a now ++
          (r.answer.map (escalationNotes r.limiter r.blocklist a)).getD []
      else []
  else []

/-- Adds to the score of an address; the answer is the block that this placed. -/
def penalizeBy (g : Gate) (a : Address) (amount : Float) (now : Instant) :
    Option Verdict × Gate :=
  let r := g.limiter.penalize g.blocklist a amount now
  (r.answer,
    { g.note (g.penaltyNotes a amount now r) with limiter := r.limiter, blocklist := r.blocklist })

def penalize (g : Gate) (a : Address) (reason : Reason) (now : Instant) :
    Option Duration × Gate :=
  let (v, g) := g.penalizeBy a (g.limiter.penaltyFor reason) now
  (match v with
    | some (.block _ length) => length
    | _ => none, g)

/-- Registers a connection of an address. Nothing lands on the blocklist in the course of a
turn. -/
def register (g : Gate) (a : Address) (now : Instant) : Except GateError ConnectionKey × Gate :=
  let (result, registry) := g.registry.register g.blocklist g.blocklist a now
  let notes : List JournalEntry :=
    match result with
    | .ok key => [.registered key (g.registry.registrations a)]
    | .error (.blocked a reason) => [.registrationBlocked a reason]
    | .error _ => []
  (result,
    { g.note (g.expiryNotes a now ++ notes) with
      registry, blocklist := g.blocklist.settle a now })

def setState (g : Gate) (key : ConnectionKey) (state : ConnectionState) : Gate :=
  let notes : List JournalEntry :=
    match g.registry.record? key with
    | none => []
    | some r =>
        if r.state.canMoveTo state then [.moved key r.state state]
        else [.moveIgnored key r.state state]
  { g.note notes with registry := g.registry.setState key state }

def update (g : Gate) (key : ConnectionKey) (bytes : Nat) (now : Instant) : Gate :=
  { g with registry := g.registry.update key bytes now }

/-- Writes the score of an address into the record of one of its connections. -/
def sampleReputation (g : Gate) (key : ConnectionKey) (now : Instant) : Gate :=
  match g.limiter.score? key.address now with
  | some score => { g with registry := g.registry.setReputation key score }
  | none => g

def release (g : Gate) (key : ConnectionKey) (now : Instant) : Gate :=
  { g.note (if g.registry.isLive key then [.released key] else []) with
    registry := g.registry.release key now }

def recordAudit (g : Gate) (e : AuditEvent) : Gate :=
  { g.note (match g.sink with
      | .journal => [.audited e]
      | _ => []) with sink := g.sink.record e }

/-- Removes what has ended or was idle for long enough, from one store after the other. -/
def sweep (g : Gate) (now : Instant) : SweepReport × Gate :=
  let purged := g.blocklist.purge now
  let idle := g.limiter.purgeIdle purged now
  let registry := g.registry.purge now
  let report : SweepReport :=
    { expiredBlocks := g.blocklist.size - purged.size
      idleEntries := idle.answer
      staleAddresses := g.registry.trackedAddresses - registry.trackedAddresses }
  let notes : List JournalEntry :=
    (if report.expiredBlocks = 0 then [] else [.blocksPurged report.expiredBlocks]) ++
      (if report.idleEntries = 0 then [] else [.entriesEvicted report.idleEntries]) ++
      (if report = {} then [] else [.swept report])
  (report,
    { g.note notes with blocklist := idle.blocklist, limiter := idle.limiter, registry })

def overrun (g : Gate) : Bool := g.blocklist.overrun || g.limiter.overrun

structure Stats where
  counters : Counters
  activeConnections : Nat
  trackedAddresses : Nat
  reputationEntries : Nat
  blockedAddresses : Nat
deriving DecidableEq

def stats (g : Gate) : Stats where
  counters := g.counters
  activeConnections := g.registry.active
  trackedAddresses := g.registry.trackedAddresses
  reputationEntries := g.limiter.trackedCount
  blockedAddresses := g.blocklist.size

def text (g : Gate) : String :=
  "AdmissionPipeline \x7b detector: " ++ Quoted.text g.detector.name ++ ", failure_policy: " ++
    Journal.policyLabel g.settings.detection.failurePolicy ++ ", active_connections: " ++
    Digits.decimal g.registry.active ++ ", .. \x7d"

end Gate

end AdmissionGate
