import AdmissionGate.Gate.Basic
import AdmissionGate.Gate.Outcome
import AdmissionGate.Handshake.Intake

/-!
How the gate decides on a connection. The stages follow one another: registry,
limiter, handshake, detector; the first one that refuses ends the matter, and the
record of the connection is released with it. A connection waits in three places:
for the end of a delay, for its handshake, and for an opinion. In each of them it
goes away when it is told to (`stop`) or when its peer does.

`Gate.receive` starts an admission, `Gate.resume` takes it up again, and both go on
until the connection has to wait or it is over. `Progress.wakeAt?` tells when there
is something to do next.
-/

namespace AdmissionGate

namespace Gate

/-- The shortest delay, so that asking the limiter again takes time. -/
def leastDelay : Duration := .ofMillis 1

/-- Bytes that are taken of a connection before it is decided on. -/
def budget (g : Gate) : Nat := g.settings.handshake.budget

def countRejection (c : Counters) (escalated : Bool) : Counters :=
  { c with
    rejected := c.rejected + 1, escalated := if escalated then c.escalated + 1 else c.escalated }

/-- Turns a connection away, which may have a record that is released. -/
def turnAway (g : Gate) (now : Instant) (r : Rejection) (key : Option ConnectionKey)
    (detail : Option String) : Gate :=
  let g := (key.map fun k => g.setState k .rejected).getD g
  let escalated := r.reason = .rateExceeded ∧ r.blockDuration.isSome
  let g := { g with counters := countRejection g.counters escalated }
  let event : AuditEvent :=
    { kind := if escalated then .escalated else .rejected
      address := r.address
      connectionId := r.connectionId
      reason := r.reason
      state := r.state
      detail }
  let g := g.recordAudit (event.withBlock r.blockDuration)
  (key.map fun k => g.release k now).getD g

def reject (g : Gate) (now : Instant) (c : Candidate) (state : ConnectionState) (reason : Reason)
    (length : Option Duration) (detail : Option String) : Progress × Gate :=
  let r : Rejection :=
    { address := c.address, connectionId := some c.key.id, reason, state, blockDuration := length }
  (.finished (.rejected r) c.peer c.trail, g.turnAway now r (some c.key) detail)

def cancel (g : Gate) (now : Instant) (c : Candidate) : Progress × Gate :=
  let g := { g with counters.cancelled := g.counters.cancelled + 1 }
  (.finished .cancelled c.peer c.trail, (g.note [.cancelled c.key]).release c.key now)

def accept (g : Gate) (c : Candidate) (h : Handshake) (degraded : Bool) : Progress × Gate :=
  let g := g.setState c.key .admitted
  let g := { g with counters.admitted := g.counters.admitted + 1 }
  (.finished (.accepted ⟨c.key, h, c.buffered, degraded⟩) c.peer c.trail,
    g.note [.accepted c.key h.protocolVersion h.nextState degraded])

def withoutVerdict (g : Gate) (now : Instant) (c : Candidate) (h : Handshake) (reason : Reason) :
    Progress × Gate :=
  match g.settings.detection.failurePolicy with
  | .failOpen =>
      let g := g.setState c.key .classified
      let g := { g with counters.degraded := g.counters.degraded + 1 }
      let g := g.recordAudit
        { kind := .degraded
          address := c.address
          connectionId := some c.key.id
          reason
          state := .classified
          detail := some ("detector '" ++ g.detector.name ++ "' gave no verdict") }
      g.accept c h true
  | .failClosed =>
      let (length, g) := g.penalize c.address reason now
      g.reject now c .handshakeValidated reason length none

def withVerdict (g : Gate) (now : Instant) (c : Candidate) (h : Handshake) (v : Verdict) :
    Progress × Gate :=
  let g := g.setState c.key .classified
  match v with
  | .allow => g.accept c h false
  | .throttle reason _ =>
      match g.penalizeBy c.address g.settings.reputation.suspicionPenalty now with
      | (some (.block reason length), g) => g.reject now c .classified reason length none
      | (_, g) => (g.note [.suspicious c.key reason]).accept c h false
  | .block reason requested =>
      let (length, g) := g.penalize c.address reason now
      match requested with
      | none => g.reject now c .classified reason length none
      | some _ =>
          let (length, g) := g.block c.address reason requested now
          g.reject now c .classified reason length none

/-- Goes on with what the detector came to; nothing, if it took too long. -/
def conclude (g : Gate) (now : Instant) (c : Candidate) (q : Question) (o : Option Opinion) :
    Progress × Gate :=
  let more := c.buffered.length - q.known
  let g := if more = 0 then g else g.update c.key more now
  let engine := g.detector.name
  match o with
  | some (.verdict v) => g.withVerdict now c q.handshake v
  | some (.fault f) =>
      (g.note [.engineFailed c.key engine f.message]).withoutVerdict now c q.handshake
        .internalFault
  | some .crash =>
      (g.note [.engineCrashed c.key engine]).withoutVerdict now c q.handshake .internalFault
  | none =>
      (g.note [.engineLate c.key engine g.settings.detection.classifyTimeout]).withoutVerdict now
        c q.handshake .classificationTimeout

/-- Watches whether the peer of a candidate goes away, and goes on if it does not. -/
def keepWatch (g : Gate) (now : Instant) (c : Candidate)
    (next : Gate → Candidate → Progress × Gate) : Progress × Gate :=
  let w := watch g.budget now c.buffered c.peer
  let c := { c with buffered := w.buffered, peer := w.peer }
  if w.closed then g.cancel now c else next g c

/-- Waits for the opinion on a candidate. An opinion that is due at the deadline counts,
and comes before what the peer does. -/
def await (g : Gate) (now : Instant) (c : Candidate) (q : Question) (stop : Bool) :
    Progress × Gate :=
  if stop then g.cancel now c
  else
    let (due, later) := q.notes.span (·.1 ≤ now)
    let g := g.note (due.map (·.2))
    match q.answer.filter (·.1 ≤ now) with
    | some (_, o) => g.conclude now c q (some o)
    | none =>
        if q.deadline ≤ now then g.conclude now c q none
        else g.keepWatch now c fun g c => (.waiting c (.opinion { q with notes := later }), g)

def ask (g : Gate) (now : Instant) (c : Candidate) (h : Handshake) (stop : Bool) :
    Progress × Gate :=
  match g.registry.record? c.key with
  | none =>
      (g.note [.recordVanished c.key]).reject now c .handshakeValidated .internalFault none none
  | some record =>
      let k := (g.detector.classify record h).delayed now
      let q : Question :=
        { handshake := h
          answer := k.answer
          notes := k.notes
          deadline := now + g.settings.detection.classifyTimeout
          known := c.buffered.length }
      g.await now (c.passed (.question record h)) q stop

def greeted (g : Gate) (now : Instant) (c : Candidate) (result : Except HandshakeError Handshake)
    (stop : Bool) : Progress × Gate :=
  let g := g.update c.key c.buffered.length now
  let c := c.passed (.greeting result)
  match result with
  | .ok h => ((g.setState c.key .handshakeValidated).sampleReputation c.key now).ask now c h stop
  | .error e =>
      if e.isDisconnect then (g.note [.peerLeft c.key e]).cancel now c
      else
        let (length, g) :=
          (g.note [.handshakeRejected c.key e]).penalize c.address .malformedHandshake now
        g.reject now c .registered .malformedHandshake length (some e.message)

def readNotes (buffered : Nat) : List Nat → List JournalEntry
  | [] => []
  | n :: rest => .bytesReceived n (buffered + n) :: readNotes (buffered + n) rest

/-- Waits for the handshake of a candidate. What is due at the deadline still counts. -/
def greet (g : Gate) (now : Instant) (c : Candidate) (deadline : Instant) (stop : Bool) :
    Progress × Gate :=
  if stop then g.cancel now c
  else
    let s := g.settings.handshake
    let k := s.collect now c.buffered c.peer
    let reads := s.collectedReads now c.buffered c.peer
    let g := g.note (readNotes c.buffered.length reads)
    let c := { c with buffered := k.buffered, peer := k.peer }
    match k.result with
    | some result => g.greeted now c result stop
    | none =>
        if deadline ≤ now then g.greeted now c (.error (.timeout s.timeout)) stop
        else (.waiting c (.greeting deadline), g)

def consider (g : Gate) (now : Instant) (c : Candidate) (stop : Bool) : Progress × Gate :=
  let (v, g) := g.check c.address now
  let c := c.passed (.check v)
  match v with
  | .allow => g.greet now c (now + g.settings.handshake.timeout) stop
  | .block reason length => g.reject now c .registered reason length none
  | .throttle reason retryAfter =>
      let delay := max retryAfter leastDelay
      let waited := Duration.plus c.waited delay
      if g.settings.pipeline.maxThrottleWait < waited then
        (g.note [.waitExhausted c.address waited]).reject now c .registered reason none none
      else
        let g := { g with counters.throttled := g.counters.throttled + 1 }
        let g := g.note [.waiting c.key delay]
        let c := { c with waited }
        if stop then g.cancel now c
        else g.keepWatch now c fun g c => (.waiting c (.delay (now + delay)), g)

/-- Turns a connection away that was not registered. -/
def refuse (g : Gate) (now : Instant) (a : Address) (peer : Peer) (e : GateError) :
    Progress × Gate :=
  let (length, g) :=
    match e with
    | .blocked a _ =>
        let (status, g) := g.lookUp a now
        (status.bind (·.remaining), g)
    | .connectionLimit a _ _ => g.penalize a e.reason now
    | .configuration _ | .internal _ => (none, g)
  let r : Rejection :=
    { address := a, connectionId := none, reason := e.reason, state := .new,
      blockDuration := length }
  (.finished (.rejected r) peer [.registration (.error e)],
    (g.note [.registrationRefused a e]).turnAway now r none none)

/-- Starts to decide on a connection. -/
def receive (g : Gate) (now : Instant) (a : Address) (peer : Peer) (stop : Bool) :
    Progress × Gate :=
  match g.register a now with
  | (.ok key, g) => g.consider now { key, peer, trail := [.registration (.ok key)] } stop
  | (.error e, g) => g.refuse now a peer e

def resume (g : Gate) (now : Instant) (c : Candidate) (w : Wait) (stop : Bool) :
    Progress × Gate :=
  match w with
  | .delay ends =>
      if stop then g.cancel now c
      else
        g.keepWatch now c fun g c =>
          if ends ≤ now then g.consider now c stop else (.waiting c (.delay ends), g)
  | .greeting deadline => g.greet now c deadline stop
  | .opinion q => g.await now c q stop

/-- When there is something to do for a candidate next. -/
def wakeAt (g : Gate) (c : Candidate) (w : Wait) : Instant :=
  let earliest (known : Instant) (others : List (Option Instant)) : Instant :=
    others.foldl (fun t o => min t (o.getD t)) known
  let watched := watchDue? g.budget c.buffered c.peer
  match w with
  | .delay ends => earliest ends [watched]
  | .greeting deadline => earliest deadline [c.peer.nextDue?]
  | .opinion q => earliest q.deadline [q.answer.map (·.1), q.notes.head?.map (·.1), watched]

end Gate

end AdmissionGate
